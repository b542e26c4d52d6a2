import Mathlib.Data.List.Basic

/-!
# Guarded machines and their runs

A machine takes one action at a time and reports events. A run is restricted by a guard on the
state each action is taken from, so that one machine serves every class of interleavings, and
every invariant is carried along a run by one of the rules below.
-/

namespace Machines

/-- A machine in which an action is either not enabled or yields the next state and events.
All nondeterminism sits in the choice of the action. -/
structure Machine (σ α ε : Type*) where
  init : σ
  step : σ → α → Option (σ × List ε)

variable {σ α ε : Type*} {m : Machine σ α ε} {ok ok' : σ → α → Prop} {s s' s'' : σ} {tr tr' : List ε}

/-- `Steps m ok s tr s'`: from `s` the machine reaches `s'` by actions that all meet the guard
`ok` where they are taken, reporting the events `tr` in order. -/
inductive Steps (m : Machine σ α ε) (ok : σ → α → Prop) (s : σ) : List ε → σ → Prop
  | nil : Steps m ok s [] s
  | snoc {tr : List ε} {s' s'' : σ} {a : α} {ev : List ε} : Steps m ok s tr s' → ok s' a →
      m.step s' a = some (s'', ev) → Steps m ok s (tr ++ ev) s''

theorem Steps.trans (h : Steps m ok s tr s') (h' : Steps m ok s' tr' s'') :
    Steps m ok s (tr ++ tr') s'' := by
  induction h' with
  | nil => simpa using h
  | snoc _ hok hstep ih =>
      rw [← List.append_assoc]
      exact .snoc ih hok hstep

theorem Steps.mono (hmono : ∀ s a, ok s a → ok' s a) (h : Steps m ok s tr s') :
    Steps m ok' s tr s' := by
  induction h with
  | nil => exact .nil
  | snoc _ hok hstep ih => exact .snoc ih (hmono _ _ hok) hstep

/-- What one guarded action preserves holds after every guarded run. -/
theorem Steps.invariant {I : σ → Prop} (hs : ∀ s a s' ev, I s → ok s a → m.step s a = some (s', ev) → I s')
    (h : Steps m ok s tr s') (h0 : I s) : I s' := by
  induction h with
  | nil => exact h0
  | snoc _ hok hstep ih => exact hs _ _ _ _ ih hok hstep

theorem Steps.trace_invariant {I : List ε → σ → Prop} (h0 : I [] s)
    (hs : ∀ tr s a s' ev, I tr s → ok s a → m.step s a = some (s', ev) → I (tr ++ ev) s')
    (h : Steps m ok s tr s') : I tr s' := by
  induction h with
  | nil => exact h0
  | snoc _ hok hstep ih => exact hs _ _ _ _ _ ih hok hstep

theorem Steps.never {I : σ → Prop} {bad : ε → Prop}
    (hs : ∀ s a s' ev, I s → ok s a → m.step s a = some (s', ev) → I s' ∧ ∀ e ∈ ev, ¬ bad e)
    (h : Steps m ok s tr s') (h0 : I s) : ∀ e ∈ tr, ¬ bad e := by
  have key : I s' ∧ ∀ e ∈ tr, ¬ bad e := by
    induction h with
    | nil => exact ⟨h0, by simp⟩
    | snoc _ hok hstep ih =>
        obtain ⟨hI, hold⟩ := ih
        obtain ⟨hI', hnew⟩ := hs _ _ _ _ hI hok hstep
        refine ⟨hI', fun e he => ?_⟩
        rcases List.mem_append.mp he with he | he
        · exact hold e he
        · exact hnew e he
  exact key.2

/-- Run a list of actions, stopping where one is not enabled or fails the guard. -/
def Machine.exec (m : Machine σ α ε) (ok : σ → α → Prop) [∀ s a, Decidable (ok s a)] :
    σ → List α → Option (σ × List ε)
  | s, [] => some (s, [])
  | s, a :: as =>
      if ok s a then
        match m.step s a with
        | none => none
        | some (s', ev) =>
            match m.exec ok s' as with
            | none => none
            | some (s'', tr) => some (s'', ev ++ tr)
      else none

theorem steps_of_exec [∀ s a, Decidable (ok s a)] (as : List α)
    (h : m.exec ok s as = some (s', tr)) : Steps m ok s tr s' := by
  induction as generalizing s tr with
  | nil =>
      simp only [Machine.exec, Option.some.injEq, Prod.mk.injEq] at h
      obtain ⟨rfl, rfl⟩ := h
      exact .nil
  | cons a as ih =>
      simp only [Machine.exec] at h
      split at h
      case isFalse => cases h
      case isTrue hok =>
        split at h
        · cases h
        · rename_i s₁ ev hstep
          split at h
          · cases h
          · rename_i s₂ tr₂ hrest
            obtain ⟨rfl, rfl⟩ : s₂ = s' ∧ ev ++ tr₂ = tr := by simpa using h
            have hfirst : Steps m ok s ([] ++ ev) s₁ := .snoc .nil hok hstep
            exact Steps.trans hfirst (ih hrest)

/-- A computed run that passes a test is a run whose result passes the test. -/
theorem exists_steps_of_exec [∀ s a, Decidable (ok s a)] (as : List α) {p : σ × List ε → Bool}
    (h : (m.exec ok s as).any p = true) : ∃ s' tr, Steps m ok s tr s' ∧ p (s', tr) = true := by
  cases hrun : m.exec ok s as with
  | none => simp [hrun] at h
  | some r =>
      rw [hrun] at h
      exact ⟨r.1, r.2, steps_of_exec as hrun, h⟩

end Machines

import Pc02.Lib.Machine

/-!
# Machines in lockstep

Two machines over the same actions and events, and a relation between their states that every guarded
action keeps. An action is then enabled in both or in neither, so neither of them can do, or refuse,
anything that the other does not.
-/

namespace Machines

variable {σ τ α ε : Type*} {m : Machine σ α ε} {n : Machine τ α ε} {R : σ → τ → Prop}
  {ok : σ → α → Prop} {ok' : τ → α → Prop} {s s' : σ} {t t' : τ} {tr : List ε}

/-- Related results of one action: the next states are related and the events are the same. -/
def Matched (R : σ → τ → Prop) (r : σ × List ε) (r' : τ × List ε) : Prop := R r.1 r'.1 ∧ r.2 = r'.2

/-- From related states an action that meets the guard of the second machine has related results. -/
def Lockstep (m : Machine σ α ε) (n : Machine τ α ε) (ok' : τ → α → Prop) (R : σ → τ → Prop) : Prop :=
  ∀ s t a, R s t → ok' t a → Option.Rel (Matched R) (m.step s a) (n.step t a)

/-- Every guarded run of the second machine is a run of the first one. -/
theorem Lockstep.steps (h : Lockstep m n ok' R) (hguard : ∀ s t a, R s t → ok' t a → ok s a)
    (hrel : R s t) (hsteps : Steps n ok' t tr t') : ∃ s', Steps m ok s tr s' ∧ R s' t' := by
  induction hsteps with
  | nil => exact ⟨s, .nil, hrel⟩
  | @snoc tr t₁ t₂ a ev _ hok hstep ih =>
      obtain ⟨s₁, hrun, hrel₁⟩ := ih
      have hmatch := h s₁ t₁ a hrel₁ hok
      rw [hstep] at hmatch
      cases hleft : m.step s₁ a with
      | none =>
          rw [hleft] at hmatch
          cases hmatch
      | some r =>
          rw [hleft] at hmatch
          cases hmatch with
          | some hres =>
              obtain ⟨hrel₂, hev⟩ := hres
              refine ⟨r.1, .snoc hrun (hguard s₁ t₁ a hrel₁ hok) ?_, hrel₂⟩
              rw [hleft]
              exact congrArg some (Prod.ext rfl hev)

theorem Lockstep.steps_back (h : Lockstep m n ok' R) (hguard : ∀ s t a, R s t → ok s a → ok' t a)
    (hrel : R s t) (hsteps : Steps m ok s tr s') : ∃ t', Steps n ok' t tr t' ∧ R s' t' := by
  induction hsteps with
  | nil => exact ⟨t, .nil, hrel⟩
  | @snoc tr s₁ s₂ a ev _ hok hstep ih =>
      obtain ⟨t₁, hrun, hrel₁⟩ := ih
      have hok' := hguard s₁ t₁ a hrel₁ hok
      have hmatch := h s₁ t₁ a hrel₁ hok'
      rw [hstep] at hmatch
      cases hright : n.step t₁ a with
      | none =>
          rw [hright] at hmatch
          cases hmatch
      | some r =>
          rw [hright] at hmatch
          cases hmatch with
          | some hres =>
              obtain ⟨hrel₂, hev⟩ := hres
              refine ⟨r.1, .snoc hrun hok' ?_, hrel₂⟩
              rw [hright]
              exact congrArg some (Prod.ext rfl hev.symm)

end Machines

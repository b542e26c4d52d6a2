import Mathlib.Data.Fintype.Pigeonhole
import Mathlib.Logic.Relation

/-!
# Circular waiting

`R a b` says that `a` waits for `b`. What waits on a circle, directly or through others, is kept waiting
by a set in which everybody waits for a member. Among finitely many, everybody else is reached by an
induction that frees first the one waited for.
-/

namespace Pc02.Lib

open Relation

variable {α : Type*} {R R' : α → α → Prop} {a : α}

/-- The waits that begin at `a` lead to a circle. -/
def Circular (R : α → α → Prop) (a : α) : Prop := ∃ x, ReflTransGen R a x ∧ TransGen R x x

def Closed (R : α → α → Prop) (C : Set α) : Prop := ∀ a ∈ C, ∃ b ∈ C, R a b

theorem Circular.next (h : Circular R a) : ∃ b, R a b ∧ Circular R b := by
  obtain ⟨x, hax, hxx⟩ := h
  cases hax.cases_head with
  | inl heq =>
      subst heq
      obtain ⟨b, hab, hba⟩ := TransGen.head'_iff.mp hxx
      exact ⟨b, hab, a, hba, hxx⟩
  | inr hstep =>
      obtain ⟨b, hab, hbx⟩ := hstep
      exact ⟨b, hab, x, hbx, hxx⟩

/-- Following the waits in a closed set, somebody is met twice. -/
theorem Closed.circular [Finite α] {C : Set α} (hC : Closed R C) (ha : a ∈ C) : Circular R a := by
  choose f hf using fun c : C => hC c.1 c.2
  let g : C → C := fun c => ⟨f c, (hf c).1⟩
  have hreach (c : C) (n : Nat) : ReflTransGen R c.1 (g^[n] c).1 := by
    induction n with
    | zero => exact .refl
    | succ n ih =>
        rw [Function.iterate_succ_apply']
        exact ih.tail (hf (g^[n] c)).2
  have htwice : ∃ m n, m < n ∧ g^[m] ⟨a, ha⟩ = g^[n] ⟨a, ha⟩ := by
    obtain ⟨m, n, hne, heq⟩ := Finite.exists_ne_map_eq_of_infinite fun n : Nat => g^[n] ⟨a, ha⟩
    rcases lt_or_gt_of_ne hne with hlt | hlt
    · exact ⟨m, n, hlt, heq⟩
    · exact ⟨n, m, hlt, heq.symm⟩
  obtain ⟨m, n, hlt, heq⟩ := htwice
  refine ⟨(g^[m] ⟨a, ha⟩).1, hreach ⟨a, ha⟩ m, ?_⟩
  have hround : g^[n - (m + 1)] (g (g^[m] ⟨a, ha⟩)) = g^[m] ⟨a, ha⟩ := by
    rw [← Function.iterate_succ_apply' g m, ← Function.iterate_add_apply, Nat.sub_add_cancel hlt, heq]
  have hback := hreach (g (g^[m] ⟨a, ha⟩)) (n - (m + 1))
  rw [hround] at hback
  exact TransGen.head' (hf (g^[m] ⟨a, ha⟩)).2 hback

/-- Whoever does not wait on a circle is freed, if everybody is who only waits for freed ones. -/
theorem free_of_not_circular [Finite α] {P : α → Prop} (hfree : ∀ a, (∀ b, R a b → P b) → P a)
    (h : ¬ Circular R a) : P a := by
  by_contra hnot
  refine h (Closed.circular (C := {a | ¬ P a}) (fun b hb => ?_) hnot)
  by_contra hno
  refine hb (hfree b fun c hbc => ?_)
  by_contra hc
  exact hno ⟨c, hc, hbc⟩

theorem Circular.mono [Finite α] (hkeep : ∀ a b, R a b → Circular R b → R' a b) (h : Circular R a) : Circular R' a := by
  refine Closed.circular (C := {a | Circular R a}) (fun b hb => ?_) h
  obtain ⟨c, hbc, hc⟩ := Circular.next hb
  exact ⟨c, hc, hkeep b c hbc hc⟩

end Pc02.Lib

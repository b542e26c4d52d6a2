import Mathlib.Logic.Equiv.Basic

/-!
# Ownership of a pool

Owners hold at most one item each. `Owned` says that the items taken from the pool and the owners that
hold one are in bijection: nothing taken is without an owner, and nothing has two. An item is taken by an
owner that holds none, passed on, or put back by the one that holds it.
-/

namespace Pc02.Lib

variable {τ ο : Type*}

structure Owned (used : τ → Prop) (owns : ο → Option τ) : Prop where
  used_iff : ∀ t, used t ↔ ∃ o, owns o = some t
  one : ∀ o o' t, owns o = some t → owns o' = some t → o = o'

namespace Owned

variable {used used' : τ → Prop} {owns owns' : ο → Option τ} {o o' : ο} {t : τ}

theorem used_of_owns (h : Owned used owns) (ho : owns o = some t) : used t := (h.used_iff t).mpr ⟨o, ho⟩

theorem congr (h : Owned used owns) (hused : ∀ u, used' u ↔ used u) (howns : ∀ x, owns' x = owns x) :
    Owned used' owns' := by
  obtain rfl : owns' = owns := funext howns
  exact ⟨fun u => (hused u).trans (h.used_iff u), h.one⟩

theorem relabel {ο' : Type*} {owns' : ο' → Option τ} (h : Owned used owns) (e : ο' ≃ ο) (hused : ∀ u, used' u ↔ used u)
    (howns : ∀ x, owns' x = owns (e x)) : Owned used' owns' := by
  constructor
  · intro u
    rw [hused, h.used_iff]
    constructor
    · rintro ⟨x, hx⟩
      refine ⟨e.symm x, ?_⟩
      rw [howns, e.apply_symm_apply, hx]
    · rintro ⟨x, hx⟩
      exact ⟨e x, (howns x).symm.trans hx⟩
  · intro x y u hx hy
    rw [howns] at hx hy
    exact e.injective (h.one _ _ u hx hy)

theorem restrict (h : Owned used owns) (hsub : ∀ x, owns' x = owns x ∨ owns' x = none)
    (hused : ∀ u, used' u ↔ used u ∧ ∀ x, owns x = some u → owns' x = some u) : Owned used' owns' := by
  have hold {x : ο} {u : τ} (hx : owns' x = some u) : owns x = some u := by
    rcases hsub x with heq | hnone
    · exact heq.symm.trans hx
    · rw [hnone] at hx
      cases hx
  constructor
  · intro u
    rw [hused, h.used_iff]
    constructor
    · rintro ⟨⟨x, hx⟩, hkept⟩
      exact ⟨x, hkept x hx⟩
    · rintro ⟨x, hx⟩
      refine ⟨⟨x, hold hx⟩, ?_⟩
      intro y hy
      rwa [h.one y x u hy (hold hx)]
  · intro x y u hx hy
    exact h.one x y u (hold hx) (hold hy)

variable [DecidableEq ο]

theorem grant (h : Owned used owns) (hfree : ¬ used t) (ho : owns o = none) (hused : ∀ u, used' u ↔ used u ∨ u = t)
    (howns : ∀ x, owns' x = Function.update owns o (some t) x) : Owned used' owns' := by
  obtain rfl : owns' = Function.update owns o (some t) := funext howns
  constructor
  · intro u
    rw [hused, h.used_iff]
    constructor
    · rintro (⟨x, hx⟩ | rfl)
      · refine ⟨x, ?_⟩
        rwa [Function.update_of_ne]
        rintro rfl
        cases ho.symm.trans hx
      · exact ⟨o, Function.update_self ..⟩
    · rintro ⟨x, hx⟩
      by_cases hxo : x = o
      · subst hxo
        rw [Function.update_self] at hx
        exact .inr (Option.some.inj hx).symm
      · rw [Function.update_of_ne hxo] at hx
        exact .inl ⟨x, hx⟩
  · intro x y u hx hy
    -- nobody else holds the item, for it was free
    have hnew {x : ο} (hx : Function.update owns o (some t) x = some t) : x = o := by
      by_contra hne
      rw [Function.update_of_ne hne] at hx
      exact hfree (h.used_of_owns hx)
    by_cases hxo : x = o
    · subst hxo
      rw [Function.update_self] at hx
      cases hx
      exact (hnew hy).symm
    · by_cases hyo : y = o
      · subst hyo
        rw [Function.update_self] at hy
        cases hy
        exact hnew hx
      · rw [Function.update_of_ne hxo] at hx
        rw [Function.update_of_ne hyo] at hy
        exact h.one x y u hx hy

theorem release (h : Owned used owns) (ho : owns o = some t) (hused : ∀ u, used' u ↔ used u ∧ u ≠ t)
    (howns : ∀ x, owns' x = Function.update owns o none x) : Owned used' owns' := by
  obtain rfl : owns' = Function.update owns o none := funext howns
  have hold {x : ο} {u : τ} (hx : Function.update owns o none x = some u) : x ≠ o ∧ owns x = some u := by
    by_cases hxo : x = o
    · subst hxo
      rw [Function.update_self] at hx
      cases hx
    · rw [Function.update_of_ne hxo] at hx
      exact ⟨hxo, hx⟩
  constructor
  · intro u
    rw [hused, h.used_iff]
    constructor
    · rintro ⟨⟨x, hx⟩, hne⟩
      refine ⟨x, ?_⟩
      rwa [Function.update_of_ne]
      rintro rfl
      exact hne (Option.some.inj (hx.symm.trans ho))
    · rintro ⟨x, hx⟩
      obtain ⟨hxo, hx⟩ := hold hx
      refine ⟨⟨x, hx⟩, ?_⟩
      rintro rfl
      exact hxo (h.one x o u hx ho)
  · intro x y u hx hy
    exact h.one x y u (hold hx).2 (hold hy).2

theorem transfer (h : Owned used owns) (ho : owns o = some t) (ho' : owns o' = none) (hused : ∀ u, used' u ↔ used u)
    (howns : ∀ x, owns' x = Function.update (Function.update owns o none) o' (some t) x) : Owned used' owns' := by
  have hback : Owned (fun u => used u ∧ u ≠ t) (Function.update owns o none) :=
    h.release ho (fun _ => Iff.rfl) fun _ => rfl
  apply hback.grant (o := o') (t := t)
  · rintro ⟨-, hne⟩
    exact hne rfl
  · by_cases hoo : o' = o
    · subst hoo
      exact Function.update_self ..
    · rwa [Function.update_of_ne hoo]
  · intro u
    rw [hused]
    by_cases hut : u = t
    · subst hut
      simp [h.used_of_owns ho]
    · simp [hut]
  · exact howns

end Owned

end Pc02.Lib

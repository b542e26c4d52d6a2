import Mathlib.Data.List.Chain
import Mathlib.Data.List.Nodup
import Mathlib.Logic.Function.Basic

/-!
# Links

Nodes that point to each other. A list of nodes is a path when each of them points to the next one, and
a doubly linked list is a path there and a path back. Taking a node out of a path and putting one in
changes what one node points to, so that the facts about both directions are one fact about paths.
-/

namespace Pc02.Lib

variable {A : Type*} {f g : A → Option A} {xs ys : List A} {a p n : A}

/-- Each node of the list points to the one after it. -/
def Path (f : A → Option A) (ys : List A) : Prop := ys.IsChain fun a b => f a = some b

theorem path_nil : Path f [] := List.isChain_nil

theorem path_singleton : Path f [a] := List.isChain_singleton a

theorem path_cons_cons : Path f (a :: n :: ys) ↔ f a = some n ∧ Path f (n :: ys) := List.isChain_cons_cons

theorem Path.tail (h : Path f (a :: ys)) : Path f ys := List.IsChain.tail h

theorem path_append_cons : Path f (xs ++ a :: ys) ↔ Path f (xs ++ [a]) ∧ Path f (a :: ys) := List.isChain_split

theorem Path.congr (h : Path f ys) (hsame : ∀ a ∈ ys.dropLast, g a = f a) : Path g ys := by
  induction ys with
  | nil => exact path_nil
  | cons a ys ih =>
      cases ys with
      | nil => exact path_singleton
      | cons n ys =>
          rw [path_cons_cons] at h ⊢
          rw [List.dropLast_cons_cons, List.forall_mem_cons] at hsame
          exact ⟨hsame.1.trans h.1, ih h.2 hsame.2⟩

section

variable [DecidableEq A]

theorem Path.update (h : Path f ys) (v : Option A) (hp : p ∉ ys.dropLast) : Path (Function.update f p v) ys := by
  apply h.congr
  intro a ha
  apply Function.update_of_ne
  rintro rfl
  exact hp ha

theorem Path.remove (h : Path f (xs ++ p :: a :: n :: ys)) (hbefore : p ∉ xs) (hafter : p ∉ (n :: ys).dropLast) :
    Path (Function.update f p (some n)) (xs ++ p :: n :: ys) := by
  obtain ⟨hxs, hys⟩ := path_append_cons.mp h
  rw [path_cons_cons, path_cons_cons] at hys
  rw [path_append_cons, path_cons_cons]
  refine ⟨hxs.update _ ?_, Function.update_self _ _ _, hys.2.2.update _ hafter⟩
  rwa [List.dropLast_concat]

theorem Path.insert (h : Path f (xs ++ p :: n :: ys)) (hbefore : p ∉ xs) (hafter : p ∉ (n :: ys).dropLast)
    (hap : a ≠ p) (haxs : a ∉ xs) (hays : a ∉ (n :: ys).dropLast) :
    Path (Function.update (Function.update f a (some n)) p (some a)) (xs ++ p :: a :: n :: ys) := by
  obtain ⟨hxs, hys⟩ := path_append_cons.mp h
  rw [path_cons_cons] at hys
  rw [path_append_cons, path_cons_cons, path_cons_cons]
  refine ⟨?_, Function.update_self _ _ _, ?_, ?_⟩
  · apply (hxs.update _ _).update
    · rwa [List.dropLast_concat]
    · rwa [List.dropLast_concat]
  · rw [Function.update_of_ne hap, Function.update_self]
  · exact (hys.2.update _ hays).update _ hafter

end

end Pc02.Lib

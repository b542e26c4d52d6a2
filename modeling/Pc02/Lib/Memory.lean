import Mathlib.Data.List.Infix
import Mathlib.Tactic.Linarith

/-!
# Blocks of memory

A block is the list of its cells. Copying into a block has a meaning only as long as it stays inside
the block that is read and the block that is written.
-/

namespace Pc02.Lib

variable {α : Type} {dest src : List α} {offset n : Nat}

def memcpy (dest : List α) (offset : Nat) (src : List α) (n : Nat) : Option (List α) :=
  if n ≤ src.length ∧ offset + n ≤ dest.length then
    some (dest.take offset ++ src.take n ++ dest.drop (offset + n))
  else none

/-- The first `n` cells of a block, in a block of their own. -/
def memdup (src : List α) (n : Nat) : Option (List α) := if n ≤ src.length then some (src.take n) else none

theorem memdup_append (rest : List α) : memdup (src ++ rest) src.length = some src := by
  simp [memdup]

theorem memcpy_eq (hsrc : n ≤ src.length) (hdest : offset + n ≤ dest.length) :
    memcpy dest offset src n = some (dest.take offset ++ src.take n ++ dest.drop (offset + n)) :=
  if_pos ⟨hsrc, hdest⟩

theorem memcpy_spec {dest' : List α} (h : memcpy dest offset src n = some dest') :
    dest'.length = dest.length ∧ dest'.take offset = dest.take offset ∧ src.take n <+: dest'.drop offset := by
  simp only [memcpy] at h
  split at h
  · rename_i hle
    cases h
    have htake : (dest.take offset).length = offset := by
      rw [List.length_take]
      omega
    refine ⟨?_, ?_, ?_⟩
    · simp only [List.length_append, htake, List.length_take, List.length_drop]
      omega
    · rw [List.append_assoc, List.take_left' htake]
    · rw [List.append_assoc, List.drop_left' htake]
      exact List.prefix_append _ _
  · cases h

theorem memcpy_bound {dest' : List α} (h : memcpy dest offset src n = some dest') : offset + n ≤ dest.length := by
  simp only [memcpy] at h
  split at h
  · rename_i hle
    exact hle.2
  · cases h

theorem memcpy_behind {written rest : List α} (hwritten : written.length = offset) (hsrc : src.length = n)
    (hrest : n ≤ rest.length) :
    memcpy (written ++ rest) offset src n = some (written ++ src ++ rest.drop n) := by
  rw [memcpy_eq hsrc.ge (by simpa [hwritten] using hrest), List.take_left' hwritten, ← hsrc, List.take_length,
    List.drop_append]
  simp [hwritten]

end Pc02.Lib

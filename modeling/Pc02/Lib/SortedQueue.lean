import Mathlib.Order.Lattice
import Mathlib.Data.List.Nodup
import Mathlib.Data.List.Pairwise

/-!
# Queues kept in key order

Insertion behind every element whose key is not greater, so that ties are served in arrival
order, with a report of whether the new element became the head.
-/

namespace SortedQueue

variable {α κ : Type*} [LinearOrder κ] (key : α → κ)

def insert (a : α) : List α → List α
  | [] => [a]
  | b :: l => if key a < key b then a :: b :: l else b :: insert a l

def atHead (a : α) : List α → Bool
  | [] => true
  | b :: _ => decide (key a < key b)

def Sorted (l : List α) : Prop := l.Pairwise fun a b => key a ≤ key b

variable {key} {a b : α} {l : List α}

@[simp]
theorem mem_insert : b ∈ insert key a l ↔ b = a ∨ b ∈ l := by
  induction l with
  | nil => simp [insert]
  | cons c l ih =>
      simp only [insert]
      split
      · simp
      · simp only [List.mem_cons, ih]
        tauto

theorem insert_perm : (insert key a l).Perm (a :: l) := by
  induction l with
  | nil => exact .refl _
  | cons c l ih =>
      simp only [insert]
      split
      · exact .refl _
      · exact (ih.cons c).trans (.swap a c l)

theorem nodup_insert (ha : a ∉ l) (hl : l.Nodup) : (insert key a l).Nodup := by
  induction l with
  | nil => simp [insert]
  | cons c l ih =>
      simp only [List.mem_cons, not_or] at ha
      obtain ⟨hc, hl⟩ := List.nodup_cons.mp hl
      simp only [insert]
      split
      · exact List.nodup_cons.mpr ⟨by simp [ha.1, ha.2], List.nodup_cons.mpr ⟨hc, hl⟩⟩
      · refine List.nodup_cons.mpr ⟨?_, ih ha.2 hl⟩
        rw [mem_insert, not_or]
        exact ⟨Ne.symm ha.1, hc⟩

theorem sorted_insert (hl : Sorted key l) : Sorted key (insert key a l) := by
  induction l with
  | nil => exact List.pairwise_singleton _ _
  | cons c l ih =>
      obtain ⟨hc, hl'⟩ := List.pairwise_cons.mp hl
      simp only [insert]
      split
      case isTrue hac =>
        refine List.pairwise_cons.mpr ⟨fun d hd => ?_, hl⟩
        rcases List.mem_cons.mp hd with rfl | hd
        · exact hac.le
        · exact hac.le.trans (hc d hd)
      case isFalse hac =>
        refine List.pairwise_cons.mpr ⟨fun d hd => ?_, ih hl'⟩
        rcases mem_insert.mp hd with rfl | hd
        · exact not_lt.mp hac
        · exact hc d hd

theorem head_insert (h : atHead key a l = false) : (insert key a l).head? = l.head? := by
  cases l with
  | nil => simp [atHead] at h
  | cons c l =>
      have hac : ¬ key a < key c := by simpa [atHead] using h
      simp [insert, hac]

theorem sorted_filter (p : α → Bool) (hl : Sorted key l) : Sorted key (l.filter p) :=
  hl.sublist (List.filter_sublist)

theorem filter_insert (hl : Sorted key l) (k : κ) :
    (insert key a l).filter (fun b => key b = k) = l.filter (fun b => key b = k) ++ if key a = k then [a] else [] := by
  induction l with
  | nil => by_cases hk : key a = k <;> simp [insert, hk]
  | cons c l ih =>
      obtain ⟨hc, hl'⟩ := List.pairwise_cons.mp hl
      simp only [insert]
      split
      case isTrue hac =>
        by_cases hk : key a = k
        · have hnone : (c :: l).filter (fun b => key b = k) = [] := by
            refine List.filter_eq_nil_iff.mpr fun b hb => ?_
            rcases List.mem_cons.mp hb with rfl | hb
            · simpa [← hk] using hac.ne'
            · simpa [← hk] using (hac.trans_le (hc b hb)).ne'
          rw [List.filter_cons_of_pos (by simpa using hk), hnone, if_pos hk]
          rfl
        · rw [List.filter_cons_of_neg (by simpa using hk), if_neg hk, List.append_nil]
      case isFalse hac =>
        by_cases hk : key c = k
        · rw [List.filter_cons_of_pos (by simpa using hk), List.filter_cons_of_pos (by simpa using hk), ih hl',
            List.cons_append]
        · rw [List.filter_cons_of_neg (by simpa using hk), List.filter_cons_of_neg (by simpa using hk), ih hl']

theorem le_of_head (hl : Sorted key l) (ha : l.head? = some a) (hb : b ∈ l) : key a ≤ key b := by
  cases l with
  | nil => simp at ha
  | cons c l =>
      obtain rfl : c = a := by simpa using ha
      rcases List.mem_cons.mp hb with rfl | hb
      · exact le_rfl
      · exact (List.pairwise_cons.mp hl).1 b hb

theorem sorted_congr {key' : α → κ} (h : ∀ b ∈ l, key' b = key b) (hl : Sorted key l) :
    Sorted key' l := by
  refine List.Pairwise.imp_of_mem (fun ha hb hab => ?_) hl
  rw [h _ ha, h _ hb]
  exact hab

end SortedQueue

import Mathlib.Data.List.Nodup

/-!
# Key lists

The list behind a box: the nodes from the header on, each with a key and a value. A new node becomes
the header, and a key that is there already is refused.
-/

namespace Pc02.Tlv

structure KeyList (α : Type) where
  count : Nat
  nodes : List (Int × α)

variable {α : Type} {list list' : KeyList α} {key k : Int} {value : α}

def keyListCreate : KeyList α := { count := 0, nodes := [] }

def keyListGetNode (list : KeyList α) (key : Int) : Option (Int × α) :=
  list.nodes.find? fun node => key = node.1

def keyListFindKey (list : KeyList α) (key : Int) : Bool := (keyListGetNode list key).isSome

def keyListAdd (list : KeyList α) (key : Int) (value : α) : Int × KeyList α :=
  if keyListFindKey list key then (-1, list)
  else (0, { count := list.count + 1, nodes := (key, value) :: list.nodes })

/-- The value of a key, unless the status is -1. -/
def keyListGet (list : KeyList α) (key : Int) : Option α := (keyListGetNode list key).map Prod.snd

def keyListCount (list : KeyList α) : Nat := list.count

theorem keyListFindKey_iff : keyListFindKey list key ↔ key ∈ list.nodes.map Prod.fst := by
  simp only [keyListFindKey, keyListGetNode, List.find?_isSome, decide_eq_true_eq, List.mem_map]
  constructor
  · rintro ⟨node, hmem, rfl⟩
    exact ⟨node, hmem, rfl⟩
  · rintro ⟨node, hmem, rfl⟩
    exact ⟨node, hmem, rfl⟩

theorem keyListAdd_absent (h : key ∉ list.nodes.map Prod.fst) :
    keyListAdd list key value = (0, { count := list.count + 1, nodes := (key, value) :: list.nodes }) := by
  rw [keyListAdd, if_neg]
  rwa [keyListFindKey_iff]

/-- A key list with distinct keys is a finite map. -/
theorem keyListGet_of_mem (hnodup : (list.nodes.map Prod.fst).Nodup) (hmem : (key, value) ∈ list.nodes) :
    keyListGet list key = some value := by
  obtain ⟨count, nodes⟩ := list
  simp only [keyListGet, keyListGetNode] at *
  induction nodes with
  | nil => cases hmem
  | cons node nodes ih =>
      rw [List.map_cons, List.nodup_cons] at hnodup
      by_cases heq : key = node.1
      · -- a second node with this key would repeat it
        have hnode : (key, value) = node := by
          rcases List.mem_cons.mp hmem with h | h
          · exact h
          · exact absurd (List.mem_map.mpr ⟨_, h, heq⟩) hnodup.1
        simp [← hnode]
      · have hmem : (key, value) ∈ nodes := by
          rcases List.mem_cons.mp hmem with h | h
          · exact absurd (congrArg Prod.fst h) heq
          · exact h
        rw [List.find?_cons_of_neg (by simpa using heq)]
        exact ih hnodup.2 hmem

end Pc02.Tlv

import Pc02.Lib.Machine
import Pc02.Tlv.KeyList
import Pc02.Tlv.KeyListHeap

/-!
# Key lists as finite maps

A list in memory beside the finite map that its calls make: every call answers as the map does, and what is
deleted from the map is what the releaser gets. The lists of boxes are such lists.
-/

namespace Pc02.Tlv

open Machines

namespace HeapList

variable {A α : Type} {entries before after : List (A × Int × α)} {a : A} {key : Int} {value : α}

def lookup (entries : List (A × Int × α)) (key : Int) : Option α :=
  (entries.find? fun entry => key = entry.2.1).map fun entry => entry.2.2

theorem lookup_none (h : key ∉ entries.map fun entry => entry.2.1) : lookup entries key = none := by
  rw [lookup, Option.map_eq_none_iff, List.find?_eq_none]
  intro entry hmem heq
  exact h (List.mem_map.mpr ⟨entry, hmem, (of_decide_eq_true heq).symm⟩)

theorem lookup_middle (hkeys : ((before ++ (a, key, value) :: after).map fun entry => entry.2.1).Nodup) :
    lookup (before ++ (a, key, value) :: after) = Function.update (lookup (before ++ after)) key (some value) ∧
      lookup (before ++ after) key = none := by
  rw [List.map_append, List.map_cons, List.nodup_append, List.nodup_cons] at hkeys
  obtain ⟨-, ⟨hafter, -⟩, hcross⟩ := hkeys
  have hbefore : key ∉ before.map fun entry => entry.2.1 := fun hmem => hcross key hmem key (by simp) rfl
  have hnone : lookup (before ++ after) key = none := by
    apply lookup_none
    rw [List.map_append, List.mem_append]
    rintro (hmem | hmem)
    · exact hbefore hmem
    · exact hafter hmem
  refine ⟨?_, hnone⟩
  funext k
  by_cases hk : k = key
  · subst hk
    have hfirst := lookup_none hbefore
    rw [lookup, Option.map_eq_none_iff] at hfirst
    rw [Function.update_self, lookup, List.find?_append, hfirst]
    simp
  · rw [Function.update_of_ne hk, lookup, lookup, List.find?_append, List.find?_append, List.find?_cons_of_neg]
    simpa using hk

theorem exists_split (h : (lookup entries key).isSome) : ∃ before a value after,
    entries = before ++ (a, key, value) :: after ∧ lookup entries key = some value ∧
      (entries.find? fun entry => key = entry.2.1) = some (a, key, value) := by
  rw [lookup, Option.isSome_map, Option.isSome_iff_exists] at h
  obtain ⟨⟨a, key', value⟩, hfind⟩ := h
  obtain ⟨hkey, before, after, hsplit, -⟩ := List.find?_eq_some_iff_append.mp hfind
  obtain rfl : key = key' := by simpa using hkey
  refine ⟨before, a, value, after, hsplit, ?_, hfind⟩
  rw [lookup, hfind]
  rfl

theorem find_eq_none (h : lookup entries key = none) : (entries.find? fun entry => key = entry.2.1) = none := by
  rwa [lookup, Option.map_eq_none_iff] at h

end HeapList

/-- A call of a function of the list; `key_list_add` is given the block that `calloc` returns. -/
inductive ListCall (A α : Type)
  | add (key : Int) (value : α) (node : A)
  | edit (key : Int) (value : α)
  | delete (key : Int)
  | get (key : Int)
  | findKey (key : Int)
  | keyset (arraySize : Int)

variable {A α : Type}

def ListCall.run [DecidableEq A] (list : HeapList A α) : ListCall A α → Option (HeapList A α × List (ListEvent α))
  | .add key value node => list.add key value node
  | .edit key value => list.edit key value
  | .delete key => list.delete key
  | .get key => list.get key
  | .findKey key => (list.findKey key).map fun found => (list, [.returned (if found then 1 else 0)])
  | .keyset arraySize => list.keyset arraySize

def ListCall.Fresh (list : HeapList A α) : ListCall A α → Prop
  | .add _ _ node => list.heap node = none
  | _ => True

structure FiniteMap (α : Type) where
  map : Int → Option α
  deleted : List α

def FiniteMap.step (m : FiniteMap α) : ListCall A α → FiniteMap α
  | .add key value _ => if (m.map key).isSome then m else { m with map := Function.update m.map key (some value) }
  | .edit key value => if (m.map key).isSome then { m with map := Function.update m.map key (some value) } else m
  | .delete key => { map := Function.update m.map key none, deleted := m.deleted ++ (m.map key).toList }
  | _ => m

def keyLists (A α : Type) [DecidableEq A] : Machine (HeapList A α × FiniteMap α) (ListCall A α) (ListEvent α) where
  init := (HeapList.create, { map := fun _ => none, deleted := [] })
  step s call := (call.run s.1).map fun r => ((r.1, s.2.step call), r.2)

/-- A call answers as the finite map does; one that fails leaves the list alone. -/
def Answers (list : HeapList A α) (map : Int → Option α) : ListCall A α → HeapList A α → List (ListEvent α) → Prop
  | .add key _ _, list', events =>
      ((map key).isSome → list' = list ∧ events = [.returned (-1)]) ∧ (map key = none → events = [.returned 0])
  | .edit key _, list', events =>
      (map key = none → list' = list ∧ events = [.returned (-1)]) ∧ ((map key).isSome → events = [.returned 0])
  | .delete key, list', events =>
      (map key = none → list' = list ∧ events = [.returned (-1)]) ∧
        ∀ value, map key = some value → events = [.released value, .returned 0]
  | .get key, list', events =>
      list' = list ∧ (map key = none → events = [.returned (-1)]) ∧
        ∀ value, map key = some value → events = [.got value, .returned 0]
  | .findKey key, list', events => list' = list ∧ events = [.returned (if (map key).isSome then 1 else 0)]
  | .keyset arraySize, list', events =>
      list' = list ∧ (arraySize < list.count → events = [.returned (-1)]) ∧
        (list.count ≤ arraySize → ∃ keys, keys.Nodup ∧ (∀ key, key ∈ keys ↔ (map key).isSome) ∧
          events = HeapList.keyEvents 0 keys ++ [.returned keys.length])

def ListEvent.released? : ListEvent α → Option α
  | .released value => some value
  | _ => none

def Refines (list : HeapList A α) (map : Int → Option α) : Prop :=
  ∃ entries, list.Holds entries ∧ map = HeapList.lookup entries

structure CallOk (list : HeapList A α) (m : FiniteMap α) (call : ListCall A α) (list' : HeapList A α)
    (events : List (ListEvent α)) : Prop where
  refines : Refines list' (m.step call).map
  answers : Answers list m.map call list' events
  releases : (m.step call).deleted = m.deleted ++ events.filterMap ListEvent.released?

variable {list : HeapList A α} {m : FiniteMap α} {entries : List (A × Int × α)}

namespace HeapList.Holds

theorem add_ok [DecidableEq A] (h : list.Holds entries) (hmap : m.map = lookup entries) {key : Int} {value : α} {node : A}
    (hfresh : list.heap node = none) :
    ∃ list' events, list.add key value node = some (list', events) ∧ CallOk list m (.add key value node) list' events := by
  cases hkey : lookup entries key with
  | none =>
      obtain ⟨list', hadd, hholds⟩ := h.add_absent hfresh (find_eq_none hkey) value
      have hstep : m.step (.add key value node) = { m with map := Function.update m.map key (some value) } := by
        simp [FiniteMap.step, hmap, hkey]
      have hlookup : lookup ([] ++ (node, key, value) :: entries) = _ := (lookup_middle hholds.keys).1
      refine ⟨list', _, hadd, ⟨_, hholds, ?_⟩, ⟨?_, fun _ => rfl⟩, ?_⟩
      · rw [hstep, hmap]
        exact hlookup.symm
      · simp [hmap, hkey]
      · simp [hstep, ListEvent.released?]
  | some old =>
      have hfound : list.findKey key = some true := by
        rw [lookup] at hkey
        obtain ⟨entry, hentry, -⟩ := Option.map_eq_some_iff.mp hkey
        rw [h.findKey_eq, hentry]
        rfl
      have hstep : m.step (.add key value node) = m := by simp [FiniteMap.step, hmap, hkey]
      refine ⟨list, _, by simp [HeapList.add, hfound], ⟨entries, h, ?_⟩, ⟨fun _ => ⟨rfl, rfl⟩, ?_⟩, ?_⟩
      · rw [hstep, hmap]
      · simp [hmap, hkey]
      · simp [hstep, ListEvent.released?]

theorem getNode_absent (h : list.Holds entries) {key : Int} (hkey : lookup entries key = none) :
    list.getNode key = some none := by
  rw [h.getNode_eq, find_eq_none hkey]
  rfl

theorem failed (h : list.Holds entries) (hmap : m.map = lookup entries) {call : ListCall A α}
    (hstep : m.step call = m) (hanswers : Answers list m.map call list [.returned (-1)]) :
    CallOk list m call list [.returned (-1)] := by
  refine ⟨⟨entries, h, ?_⟩, hanswers, ?_⟩
  · rw [hstep, hmap]
  · simp [hstep, ListEvent.released?]

theorem edit_ok [DecidableEq A] (h : list.Holds entries) (hmap : m.map = lookup entries) (key : Int) (value : α) :
    ∃ list' events, list.edit key value = some (list', events) ∧ CallOk list m (.edit key value) list' events := by
  cases hkey : lookup entries key with
  | none =>
      refine ⟨list, _, by simp [HeapList.edit, h.getNode_absent hkey], h.failed hmap ?_ ?_⟩
      · simp [FiniteMap.step, hmap, hkey]
      · exact ⟨fun _ => ⟨rfl, rfl⟩, by simp [hmap, hkey]⟩
  | some old =>
      obtain ⟨before, a, old, after, rfl, -, hfind⟩ := exists_split (Option.isSome_of_eq_some hkey)
      obtain ⟨heap', hstore, hholds⟩ := h.edit value
      have hnode : list.getNode key = some (some a) := by
        rw [h.getNode_eq, hfind]
        rfl
      have hstep : m.step (.edit key value : ListCall A α) =
          { m with map := Function.update m.map key (some value) } := by simp [FiniteMap.step, hmap, hkey]
      refine ⟨{ list with heap := heap' }, [.returned 0], ?_, ⟨_, hholds, ?_⟩, ⟨?_, fun _ => rfl⟩, ?_⟩
      · simp [HeapList.edit, hnode, hstore]
      · rw [hstep, hmap, (lookup_middle h.keys).1, (lookup_middle hholds.keys).1, Function.update_idem]
      · simp [hmap, hkey]
      · simp [hstep, ListEvent.released?]

theorem delete_ok [DecidableEq A] (h : list.Holds entries) (hmap : m.map = lookup entries) (key : Int) :
    ∃ list' events, list.delete key = some (list', events) ∧ CallOk list m (.delete key) list' events := by
  cases hkey : lookup entries key with
  | none =>
      have hsame : Function.update (lookup entries) key none = lookup entries := by
        rw [← hkey, Function.update_eq_self]
      refine ⟨list, _, by simp [HeapList.delete, h.getNode_absent hkey], h.failed hmap ?_ ?_⟩
      · simp only [FiniteMap.step, hmap, hkey, hsame, Option.toList_none, List.append_nil]
        rw [← hmap]
      · exact ⟨fun _ => ⟨rfl, rfl⟩, by simp [hmap, hkey]⟩
  | some value =>
      obtain ⟨before, a, value', after, rfl, hvalue, hfind⟩ := exists_split (Option.isSome_of_eq_some hkey)
      obtain rfl : value' = value := Option.some.inj (hvalue.symm.trans hkey)
      obtain ⟨list', hremove, hholds⟩ := h.remove
      have hnode : list.getNode key = some (some a) := by
        rw [h.getNode_eq, hfind]
        rfl
      obtain ⟨hmiddle, hnone⟩ := lookup_middle h.keys
      have hdelete : list.delete key = some (list', [.released value', .returned 0]) := by
        simp only [HeapList.delete, hnode, Option.bind_eq_bind, Option.bind_some, hremove]
      refine ⟨list', _, hdelete, ⟨_, hholds, ?_⟩, ⟨?_, ?_⟩, ?_⟩
      · rw [FiniteMap.step, hmap, hmiddle, Function.update_idem, ← hnone, Function.update_eq_self]
      · simp [hmap, hkey]
      · intro value heq
        rw [hmap, hkey] at heq
        cases heq
        rfl
      · simp [FiniteMap.step, hmap, hkey, ListEvent.released?]

theorem get_ok (h : list.Holds entries) (hmap : m.map = lookup entries) (key : Int) :
    ∃ list' events, list.get key = some (list', events) ∧ CallOk list m (.get key) list' events := by
  cases hkey : lookup entries key with
  | none =>
      refine ⟨list, _, by simp [HeapList.get, h.getNode_absent hkey], h.failed hmap rfl ?_⟩
      exact ⟨rfl, fun _ => rfl, by simp [hmap, hkey]⟩
  | some value =>
      obtain ⟨before, a, value', after, hentries, hvalue, hfind⟩ := exists_split (Option.isSome_of_eq_some hkey)
      obtain rfl : value' = value := Option.some.inj (hvalue.symm.trans hkey)
      obtain ⟨node, hnode, -, hstored⟩ := h.stored (a, key, value') (by simp [hentries])
      have hget : list.getNode key = some (some a) := by
        rw [h.getNode_eq, hfind]
        rfl
      refine ⟨list, [.got value', .returned 0], ?_, ⟨entries, h, hmap⟩, ⟨rfl, ?_, ?_⟩, ?_⟩
      · simp [HeapList.get, hget, hnode, hstored]
      · simp [hmap, hkey]
      · intro value heq
        rw [hmap, hkey] at heq
        cases heq
        rfl
      · simp [FiniteMap.step, ListEvent.released?]

theorem findKey_ok (h : list.Holds entries) (hmap : m.map = lookup entries) (key : Int) :
    ∃ list' events, (list.findKey key).map (fun found => (list, [.returned (if found then 1 else 0)])) =
      some (list', events) ∧ CallOk list m (.findKey key) list' events := by
  refine ⟨list, [.returned (if (m.map key).isSome then 1 else 0)], ?_, ⟨entries, h, hmap⟩, ⟨rfl, rfl⟩, ?_⟩
  · rw [h.findKey_eq, hmap, lookup, Option.isSome_map]
    rfl
  · simp [FiniteMap.step, ListEvent.released?]

theorem keyEvents_released (i : Nat) (keys : List Int) :
    (keyEvents i keys : List (ListEvent α)).filterMap ListEvent.released? = [] := by
  induction keys generalizing i with
  | nil => rfl
  | cons key keys ih => simpa [keyEvents, ListEvent.released?] using ih (i + 1)

theorem keyset_ok (h : list.Holds entries) (hmap : m.map = lookup entries) (arraySize : Int) :
    ∃ list' events, list.keyset arraySize = some (list', events) ∧ CallOk list m (.keyset arraySize) list' events := by
  rw [h.keyset_eq]
  have hkeys : ∀ key, key ∈ (entries.map fun entry => entry.2.1) ↔ (m.map key).isSome := by
    intro key
    rw [hmap]
    constructor
    · intro hmem
      by_contra hnone
      rw [Option.not_isSome_iff_eq_none] at hnone
      obtain ⟨entry, hentry, heq⟩ := List.mem_map.mp hmem
      have hne := List.find?_eq_none.mp (find_eq_none hnone) entry hentry
      exact hne (decide_eq_true heq.symm)
    · intro hsome
      by_contra hnot
      rw [lookup_none hnot] at hsome
      cases hsome
  split
  · rename_i hsmall
    refine ⟨list, _, rfl, h.failed hmap rfl ⟨rfl, fun _ => rfl, ?_⟩⟩
    intro hle
    omega
  · rename_i hlarge
    refine ⟨list, _, rfl, ⟨entries, h, hmap⟩, ⟨rfl, ?_, ?_⟩, ?_⟩
    · intro hsmall
      exact absurd hsmall hlarge
    · intro _
      exact ⟨_, h.keys, hkeys, by simp⟩
    · simp [FiniteMap.step, keyEvents_released, ListEvent.released?]

theorem call_ok [DecidableEq A] (h : list.Holds entries) (hmap : m.map = lookup entries) {call : ListCall A α}
    (hfresh : call.Fresh list) :
    ∃ list' events, call.run list = some (list', events) ∧ CallOk list m call list' events := by
  cases call with
  | add key value node => exact h.add_ok hmap hfresh
  | edit key value => exact h.edit_ok hmap key value
  | delete key => exact h.delete_ok hmap key
  | get key => exact h.get_ok hmap key
  | findKey key => exact h.findKey_ok hmap key
  | keyset arraySize => exact h.keyset_ok hmap arraySize

end HeapList.Holds

/-- After any calls the list is sound, is the finite map that the calls make, and has released what was
deleted from it; and every further call returns and answers as the finite map does. -/
structure ListSound [DecidableEq A] (events : List (ListEvent α)) (s : HeapList A α × FiniteMap α) : Prop where
  refines : Refines s.1 s.2.map
  released : events.filterMap ListEvent.released? = s.2.deleted
  answers : ∀ call : ListCall A α, call.Fresh s.1 → ∃ list' events', call.run s.1 = some (list', events') ∧
    Answers s.1 s.2.map call list' events'

theorem keyList_sound [DecidableEq A] {events : List (ListEvent α)} {s : HeapList A α × FiniteMap α}
    (h : Steps (keyLists A α) (fun s call => call.Fresh s.1) (keyLists A α).init events s) : ListSound events s := by
  have hsound : Refines s.1 s.2.map ∧ events.filterMap ListEvent.released? = s.2.deleted := by
    apply h.trace_invariant (I := fun events s =>
      Refines s.1 s.2.map ∧ events.filterMap ListEvent.released? = s.2.deleted)
    · exact ⟨⟨[], holds_create, rfl⟩, rfl⟩
    · rintro events s call s' events' ⟨⟨entries, hholds, hmap⟩, hreleased⟩ hfresh hstep
      obtain ⟨list', events'', hrun, hok⟩ := hholds.call_ok hmap hfresh
      simp only [keyLists, hrun, Option.map_some, Option.some.injEq, Prod.mk.injEq] at hstep
      obtain ⟨rfl, rfl⟩ := hstep
      refine ⟨hok.refines, ?_⟩
      rw [List.filterMap_append, hreleased]
      exact hok.releases.symm
  obtain ⟨⟨entries, hholds, hmap⟩, hreleased⟩ := hsound
  refine ⟨⟨entries, hholds, hmap⟩, hreleased, ?_⟩
  intro call hfresh
  obtain ⟨list', events', hrun, hok⟩ := hholds.call_ok hmap hfresh
  exact ⟨list', events', hrun, hok.answers⟩

instance (list : HeapList A α) : (call : ListCall A α) → Decidable (call.Fresh list)
  | .add _ _ node => decidable_of_iff ((list.heap node).isNone = true) Option.isNone_iff_eq_none
  | .edit _ _ => inferInstanceAs (Decidable True)
  | .delete _ => inferInstanceAs (Decidable True)
  | .get _ => inferInstanceAs (Decidable True)
  | .findKey _ => inferInstanceAs (Decidable True)
  | .keyset _ => inferInstanceAs (Decidable True)

/-- Three nodes, of which the one in the middle, the header and the last one are deleted; an address is used again. -/
def deletions : List (ListCall Nat Nat) :=
  [.add 1 10 0, .add 2 20 1, .add 3 30 2, .add 2 21 3, .delete 2, .edit 1 11, .delete 3, .add 5 50 1, .delete 1,
    .keyset 1, .keyset 0]

theorem keyList_sound_deletions : ∃ events s, Steps (keyLists Nat Nat) (fun s call => call.Fresh s.1)
    (keyLists Nat Nat).init events s ∧ s.1.header = some 1 ∧ s.1.count = 1 ∧ s.2.deleted = [20, 30, 11] ∧
    ListSound events s := by
  have hrun : ∃ s events, Steps (keyLists Nat Nat) (fun s call => call.Fresh s.1) (keyLists Nat Nat).init events s ∧
      decide (s.1.header = some 1 ∧ s.1.count = 1 ∧ s.2.deleted = [20, 30, 11]) = true :=
    exists_steps_of_exec deletions
      (p := fun r : (HeapList Nat Nat × FiniteMap Nat) × List (ListEvent Nat) =>
        decide (r.1.1.header = some 1 ∧ r.1.1.count = 1 ∧ r.1.2.deleted = [20, 30, 11])) (by decide)
  obtain ⟨s, events, hsteps, htest⟩ := hrun
  obtain ⟨hheader, hcount, hdeleted⟩ := of_decide_eq_true htest
  exact ⟨events, s, hsteps, hheader, hcount, hdeleted, keyList_sound hsteps⟩

def HeapList.toKeyList (entries : List (A × Int × α)) : KeyList α :=
  { count := entries.length, nodes := entries.map Prod.snd }

namespace HeapList

variable {key : Int} {value : α}

theorem keyListGet_toKeyList (entries : List (A × Int × α)) (key : Int) :
    keyListGet (toKeyList entries) key = lookup entries key := by
  rw [keyListGet, keyListGetNode, toKeyList, List.find?_map, lookup, Option.map_map]
  rfl

theorem keyListFindKey_toKeyList (entries : List (A × Int × α)) (key : Int) :
    keyListFindKey (toKeyList entries) key = (lookup entries key).isSome := by
  rw [← keyListGet_toKeyList, keyListFindKey, keyListGet, Option.isSome_map]

/-- In memory, `key_list_add` does to the list what it does to the list of a box. -/
theorem Holds.add_refines [DecidableEq A] (h : list.Holds entries) {node : A} (hfresh : list.heap node = none) :
    ∃ list' entries', list.add key value node =
        some (list', [.returned (keyListAdd (toKeyList entries) key value).1]) ∧
      list'.Holds entries' ∧ toKeyList entries' = (keyListAdd (toKeyList entries) key value).2 := by
  rw [keyListAdd, keyListFindKey_toKeyList]
  cases hkey : lookup entries key with
  | none =>
      obtain ⟨list', hadd, hholds⟩ := h.add_absent hfresh (find_eq_none hkey) value
      exact ⟨list', _, hadd, hholds, rfl⟩
  | some old =>
      have hfound : list.findKey key = some true := by
        obtain ⟨entry, hentry, -⟩ := Option.map_eq_some_iff.mp hkey
        rw [h.findKey_eq, hentry]
        rfl
      exact ⟨list, entries, by simp [HeapList.add, hfound], h, rfl⟩

theorem Holds.get_refines (h : list.Holds entries) : list.get key =
    some (list, (keyListGet (toKeyList entries) key).elim [.returned (-1)] fun value => [.got value, .returned 0]) := by
  rw [keyListGet_toKeyList]
  cases hkey : lookup entries key with
  | none => simp [HeapList.get, h.getNode_absent hkey]
  | some value =>
      obtain ⟨before, a, value', after, hentries, hvalue, hfind⟩ := exists_split (Option.isSome_of_eq_some hkey)
      obtain rfl : value' = value := Option.some.inj (hvalue.symm.trans hkey)
      obtain ⟨node, hnode, -, hstored⟩ := h.stored (a, key, value') (by simp [hentries])
      simp [HeapList.get, h.getNode_eq, hfind, hnode, hstored]

end HeapList

end Pc02.Tlv

import Pc02.Lib.Links

/-!
# Key lists in memory

`key_list.c` over a heap of nodes. A call that follows a null pointer or a pointer to a node that is not
there has no result. Every call leaves the list doubly linked.
-/

namespace Pc02.Tlv

open Pc02.Lib

structure KeyListNode (A α : Type) where
  key : Int
  value : α
  prev : Option A
  next : Option A

/-- `key_list_t` with the heap its nodes are in. -/
structure HeapList (A α : Type) where
  heap : A → Option (KeyListNode A α)
  count : Int
  header : Option A

inductive ListEvent (α : Type)
  | returned (status : Int)
  /-- `*value` is set. -/
  | got (value : α)
  /-- `array[i]` is set. -/
  | wrote (i : Nat) (key : Int)
  /-- The value is passed to the releaser. -/
  | released (value : α)

namespace HeapList

variable {A α : Type}

section Functions

variable [DecidableEq A]

def create : HeapList A α := { heap := fun _ => none, count := 0, header := none }

def store (heap : A → Option (KeyListNode A α)) (a : A) (f : KeyListNode A α → KeyListNode A α) :
    Option (A → Option (KeyListNode A α)) :=
  (heap a).map fun node => Function.update heap a (some (f node))

def getNodeLoop (heap : A → Option (KeyListNode A α)) (key : Int) : Nat → Option A → Option (Option A)
  | 0, _ => none
  | _ + 1, none => some none
  | fuel + 1, some current => do
      let node ← heap current
      if key = node.key then some (some current) else getNodeLoop heap key fuel node.next

/-- There are as many rounds as there are nodes, and one more. -/
def getNode (list : HeapList A α) (key : Int) : Option (Option A) :=
  getNodeLoop list.heap key (list.count.toNat + 1) list.header

def keysetLoop (heap : A → Option (KeyListNode A α)) : Nat → Option A → Nat → Option (List (ListEvent α) × Nat)
  | 0, _, _ => none
  | _ + 1, none, i => some ([], i)
  | fuel + 1, some current, i => do
      let node ← heap current
      let r ← keysetLoop heap fuel node.next (i + 1)
      some (.wrote i node.key :: r.1, r.2)

def keyset (list : HeapList A α) (arraySize : Int) : Option (HeapList A α × List (ListEvent α)) :=
  if arraySize < list.count then some (list, [.returned (-1)])
  else do
    let r ← keysetLoop list.heap (list.count.toNat + 1) list.header 0
    some (list, r.1 ++ [.returned r.2])

/-- The first `if` of `key_list_remove_node`, on the header and the node before. -/
def unlinkNext (list : HeapList A α) (a : A) (node : KeyListNode A α) :
    Option ((A → Option (KeyListNode A α)) × Option A) :=
  if some a = list.header then some (list.heap, node.next)
  else do
    let p ← node.prev
    let heap ← store list.heap p fun prev => { prev with next := node.next }
    some (heap, list.header)

def unlinkPrev (heap : A → Option (KeyListNode A α)) (node : KeyListNode A α) :
    Option (A → Option (KeyListNode A α)) :=
  match node.next with
  | none => some heap
  | some n => store heap n fun next => { next with prev := node.prev }

def removeNode (list : HeapList A α) (a : A) : Option (HeapList A α × List (ListEvent α)) := do
  let node ← list.heap a
  let (heap, header) ← unlinkNext list a node
  let node ← heap a
  let heap ← unlinkPrev heap node
  let node ← heap a
  some ({ heap := Function.update heap a none, count := list.count - 1, header := header },
    [.released node.value, .returned 0])

def findKey (list : HeapList A α) (key : Int) : Option Bool := (getNode list key).map Option.isSome

/-- `calloc` returns the block `a`. -/
def add (list : HeapList A α) (key : Int) (value : α) (a : A) : Option (HeapList A α × List (ListEvent α)) := do
  let found ← findKey list key
  if found then some (list, [.returned (-1)])
  else
    let heap := Function.update list.heap a (some { key := key, value := value, prev := none, next := none })
    let heap ←
      match list.header with
      | none => some heap
      | some h => do
          let heap ← store heap a fun node => { node with next := some h }
          store heap h fun header => { header with prev := some a }
    some ({ heap := heap, count := list.count + 1, header := some a }, [.returned 0])

def get (list : HeapList A α) (key : Int) : Option (HeapList A α × List (ListEvent α)) := do
  let found ← getNode list key
  match found with
  | none => some (list, [.returned (-1)])
  | some a => do
      let node ← list.heap a
      some (list, [.got node.value, .returned 0])

def edit (list : HeapList A α) (key : Int) (value : α) : Option (HeapList A α × List (ListEvent α)) := do
  let found ← getNode list key
  match found with
  | none => some (list, [.returned (-1)])
  | some a => do
      let heap ← store list.heap a fun node => { node with value := value }
      some ({ list with heap := heap }, [.returned 0])

def delete (list : HeapList A α) (key : Int) : Option (HeapList A α × List (ListEvent α)) := do
  let found ← getNode list key
  match found with
  | none => some (list, [.returned (-1)])
  | some a => removeNode list a

end Functions

/-- What the pointers of the list point to; the null pointer stands before the header and behind the last node. -/
def nextOf (heap : A → Option (KeyListNode A α)) (header : Option A) : Option A → Option (Option A)
  | none => some header
  | some a => (heap a).map KeyListNode.next

def prevOf (heap : A → Option (KeyListNode A α)) : Option A → Option (Option A)
  | none => none
  | some a => (heap a).map KeyListNode.prev

def addresses (entries : List (A × Int × α)) : List (Option A) := entries.map fun entry => some entry.1

def Stored (heap : A → Option (KeyListNode A α)) (entry : A × Int × α) : Prop :=
  ∃ node, heap entry.1 = some node ∧ node.key = entry.2.1 ∧ node.value = entry.2.2

/-- The nodes from the header on, as they are in the heap. -/
structure Holds (list : HeapList A α) (entries : List (A × Int × α)) : Prop where
  forward : Path (nextOf list.heap list.header) (none :: addresses entries ++ [none])
  backward : Path (prevOf list.heap) (none :: addresses entries).reverse
  stored : ∀ entry ∈ entries, Stored list.heap entry
  owned : ∀ a, (list.heap a).isSome → a ∈ entries.map Prod.fst
  distinct : (entries.map Prod.fst).Nodup
  keys : (entries.map fun entry => entry.2.1).Nodup
  count : list.count = entries.length

theorem nextOf_header [DecidableEq A] (heap : A → Option (KeyListNode A α)) (header header' : Option A) :
    nextOf heap header' = Function.update (nextOf heap header) none (some header') := by
  funext a
  cases a <;> simp [nextOf]

theorem nextOf_update [DecidableEq A] (heap : A → Option (KeyListNode A α)) (header : Option A) (a : A)
    (node : Option (KeyListNode A α)) : nextOf (Function.update heap a node) header =
      Function.update (nextOf heap header) (some a) (node.map KeyListNode.next) := by
  funext b
  cases b with
  | none => simp [nextOf]
  | some b =>
      by_cases hb : b = a
      · subst hb
        simp [nextOf]
      · simp [nextOf, hb]

theorem prevOf_update [DecidableEq A] (heap : A → Option (KeyListNode A α)) (a : A) (node : Option (KeyListNode A α)) :
    prevOf (Function.update heap a node) = Function.update (prevOf heap) (some a) (node.map KeyListNode.prev) := by
  funext b
  cases b with
  | none => simp [prevOf]
  | some b =>
      by_cases hb : b = a
      · subst hb
        simp [prevOf]
      · simp [prevOf, hb]

variable {list : HeapList A α} {heap : A → Option (KeyListNode A α)} {header : Option A}
  {entries before after : List (A × Int × α)} {a : A} {key : Int} {value : α}

def first (entries : List (A × Int × α)) : Option A := entries.head?.map Prod.fst

theorem addresses_end (entries : List (A × Int × α)) :
    ∃ rest, addresses entries ++ [none] = first entries :: rest := by
  cases entries with
  | nil => exact ⟨[], rfl⟩
  | cons entry entries => exact ⟨addresses entries ++ [none], rfl⟩

theorem next_eq_first {c : Option A} (h : Path (nextOf heap header) (c :: (addresses entries ++ [none]))) :
    nextOf heap header c = some (first entries) := by
  obtain ⟨rest, hrest⟩ := addresses_end entries
  rw [hrest, path_cons_cons] at h
  exact h.1

theorem node_of_path {entry : A × Int × α}
    (hpath : Path (nextOf heap header) (addresses (entry :: entries) ++ [none])) (hstored : Stored heap entry) :
    ∃ node, heap entry.1 = some node ∧ node.key = entry.2.1 ∧ node.next = first entries := by
  obtain ⟨node, hnode, hkey, -⟩ := hstored
  have hnext := next_eq_first hpath
  rw [nextOf, hnode, Option.map_some, Option.some.injEq] at hnext
  exact ⟨node, hnode, hkey, hnext⟩

/-- The walk along the list finds the first node with the key. -/
theorem getNodeLoop_eq {fuel : Nat} (hpath : Path (nextOf heap header) (addresses entries ++ [none]))
    (hstored : ∀ entry ∈ entries, Stored heap entry) (hfuel : entries.length < fuel) :
    getNodeLoop heap key fuel (first entries) =
      some ((entries.find? fun entry => key = entry.2.1).map Prod.fst) := by
  induction entries generalizing fuel with
  | nil =>
      obtain ⟨fuel, rfl⟩ : ∃ k, fuel = k + 1 := ⟨fuel - 1, by simp at hfuel; omega⟩
      rfl
  | cons entry entries ih =>
      obtain ⟨fuel, rfl⟩ : ∃ k, fuel = k + 1 := ⟨fuel - 1, by simp at hfuel; omega⟩
      obtain ⟨node, hnode, hkey, hnext⟩ := node_of_path hpath (hstored entry (by simp))
      change getNodeLoop heap key (fuel + 1) (some entry.1) = _
      simp only [getNodeLoop, hnode, Option.bind_eq_bind, Option.bind_some, hkey, List.find?_cons]
      by_cases heq : key = entry.2.1
      · simp [heq]
      · simp only [heq, if_false, decide_false, hnext]
        exact ih hpath.tail (fun entry hmem => hstored entry (List.mem_cons_of_mem _ hmem)) (by simpa using hfuel)

def keyEvents : Nat → List Int → List (ListEvent α)
  | _, [] => []
  | i, key :: keys => .wrote i key :: keyEvents (i + 1) keys

theorem keysetLoop_eq {fuel : Nat} (i : Nat) (hpath : Path (nextOf heap header) (addresses entries ++ [none]))
    (hstored : ∀ entry ∈ entries, Stored heap entry) (hfuel : entries.length < fuel) :
    keysetLoop heap fuel (first entries) i =
      some (keyEvents i (entries.map fun entry => entry.2.1), i + entries.length) := by
  induction entries generalizing fuel i with
  | nil =>
      obtain ⟨fuel, rfl⟩ : ∃ k, fuel = k + 1 := ⟨fuel - 1, by simp at hfuel; omega⟩
      rfl
  | cons entry entries ih =>
      obtain ⟨fuel, rfl⟩ : ∃ k, fuel = k + 1 := ⟨fuel - 1, by simp at hfuel; omega⟩
      obtain ⟨node, hnode, hkey, hnext⟩ := node_of_path hpath (hstored entry (by simp))
      have hrest := ih (i + 1) hpath.tail (fun entry hmem => hstored entry (List.mem_cons_of_mem _ hmem))
        (by simpa using hfuel)
      change keysetLoop heap (fuel + 1) (some entry.1) i = _
      simp only [keysetLoop, hnode, Option.bind_eq_bind, Option.bind_some, hnext, hrest, hkey, List.map_cons,
        keyEvents, List.length_cons]
      rw [show i + 1 + entries.length = i + (entries.length + 1) by omega]

namespace Holds

theorem header_eq (h : Holds list entries) : list.header = first entries :=
  Option.some.inj (next_eq_first (c := none) h.forward)

theorem getNode_eq (h : Holds list entries) (key : Int) :
    getNode list key = some ((entries.find? fun entry => key = entry.2.1).map Prod.fst) := by
  rw [getNode, h.header_eq]
  exact getNodeLoop_eq h.forward.tail h.stored (by rw [h.count]; omega)

theorem keyset_eq (h : Holds list entries) (arraySize : Int) :
    list.keyset arraySize = if arraySize < list.count then some (list, [.returned (-1)])
      else some (list, keyEvents 0 (entries.map fun entry => entry.2.1) ++ [.returned entries.length]) := by
  rw [keyset]
  split
  · rfl
  · have hloop := keysetLoop_eq 0 h.forward.tail h.stored (by rw [h.count]; omega : _ < list.count.toNat + 1)
    rw [h.header_eq, hloop]
    simp

end Holds

theorem Stored.update [DecidableEq A] {entry : A × Int × α} {node node' : KeyListNode A α} (h : Stored heap entry)
    (hnode : heap a = some node) (hkey : node'.key = node.key) (hvalue : node'.value = node.value) :
    Stored (Function.update heap a (some node')) entry := by
  obtain ⟨stored, hstored, hkey', hvalue'⟩ := h
  by_cases heq : entry.1 = a
  · rw [heq, hnode] at hstored
    cases hstored
    exact ⟨node', by rw [heq, Function.update_self], hkey.trans hkey', hvalue.trans hvalue'⟩
  · exact ⟨stored, by rw [Function.update_of_ne heq, hstored], hkey', hvalue'⟩

theorem Stored.update_of_ne [DecidableEq A] {entry : A × Int × α} (h : Stored heap entry)
    (node : Option (KeyListNode A α)) (hne : entry.1 ≠ a) : Stored (Function.update heap a node) entry := by
  obtain ⟨stored, hstored, hrest⟩ := h
  exact ⟨stored, by rw [Function.update_of_ne hne, hstored], hrest⟩

theorem mem_addresses {b : Option A} : b ∈ addresses entries ↔ ∃ c ∈ entries.map Prod.fst, b = some c := by
  simp only [addresses, List.mem_map]
  constructor
  · rintro ⟨entry, hmem, rfl⟩
    exact ⟨entry.1, ⟨entry, hmem, rfl⟩, rfl⟩
  · rintro ⟨c, ⟨entry, hmem, rfl⟩, rfl⟩
    exact ⟨entry, hmem, rfl⟩

theorem some_mem_addresses : some a ∈ addresses entries ↔ a ∈ entries.map Prod.fst := by
  rw [mem_addresses]
  constructor
  · rintro ⟨c, hc, heq⟩
    cases heq
    exact hc
  · intro h
    exact ⟨a, h, rfl⟩

theorem none_not_mem_addresses : none ∉ addresses entries := by
  rw [mem_addresses]
  rintro ⟨c, -, heq⟩
  cases heq

namespace Holds

theorem not_mem_of_none (h : Holds list entries) (hfresh : list.heap a = none) : a ∉ entries.map Prod.fst := by
  intro hmem
  obtain ⟨entry, hentry, rfl⟩ := List.mem_map.mp hmem
  obtain ⟨node, hnode, -⟩ := h.stored entry hentry
  rw [hfresh] at hnode
  cases hnode

theorem findKey_eq (h : Holds list entries) (key : Int) :
    list.findKey key = some (entries.find? fun entry => key = entry.2.1).isSome := by
  rw [findKey, h.getNode_eq, Option.map_some, Option.isSome_map]

theorem forward_front [DecidableEq A] (h : Holds list entries) (hfresh : list.heap a = none)
    {heap' : A → Option (KeyListNode A α)} (hnext : nextOf heap' (some a) = Function.update
      (Function.update (nextOf list.heap list.header) (some a) (some (first entries))) none (some (some a))) :
    Path (nextOf heap' (some a)) (none :: addresses ((a, key, value) :: entries) ++ [none]) := by
  have hnot : some a ∉ addresses entries := by
    rw [some_mem_addresses]
    exact h.not_mem_of_none hfresh
  obtain ⟨rest, hrest⟩ := addresses_end entries
  have hlast : (first entries :: rest).dropLast = addresses entries := by rw [← hrest, List.dropLast_concat]
  have hforward : Path (nextOf list.heap list.header) ([] ++ none :: first entries :: rest) := by
    rw [← hrest]
    exact h.forward
  have hsplit : none :: addresses ((a, key, value) :: entries) ++ [none] =
      [] ++ none :: some a :: first entries :: rest := by
    rw [← hrest]
    rfl
  rw [hnext, hsplit]
  apply hforward.insert
  · simp
  · rw [hlast]
    exact none_not_mem_addresses
  · simp
  · simp
  · rw [hlast]
    exact hnot

theorem backward_front [DecidableEq A] {entry : A × Int × α} (h : Holds list (entry :: entries))
    (hfresh : list.heap a = none) {heap' : A → Option (KeyListNode A α)} (hprev : prevOf heap' = Function.update
      (Function.update (prevOf list.heap) (some a) (some none)) (some entry.1) (some (some a))) :
    Path (prevOf heap') (none :: addresses ((a, key, value) :: entry :: entries)).reverse := by
  have hnot := h.not_mem_of_none hfresh
  rw [List.map_cons, List.mem_cons, not_or] at hnot
  have hdistinct := h.distinct
  rw [List.map_cons, List.nodup_cons] at hdistinct
  have hbackward : Path (prevOf list.heap) ((addresses entries).reverse ++ some entry.1 :: none :: []) := by
    have hbackward := h.backward
    simp only [addresses, List.map_cons, List.reverse_cons, List.append_assoc] at hbackward
    exact hbackward
  have hsplit : (none :: addresses ((a, key, value) :: entry :: entries)).reverse =
      (addresses entries).reverse ++ some entry.1 :: some a :: none :: [] := by
    simp [addresses]
  rw [hprev, hsplit]
  apply hbackward.insert
  · rw [List.mem_reverse, some_mem_addresses]
    exact hdistinct.1
  · simp
  · intro heq
    exact hnot.1 (Option.some.inj heq)
  · rw [List.mem_reverse, some_mem_addresses]
    exact hnot.2
  · simp

theorem front (h : Holds list entries) (hfresh : list.heap a = none)
    (hkey : (entries.find? fun entry => key = entry.2.1) = none) {heap' : A → Option (KeyListNode A α)}
    (hforward : Path (nextOf heap' (some a)) (none :: addresses ((a, key, value) :: entries) ++ [none]))
    (hbackward : Path (prevOf heap') (none :: addresses ((a, key, value) :: entries)).reverse)
    (hnew : Stored heap' (a, key, value)) (hold : ∀ entry ∈ entries, Stored heap' entry)
    (howned : ∀ b, (heap' b).isSome → b = a ∨ (list.heap b).isSome) :
    Holds { heap := heap', count := list.count + 1, header := some a } ((a, key, value) :: entries) where
  forward := hforward
  backward := hbackward
  stored := by
    intro entry hmem
    rcases List.mem_cons.mp hmem with rfl | hmem
    · exact hnew
    · exact hold entry hmem
  owned := by
    intro b hb
    rcases howned b hb with rfl | hb
    · simp
    · exact List.mem_cons_of_mem _ (h.owned b hb)
  distinct := List.nodup_cons.mpr ⟨h.not_mem_of_none hfresh, h.distinct⟩
  keys := by
    refine List.nodup_cons.mpr ⟨?_, h.keys⟩
    intro hmem
    obtain ⟨entry, hentry, heq⟩ := List.mem_map.mp hmem
    have hne := List.find?_eq_none.mp hkey entry hentry
    exact hne (by simpa using heq.symm)
  count := by
    rw [h.count, List.length_cons]
    push_cast
    rfl

theorem add_nil [DecidableEq A] (h : Holds list ([] : List (A × Int × α))) (key : Int) (value : α) :
    ∃ list', list.add key value a = some (list', [.returned 0]) ∧ Holds list' [(a, key, value)] := by
  have hheader : list.header = none := h.header_eq
  have hfound : list.findKey key = some false := h.findKey_eq key
  have hfresh : list.heap a = none := by
    rw [← Option.not_isSome_iff_eq_none]
    intro hsome
    exact absurd (h.owned a hsome) (by simp)
  refine ⟨_, by simp [HeapList.add, hfound, hheader]; rfl, ?_⟩
  apply h.front hfresh rfl
  · apply h.forward_front hfresh
    rw [nextOf_header _ list.header, nextOf_update]
    rfl
  · have hprev : prevOf (Function.update list.heap a (some { key := key, value := value, prev := none, next := none }))
        (some a) = some none := by rw [prevOf_update, Function.update_self]; rfl
    exact path_cons_cons.mpr ⟨hprev, path_singleton⟩
  · exact ⟨_, Function.update_self _ _ _, rfl, rfl⟩
  · simp
  · intro b hb
    by_cases hba : b = a
    · exact .inl hba
    · rw [Function.update_of_ne hba] at hb
      exact .inr hb

theorem add_cons [DecidableEq A] {entry : A × Int × α} (h : Holds list (entry :: entries)) (hfresh : list.heap a = none)
    (hkey : ((entry :: entries).find? fun entry => key = entry.2.1) = none) (value : α) :
    ∃ list', list.add key value a = some (list', [.returned 0]) ∧ Holds list' ((a, key, value) :: entry :: entries) := by
  have hheader : list.header = some entry.1 := h.header_eq
  have hfound : list.findKey key = some false := by rw [h.findKey_eq, hkey]; rfl
  obtain ⟨node, hnode, -⟩ := h.stored entry (by simp)
  have hne : entry.1 ≠ a := by
    intro heq
    rw [heq, hfresh] at hnode
    cases hnode
  let new : KeyListNode A α := { key := key, value := value, prev := none, next := some entry.1 }
  let heap' := Function.update (Function.update list.heap a (some new)) entry.1 (some { node with prev := some a })
  have hadd : list.add key value a =
      some ({ heap := heap', count := list.count + 1, header := some a }, [.returned 0]) := by
    simp [HeapList.add, hfound, hheader, store, Function.update_of_ne hne, hnode, heap', new]
  refine ⟨_, hadd, ?_⟩
  apply h.front hfresh hkey
  · apply h.forward_front hfresh
    have hsame : nextOf (Function.update list.heap a (some new)) list.header (some entry.1) = some node.next := by
      rw [nextOf, Function.update_of_ne hne, hnode]
      rfl
    rw [nextOf_header _ list.header, nextOf_update, Option.map_some, ← hsame, Function.update_eq_self, nextOf_update]
    rfl
  · apply h.backward_front hfresh
    rw [prevOf_update, prevOf_update]
    rfl
  · exact ⟨new, by simp [heap', Function.update_of_ne hne.symm], rfl, rfl⟩
  · intro entry' hmem
    have hstored := (h.stored entry' hmem).update_of_ne (a := a) (some new) ?_
    · have hheap : Function.update list.heap a (some new) entry.1 = some node := by
        rw [Function.update_of_ne hne, hnode]
      exact hstored.update hheap rfl rfl
    · intro heq
      exact h.not_mem_of_none hfresh (List.mem_map.mpr ⟨entry', hmem, heq⟩)
  · intro b hb
    by_cases hba : b = a
    · exact .inl hba
    · right
      by_cases hbe : b = entry.1
      · rw [hbe, hnode]
        rfl
      · simpa [heap', Function.update_of_ne hbe, Function.update_of_ne hba] using hb

theorem add_absent [DecidableEq A] (h : Holds list entries) (hfresh : list.heap a = none)
    (hkey : (entries.find? fun entry => key = entry.2.1) = none) (value : α) :
    ∃ list', list.add key value a = some (list', [.returned 0]) ∧ Holds list' ((a, key, value) :: entries) := by
  cases entries with
  | nil => exact h.add_nil key value
  | cons entry entries => exact h.add_cons hfresh hkey value

end Holds

def last (entries : List (A × Int × α)) : Option A := entries.getLast?.map Prod.fst

theorem addresses_start (entries : List (A × Int × α)) :
    ∃ init, none :: addresses entries = init ++ [last entries] := by
  rcases List.eq_nil_or_concat entries with rfl | ⟨init, entry, rfl⟩
  · exact ⟨[], rfl⟩
  · exact ⟨none :: addresses init, by simp [addresses, last]⟩

theorem addresses_cons (entry : A × Int × α) (entries : List (A × Int × α)) :
    addresses (entry :: entries) = some entry.1 :: addresses entries := rfl

theorem addresses_append (before after : List (A × Int × α)) :
    addresses (before ++ after) = addresses before ++ addresses after := List.map_append

/-- The list with a node in the middle, seen from the node. -/
structure Around (list : HeapList A α) (before after : List (A × Int × α)) (a : A)
    (init rest : List (Option A)) : Prop where
  start : none :: addresses before = init ++ [last before]
  stop : addresses after ++ [none] = first after :: rest
  forward : Path (nextOf list.heap list.header) (init ++ last before :: some a :: first after :: rest)
  backward : Path (prevOf list.heap) ((addresses after).reverse ++ some a :: last before :: init.reverse)
  fresh : a ∉ before.map Prod.fst ∧ a ∉ after.map Prod.fst
  apart : last before ∉ init
  cross : ∀ c ∈ before.map Prod.fst, c ∉ after.map Prod.fst
  once : (after.map Prod.fst).Nodup

theorem Holds.around (h : Holds list (before ++ (a, key, value) :: after)) :
    ∃ init rest, Around list before after a init rest := by
  obtain ⟨init, hinit⟩ := addresses_start before
  obtain ⟨rest, hrest⟩ := addresses_end after
  have hdistinct := h.distinct
  rw [List.map_append, List.map_cons, List.nodup_append, List.nodup_cons] at hdistinct
  obtain ⟨hbefore, ⟨hafter, honce⟩, hcross⟩ := hdistinct
  have hnodup : (init ++ [last before]).Nodup := by
    rw [← hinit, List.nodup_cons]
    refine ⟨none_not_mem_addresses, ?_⟩
    have hmap : addresses before = (before.map Prod.fst).map some := by simp [addresses]
    rw [hmap]
    exact hbefore.map fun _ _ => Option.some.inj
  refine ⟨init, rest, hinit, hrest, ?_, ?_, ⟨?_, hafter⟩, ?_, ?_, honce⟩
  · have hforward := h.forward
    rw [addresses_append, ← List.cons_append, hinit, addresses_cons] at hforward
    simpa [hrest] using hforward
  · have hbackward := h.backward
    rw [addresses_append, ← List.cons_append, hinit, addresses_cons] at hbackward
    simpa using hbackward
  · intro hmem
    exact hcross a hmem a (by simp) rfl
  · rw [List.nodup_append] at hnodup
    intro hmem
    exact hnodup.2.2 _ hmem _ (by simp) rfl
  · intro c hc hc'
    exact hcross c hc c (List.mem_cons_of_mem _ hc') rfl

/-- What assignments to the links of other nodes leave of a heap. -/
structure Relinked (a : A) (heap heap' : A → Option (KeyListNode A α)) : Prop where
  stored : ∀ entry, Stored heap entry → Stored heap' entry
  same : heap' a = heap a
  domain : ∀ b, (heap' b).isSome → (heap b).isSome

theorem relinked_refl (a : A) (heap : A → Option (KeyListNode A α)) : Relinked a heap heap :=
  ⟨fun _ h => h, rfl, fun _ h => h⟩

theorem Relinked.trans {heap' heap'' : A → Option (KeyListNode A α)} (h : Relinked a heap heap')
    (h' : Relinked a heap' heap'') : Relinked a heap heap'' :=
  ⟨fun entry hentry => h'.stored entry (h.stored entry hentry), h'.same.trans h.same,
    fun b hb => h.domain b (h'.domain b hb)⟩

theorem relinked_update [DecidableEq A] {p : A} {node node' : KeyListNode A α} (hnode : heap p = some node)
    (hkey : node'.key = node.key) (hvalue : node'.value = node.value) (hne : p ≠ a) :
    Relinked a heap (Function.update heap p (some node')) where
  stored := fun _ h => h.update hnode hkey hvalue
  same := Function.update_of_ne hne.symm _ _
  domain := by
    intro b hb
    by_cases hbp : b = p
    · rw [hbp, hnode]
      rfl
    · rwa [Function.update_of_ne hbp] at hb

variable {init rest : List (Option A)}

theorem Around.node (hr : Around list before after a init rest) (hstored : Stored list.heap (a, key, value)) :
    ∃ node, list.heap a = some node ∧ node.value = value ∧ node.next = first after ∧ node.prev = last before := by
  obtain ⟨node, hnode, -, hvalue⟩ := hstored
  have hnext : nextOf list.heap list.header (some a) = some (first after) := by
    have hpath := (path_append_cons.mp hr.forward).2
    rw [path_cons_cons, path_cons_cons] at hpath
    exact hpath.2.1
  have hprev : prevOf list.heap (some a) = some (last before) := by
    have hpath := (path_append_cons.mp hr.backward).2
    rw [path_cons_cons] at hpath
    exact hpath.1
  rw [nextOf, hnode] at hnext
  rw [prevOf, hnode] at hprev
  exact ⟨node, hnode, hvalue, Option.some.inj hnext, Option.some.inj hprev⟩

theorem Around.header_ne (hr : Around list before after a init rest) (hne : before ≠ []) : some a ≠ list.header := by
  obtain ⟨entry, entries, rfl⟩ := List.exists_cons_of_ne_nil hne
  have hpath := hr.forward
  rw [← List.singleton_append, ← List.append_assoc, ← hr.start, addresses_cons, List.cons_append, List.cons_append,
    path_cons_cons] at hpath
  have hheader : list.header = some entry.1 := Option.some.inj hpath.1
  rw [hheader]
  intro heq
  exact hr.fresh.1 (by simp [Option.some.inj heq])

theorem Around.unlinkNext [DecidableEq A] (hr : Around list before after a init rest)
    (h : ∀ entry ∈ before, Stored list.heap entry)
    {node : KeyListNode A α} (hnext : node.next = first after) (hprev : node.prev = last before) :
    ∃ heap' header', unlinkNext list a node = some (heap', header') ∧
      nextOf heap' header' = Function.update (nextOf list.heap list.header) (last before) (some (first after)) ∧
      prevOf heap' = prevOf list.heap ∧ Relinked a list.heap heap' := by
  rcases List.eq_nil_or_concat before with rfl | ⟨init', entry, rfl⟩
  · have hheader : list.header = some a := by
      obtain rfl : init = [] := by
        have hlength := congrArg List.length hr.start
        simpa [addresses] using hlength
      have hpath := hr.forward
      rw [List.nil_append, path_cons_cons] at hpath
      exact Option.some.inj hpath.1
    refine ⟨list.heap, node.next, by rw [HeapList.unlinkNext, if_pos hheader.symm], ?_, rfl, relinked_refl a _⟩
    rw [hnext]
    exact nextOf_header _ _ _
  · have hlast : last (init'.concat entry) = some entry.1 := by simp [last]
    obtain ⟨pnode, hpnode, -⟩ := h entry (by simp)
    have hne : entry.1 ≠ a := by
      rintro rfl
      exact hr.fresh.1 (by simp)
    have hsame : prevOf list.heap (some entry.1) = some pnode.prev := by rw [prevOf, hpnode]; rfl
    refine ⟨Function.update list.heap entry.1 (some { pnode with next := node.next }), list.header, ?_, ?_, ?_,
      relinked_update hpnode rfl rfl hne⟩
    · rw [HeapList.unlinkNext, if_neg (hr.header_ne (by simp)), hprev, hlast]
      simp [store, hpnode]
    · rw [nextOf_update, hlast, hnext]
      rfl
    · rw [prevOf_update, Option.map_some, ← hsame, Function.update_eq_self]

def relink [DecidableEq A] (f : Option A → Option (Option A)) (n p : Option A) : Option A → Option (Option A) :=
  if n.isSome then Function.update f n (some p) else f

theorem Around.unlinkPrev [DecidableEq A] (hr : Around list before after a init rest)
    (h : ∀ entry ∈ after, Stored heap entry)
    (header : Option A) {node : KeyListNode A α} (hnext : node.next = first after) (hprev : node.prev = last before) :
    ∃ heap', unlinkPrev heap node = some heap' ∧
      nextOf heap' header = nextOf heap header ∧
      prevOf heap' = relink (prevOf heap) (first after) (last before) ∧ Relinked a heap heap' := by
  rw [HeapList.unlinkPrev, hnext, hprev]
  cases after with
  | nil => exact ⟨heap, rfl, rfl, rfl, relinked_refl a _⟩
  | cons entry entries =>
      obtain ⟨nnode, hnnode, -⟩ := h entry (by simp)
      have hne : entry.1 ≠ a := by
        rintro rfl
        exact hr.fresh.2 (by simp)
      have hsame : nextOf heap header (some entry.1) = some nnode.next := by rw [nextOf, hnnode]; rfl
      refine ⟨Function.update heap entry.1 (some { nnode with prev := last before }), ?_, ?_, ?_,
        relinked_update hnnode rfl rfl hne⟩
      · simp [first, store, hnnode]
      · rw [nextOf_update, Option.map_some, ← hsame, Function.update_eq_self]
      · rw [prevOf_update]
        rfl

theorem Around.last_not_mem (hr : Around list before after a init rest) : last before ∉ addresses after := by
  rw [mem_addresses]
  rintro ⟨c, hc, heq⟩
  have hmem : some c ∈ none :: addresses before := by
    rw [hr.start, heq]
    simp
  have hmem' : some c ∈ addresses before := by simpa using hmem
  exact hr.cross c (some_mem_addresses.mp hmem') hc

/-- Without the node, the two paths are those of the list without it. -/
theorem Around.remove [DecidableEq A] (hr : Around list before after a init rest) :
    Path (Function.update (Function.update (nextOf list.heap list.header) (last before) (some (first after)))
        (some a) none) (none :: addresses (before ++ after) ++ [none]) ∧
      Path (Function.update (relink (prevOf list.heap) (first after) (last before)) (some a) none)
        (none :: addresses (before ++ after)).reverse := by
  have hnot : some a ∉ none :: addresses (before ++ after) := by
    rw [addresses_append, List.mem_cons, List.mem_append, some_mem_addresses, some_mem_addresses]
    simp [hr.fresh.1, hr.fresh.2]
  constructor
  · apply Path.update
    · have hlast : (first after :: rest).dropLast = addresses after := by rw [← hr.stop, List.dropLast_concat]
      have hpath := hr.forward.remove hr.apart (by rw [hlast]; exact hr.last_not_mem)
      rw [addresses_append, ← List.cons_append, hr.start]
      simpa [hr.stop] using hpath
    · rwa [List.dropLast_concat]
  · apply Path.update
    · rw [addresses_append, ← List.cons_append, hr.start, List.reverse_append, List.reverse_append]
      cases after with
      | nil => simpa [addresses, first, relink] using (path_append_cons.mp hr.backward).2.tail
      | cons entry entries =>
          have honce := hr.once
          rw [List.map_cons, List.nodup_cons] at honce
          have hpath := hr.backward
          rw [addresses_cons, List.reverse_cons, List.append_assoc] at hpath
          have hremoved := Path.remove hpath ?_ ?_
          · simpa [addresses_cons, first, relink] using hremoved
          · rw [List.mem_reverse, some_mem_addresses]
            exact honce.1
          · have hinit : (last before :: init.reverse) = (none :: addresses before).reverse := by
              rw [hr.start]
              simp
            rw [hinit, List.reverse_cons, List.dropLast_concat, List.mem_reverse, some_mem_addresses]
            intro hmem
            exact hr.cross _ hmem (by simp)
    · intro hmem
      exact hnot (List.mem_reverse.mp ((List.dropLast_sublist _).subset hmem))

namespace Holds

theorem remove [DecidableEq A] (h : Holds list (before ++ (a, key, value) :: after)) :
    ∃ list', removeNode list a = some (list', [.released value, .returned 0]) ∧ Holds list' (before ++ after) := by
  obtain ⟨init, rest, hr⟩ := h.around
  obtain ⟨node, hnode, hvalue, hnext, hprev⟩ := hr.node (h.stored (a, key, value) (by simp))
  obtain ⟨heap1, header1, hstep1, hnext1, hprev1, hrelinked1⟩ :=
    hr.unlinkNext (fun entry hmem => h.stored entry (by simp [hmem])) hnext hprev
  obtain ⟨heap2, hstep2, hnext2, hprev2, hrelinked2⟩ :=
    hr.unlinkPrev (fun entry hmem => hrelinked1.stored entry (h.stored entry (by simp [hmem]))) header1 hnext hprev
  have hrelinked := hrelinked1.trans hrelinked2
  obtain ⟨hforward, hbackward⟩ := hr.remove
  let list' : HeapList A α := { heap := Function.update heap2 a none, count := list.count - 1, header := header1 }
  have hremove : removeNode list a = some (list', [.released value, .returned 0]) := by
    simp only [removeNode, hnode, hstep1, hrelinked1.same, hstep2, hrelinked.same, hvalue, Option.bind_eq_bind,
      Option.bind_some]
    rfl
  refine ⟨_, hremove, ?_⟩
  have hkept : ∀ entry ∈ before ++ after, entry.1 ≠ a := by
    intro entry hmem heq
    rcases List.mem_append.mp hmem with hmem | hmem
    · exact hr.fresh.1 (List.mem_map.mpr ⟨entry, hmem, heq⟩)
    · exact hr.fresh.2 (List.mem_map.mpr ⟨entry, hmem, heq⟩)
  have hsublist : (before ++ after).Sublist (before ++ (a, key, value) :: after) :=
    (List.sublist_cons_self _ _).append_left before
  constructor
  · rw [nextOf_update, hnext2, hnext1]
    exact hforward
  · rw [prevOf_update, hprev2, hprev1]
    exact hbackward
  · intro entry hmem
    exact (hrelinked.stored entry (h.stored entry (hsublist.subset hmem))).update_of_ne none (hkept entry hmem)
  · intro b hb
    change (Function.update heap2 a none b).isSome at hb
    have hne : b ≠ a := by
      rintro rfl
      simp at hb
    rw [Function.update_of_ne hne] at hb
    simpa [hne] using h.owned b (hrelinked.domain b hb)
  · exact h.distinct.sublist (hsublist.map _)
  · exact h.keys.sublist (hsublist.map _)
  · change list.count - 1 = _
    rw [h.count]
    simp only [List.length_append, List.length_cons]
    omega

theorem edit [DecidableEq A] {old : α} (h : Holds list (before ++ (a, key, old) :: after)) (value : α) :
    ∃ heap', store list.heap a (fun node => { node with value := value }) = some heap' ∧
      Holds { list with heap := heap' } (before ++ (a, key, value) :: after) := by
  obtain ⟨init, rest, hr⟩ := h.around
  obtain ⟨node, hnode, hkey, -⟩ := h.stored (a, key, old) (by simp)
  have haddresses : addresses (before ++ (a, key, value) :: after) = addresses (before ++ (a, key, old) :: after) := by
    simp [addresses]
  have hmap : (before ++ (a, key, value) :: after).map Prod.fst = (before ++ (a, key, old) :: after).map Prod.fst := by
    simp
  have hnext : nextOf list.heap list.header (some a) = some node.next := by rw [nextOf, hnode]; rfl
  have hprev : prevOf list.heap (some a) = some node.prev := by rw [prevOf, hnode]; rfl
  refine ⟨Function.update list.heap a (some { node with value := value }), by simp [store, hnode], ?_⟩
  constructor
  · rw [haddresses, nextOf_update, Option.map_some, ← hnext, Function.update_eq_self]
    exact h.forward
  · rw [haddresses, prevOf_update, Option.map_some, ← hprev, Function.update_eq_self]
    exact h.backward
  · intro entry hmem
    rcases List.mem_append.mp hmem with hbefore | hafter
    · apply (h.stored entry (by simp [hbefore])).update_of_ne
      intro heq
      exact hr.fresh.1 (List.mem_map.mpr ⟨entry, hbefore, heq⟩)
    · rcases List.mem_cons.mp hafter with rfl | hafter
      · exact ⟨_, Function.update_self _ _ _, hkey, rfl⟩
      · apply (h.stored entry (by simp [hafter])).update_of_ne
        intro heq
        exact hr.fresh.2 (List.mem_map.mpr ⟨entry, hafter, heq⟩)
  · intro b hb
    rw [hmap]
    by_cases hba : b = a
    · simp [hba]
    · change (Function.update list.heap a _ b).isSome at hb
      rw [Function.update_of_ne hba] at hb
      exact h.owned b hb
  · rw [hmap]
    exact h.distinct
  · simpa using h.keys
  · simpa using h.count

end Holds

end HeapList

theorem holds_create {A α : Type} : (HeapList.create : HeapList A α).Holds [] where
  forward := by
    rw [HeapList.addresses, List.map_nil, List.singleton_append, path_cons_cons]
    exact ⟨rfl, path_singleton⟩
  backward := path_singleton
  stored := by simp
  owned := by simp [HeapList.create]
  distinct := List.nodup_nil
  keys := List.nodup_nil
  count := rfl

end Pc02.Tlv

import Mathlib.Data.Multiset.Basic
import Mathlib.Algebra.Order.Group.Multiset
import Pc02.Tlv.KeyListMap

/-!
# The values of a key list

A list is given values by `key_list_add` and `key_list_edit`, and passes them to its releaser in
`key_list_delete` and `key_list_destroy`. Each value is released once, but `key_list_edit` writes over the
value that was there, and that one is lost.
-/

namespace Pc02.Tlv

open Machines Pc02.Lib

variable {A α : Type} [DecidableEq A]

namespace HeapList

def destroyLoop : Nat → Option A → (A → Option (KeyListNode A α)) →
    Option ((A → Option (KeyListNode A α)) × List (ListEvent α))
  | 0, _, _ => none
  | _ + 1, none, heap => some (heap, [])
  | fuel + 1, some current, heap => do
      let node ← heap current
      let r ← destroyLoop fuel node.next (Function.update heap current none)
      some (r.1, .released node.value :: r.2)

def destroy (list : HeapList A α) : Option ((A → Option (KeyListNode A α)) × List (ListEvent α)) := do
  let r ← destroyLoop (list.count.toNat + 1) list.header list.heap
  some (r.1, r.2 ++ [.returned 0])

def values (entries : List (A × Int × α)) : List α := entries.map fun entry => entry.2.2

variable {list : HeapList A α} {heap : A → Option (KeyListNode A α)} {header : Option A}
  {entries before after : List (A × Int × α)} {a : A} {key : Int} {value : α}

omit [DecidableEq A] in
theorem values_middle : (values (before ++ (a, key, value) :: after) : Multiset α) =
    value ::ₘ (values (before ++ after) : Multiset α) := by
  rw [Multiset.cons_coe, Multiset.coe_eq_coe, values, values, List.map_append, List.map_cons, List.map_append]
  exact List.perm_middle

/-- The walk frees one node after the other, so it never comes back to one. The induction is on the nodes that
are left. -/
theorem destroyLoop_eq {fuel : Nat} (hpath : Path (nextOf heap header) (addresses entries ++ [none]))
    (hstored : ∀ entry ∈ entries, Stored heap entry) (hdistinct : (entries.map Prod.fst).Nodup)
    (hfuel : entries.length < fuel) :
    destroyLoop fuel (first entries) heap =
      some (fun b => if b ∈ entries.map Prod.fst then none else heap b, (values entries).map .released) := by
  induction entries generalizing heap fuel with
  | nil =>
      obtain ⟨fuel, rfl⟩ : ∃ k, fuel = k + 1 := ⟨fuel - 1, by simp at hfuel; omega⟩
      simp [first, destroyLoop, values]
  | cons entry entries ih =>
      obtain ⟨fuel, rfl⟩ : ∃ k, fuel = k + 1 := ⟨fuel - 1, by simp at hfuel; omega⟩
      obtain ⟨node, hnode, -, hnext⟩ := node_of_path hpath (hstored entry List.mem_cons_self)
      obtain ⟨node', hnode', -, hvalue⟩ := hstored entry List.mem_cons_self
      cases hnode.symm.trans hnode'
      rw [List.map_cons, List.nodup_cons] at hdistinct
      have hne : ∀ e ∈ entries, e.1 ≠ entry.1 := fun e he heq => hdistinct.1 (heq ▸ List.mem_map_of_mem he)
      have hpath' : Path (nextOf (Function.update heap entry.1 none) header) (addresses entries ++ [none]) := by
        have htail : Path (nextOf heap header) (addresses entries ++ [none]) := hpath.tail
        rw [nextOf_update]
        apply htail.update
        rw [List.dropLast_concat, some_mem_addresses]
        exact hdistinct.1
      have hrest := ih hpath' (fun e he => (hstored e (List.mem_cons_of_mem _ he)).update_of_ne none (hne e he))
        hdistinct.2 (by simpa using hfuel)
      change destroyLoop (fuel + 1) (some entry.1) heap = _
      simp only [destroyLoop, hnode, Option.bind_eq_bind, Option.bind_some, hnext, hrest, hvalue]
      congr 2
      funext b
      by_cases hb : b = entry.1
      · subst b
        simp
      · have hmem : b ∈ (entry :: entries).map Prod.fst ↔ b ∈ entries.map Prod.fst := by
          rw [List.map_cons, List.mem_cons, or_iff_right hb]
        simp only [hmem, Function.update_of_ne hb]

theorem Holds.destroy (h : list.Holds entries) :
    ∃ heap', list.destroy = some (heap', (values entries).map .released ++ [.returned 0]) ∧ ∀ b, heap' b = none := by
  have hfuel : entries.length < list.count.toNat + 1 := by
    rw [h.count]
    omega
  have hloop := destroyLoop_eq h.forward.tail h.stored h.distinct hfuel
  rw [HeapList.destroy, h.header_eq, hloop]
  refine ⟨_, rfl, ?_⟩
  intro b
  by_cases hb : b ∈ entries.map Prod.fst
  · exact if_pos hb
  · refine (if_neg hb).trans ?_
    by_contra hne
    exact hb (h.owned b (Option.isSome_iff_ne_none.mpr hne))

end HeapList

theorem returned_released (status : Int) : [ListEvent.returned status].filterMap ListEvent.released? = ([] : List α) := rfl

def keyListCalls (A α : Type) [DecidableEq A] : Machine (HeapList A α) (ListCall A α) (ListCall A α × List (ListEvent α)) where
  init := HeapList.create
  step list call := (call.run list).map fun r => (r.1, [(call, r.2)])

def succeeded : List (ListEvent α) → Bool
  | [.returned status] => status = 0
  | _ => false

def given : ListCall A α × List (ListEvent α) → Option α
  | (.add _ value _, events) => if succeeded events then some value else none
  | (.edit _ value, events) => if succeeded events then some value else none
  | _ => none

def overwrote : ListCall A α × List (ListEvent α) → Bool
  | (.edit _ _, events) => succeeded events
  | _ => false

def released (tr : List (ListCall A α × List (ListEvent α))) : List α :=
  (tr.flatMap Prod.snd).filterMap ListEvent.released?

/-- Of the values that the list was given, some were released, some are in the list and some are lost. -/
def Accounts (tr : List (ListCall A α × List (ListEvent α))) (list : HeapList A α) : Prop :=
  ∃ (entries : List (A × Int × α)) (lost : Multiset α), list.Holds entries ∧ lost.card = tr.countP overwrote ∧
    (tr.filterMap given : Multiset α) = (released tr : Multiset α) + (HeapList.values entries : Multiset α) + lost

namespace Accounts

open HeapList

variable {tr : List (ListCall A α × List (ListEvent α))} {list list' : HeapList A α}
  {entries entries' : List (A × Int × α)} {lost : Multiset α} {call : ListCall A α} {events : List (ListEvent α)}

omit [DecidableEq A] in
theorem add_call (lost' : Multiset α) (hholds : list'.Holds entries')
    (hcard : lost.card = tr.countP overwrote)
    (hsum : (tr.filterMap given : Multiset α) = (released tr : Multiset α) + (values entries : Multiset α) + lost)
    (hlost : lost'.card = if overwrote (call, events) then 1 else 0)
    (hnew : (given (call, events)).elim 0 singleton + (values entries : Multiset α) =
      (events.filterMap ListEvent.released? : Multiset α) + (values entries' : Multiset α) + lost') :
    Accounts (tr ++ [(call, events)]) list' := by
  refine ⟨entries', lost + lost', hholds, ?_, ?_⟩
  · rw [Multiset.card_add, hcard, hlost, List.countP_append]
    simp [List.countP_cons]
  · have hgiven : ((tr ++ [(call, events)]).filterMap given : Multiset α) =
        (tr.filterMap given : Multiset α) + (given (call, events)).elim 0 singleton := by
      rw [List.filterMap_append, ← Multiset.coe_add]
      cases hcall : given (call, events) <;> simp [hcall]
    have hreleased : (released (tr ++ [(call, events)]) : Multiset α) =
        (released tr : Multiset α) + (events.filterMap ListEvent.released? : Multiset α) := by
      simp [released]
    rw [hgiven, hreleased, hsum]
    calc (released tr : Multiset α) + (values entries : Multiset α) + lost + (given (call, events)).elim 0 singleton
        = (released tr : Multiset α) + ((given (call, events)).elim 0 singleton + (values entries : Multiset α)) + lost := by
          ac_rfl
      _ = _ := by
          rw [hnew]
          ac_rfl

omit [DecidableEq A] in
theorem idle (h : Accounts tr list) (hgiven : given (call, events) = none) (hover : overwrote (call, events) = false)
    (hreleased : events.filterMap ListEvent.released? = []) : Accounts (tr ++ [(call, events)]) list := by
  obtain ⟨entries, lost, hholds, hcard, hsum⟩ := h
  apply add_call 0 hholds hcard hsum
  · simp [hover]
  · simp [hgiven, hreleased]

theorem add (h : Accounts tr list) {key : Int} {value : α} {node : A} (hfresh : list.heap node = none) :
    ∃ list' events, list.add key value node = some (list', events) ∧
      Accounts (tr ++ [(.add key value node, events)]) list' := by
  obtain ⟨entries, lost, hholds, hcard, hsum⟩ := h
  cases hkey : lookup entries key with
  | none =>
      obtain ⟨list', hadd, hholds'⟩ := hholds.add_absent hfresh (find_eq_none hkey) value
      refine ⟨list', _, hadd, add_call 0 hholds' hcard hsum rfl ?_⟩
      simp [given, succeeded, returned_released, values]
  | some old =>
      have hfound : list.findKey key = some true := by
        obtain ⟨entry, hentry, -⟩ := Option.map_eq_some_iff.mp hkey
        rw [hholds.findKey_eq, hentry]
        rfl
      refine ⟨list, [.returned (-1)], by simp [HeapList.add, hfound], ?_⟩
      apply idle ⟨entries, lost, hholds, hcard, hsum⟩
      · simp [given, succeeded]
      · rfl
      · rfl

theorem edit (h : Accounts tr list) (key : Int) (value : α) :
    ∃ list' events, list.edit key value = some (list', events) ∧ Accounts (tr ++ [(.edit key value, events)]) list' := by
  obtain ⟨entries, lost, hholds, hcard, hsum⟩ := h
  cases hkey : lookup entries key with
  | none =>
      refine ⟨list, [.returned (-1)], by simp [HeapList.edit, hholds.getNode_absent hkey], ?_⟩
      apply idle ⟨entries, lost, hholds, hcard, hsum⟩
      · simp [given, succeeded]
      · simp [overwrote, succeeded]
      · rfl
  | some old =>
      obtain ⟨before, a, old, after, rfl, -, hfind⟩ := exists_split (Option.isSome_of_eq_some hkey)
      obtain ⟨heap', hstore, hholds'⟩ := hholds.edit value
      have hnode : list.getNode key = some (some a) := by
        rw [hholds.getNode_eq, hfind]
        rfl
      refine ⟨{ list with heap := heap' }, [.returned 0], by simp [HeapList.edit, hnode, hstore], ?_⟩
      -- the value that was there is in the list no more, and nobody has it
      apply add_call {old} hholds' hcard hsum
      · simp [overwrote, succeeded]
      · rw [values_middle, values_middle]
        simp only [given, succeeded, returned_released, ← Multiset.singleton_add]
        simp only [decide_true, if_true, Option.elim_some, Multiset.coe_nil, zero_add]
        ac_rfl

theorem delete (h : Accounts tr list) (key : Int) :
    ∃ list' events, list.delete key = some (list', events) ∧ Accounts (tr ++ [(.delete key, events)]) list' := by
  obtain ⟨entries, lost, hholds, hcard, hsum⟩ := h
  cases hkey : lookup entries key with
  | none =>
      refine ⟨list, [.returned (-1)], by simp [HeapList.delete, hholds.getNode_absent hkey], ?_⟩
      exact idle ⟨entries, lost, hholds, hcard, hsum⟩ rfl rfl rfl
  | some value =>
      obtain ⟨before, a, value', after, rfl, -, hfind⟩ := exists_split (Option.isSome_of_eq_some hkey)
      obtain ⟨list', hremove, hholds'⟩ := hholds.remove
      have hnode : list.getNode key = some (some a) := by
        rw [hholds.getNode_eq, hfind]
        rfl
      refine ⟨list', [.released value', .returned 0], ?_, add_call 0 hholds' hcard hsum rfl ?_⟩
      · simp only [HeapList.delete, hnode, Option.bind_eq_bind, Option.bind_some, hremove]
      · have hevents : [ListEvent.released value', .returned 0].filterMap ListEvent.released? = [value'] := rfl
        rw [values_middle, hevents]
        simp [given]

theorem look (h : Accounts tr list) (hgiven : ∀ events, given (call, events) = none)
    (hover : ∀ events, overwrote (call, events) = false) (hfresh : call.Fresh list)
    (hstep : ∀ m : FiniteMap α, m.step call = m)
    (hsame : ∀ map list' events, Answers list map call list' events → list' = list) :
    ∃ list' events, call.run list = some (list', events) ∧ Accounts (tr ++ [(call, events)]) list' := by
  obtain ⟨entries, lost, hholds, hcard, hsum⟩ := h
  obtain ⟨list', events, hrun, hok⟩ := hholds.call_ok (m := ⟨lookup entries, []⟩) rfl hfresh
  have hreleased := hok.releases
  rw [hstep, List.nil_append] at hreleased
  obtain rfl := hsame _ _ _ hok.answers
  exact ⟨_, events, hrun, idle ⟨entries, lost, hholds, hcard, hsum⟩ (hgiven events) (hover events) hreleased.symm⟩

theorem next (h : Accounts tr list) (call : ListCall A α) (hfresh : call.Fresh list) :
    ∃ list' events, call.run list = some (list', events) ∧ Accounts (tr ++ [(call, events)]) list' := by
  cases call with
  | add key value node => exact h.add hfresh
  | edit key value => exact h.edit key value
  | delete key => exact h.delete key
  | get key => exact h.look (fun _ => rfl) (fun _ => rfl) hfresh (fun _ => rfl) fun _ _ _ hanswer => hanswer.1
  | findKey key => exact h.look (fun _ => rfl) (fun _ => rfl) hfresh (fun _ => rfl) fun _ _ _ hanswer => hanswer.1
  | keyset arraySize => exact h.look (fun _ => rfl) (fun _ => rfl) hfresh (fun _ => rfl) fun _ _ _ hanswer => hanswer.1

end Accounts

/-- After any calls, `key_list_destroy` frees every node. Of the values that the list was given, each is then
released once, but for one that is lost in each `key_list_edit` that succeeds. -/
theorem values_released_once {tr : List (ListCall A α × List (ListEvent α))} {list : HeapList A α}
    (h : Steps (keyListCalls A α) (fun list call => call.Fresh list) (keyListCalls A α).init tr list) :
    ∃ heap' events, list.destroy = some (heap', events) ∧ (∀ a, heap' a = none) ∧
      ∃ lost : Multiset α, lost.card = tr.countP overwrote ∧ (tr.filterMap given : Multiset α) =
        (released tr : Multiset α) + (events.filterMap ListEvent.released? : Multiset α) + lost := by
  have haccounts : Accounts tr list := by
    apply h.trace_invariant (I := Accounts)
    · exact ⟨[], 0, holds_create, rfl, by simp [released, HeapList.values]⟩
    · intro tr list call list' ev hI hfresh hstep
      obtain ⟨list'', events, hrun, hnext⟩ := hI.next call hfresh
      simp only [keyListCalls, hrun, Option.map_some, Option.some.injEq, Prod.mk.injEq] at hstep
      obtain ⟨rfl, rfl⟩ := hstep
      exact hnext
  obtain ⟨entries, lost, hholds, hcard, hsum⟩ := haccounts
  obtain ⟨heap', hdestroy, hempty⟩ := hholds.destroy
  refine ⟨heap', _, hdestroy, hempty, lost, hcard, ?_⟩
  have hevents : ((HeapList.values entries).map ListEvent.released ++ [ListEvent.returned 0]).filterMap
      ListEvent.released? = HeapList.values entries := by
    rw [List.filterMap_append, List.filterMap_map, returned_released, List.append_nil]
    exact List.filterMap_some
  rw [hevents, hsum]

/-- Of 10, 11, 20, 30 and 50, the list releases 20, 30 and 11, `key_list_destroy` releases 50, and 10 is lost. -/
theorem values_released_once_deletions : ∃ tr list, Steps (keyListCalls Nat Nat) (fun list call => call.Fresh list)
    (keyListCalls Nat Nat).init tr list ∧ tr.filterMap given = [10, 20, 30, 11, 50] ∧ released tr = [20, 30, 11] ∧
    ∃ heap' events, list.destroy = some (heap', events) ∧ (∀ a, heap' a = none) ∧
      ∃ lost : Multiset Nat, lost.card = 1 ∧
        ([10, 20, 30, 11, 50] : Multiset Nat) = ([20, 30, 11] : Multiset Nat) +
          (events.filterMap ListEvent.released? : Multiset Nat) + lost := by
  obtain ⟨list, tr, hsteps, htest⟩ := exists_steps_of_exec (m := keyListCalls Nat Nat)
    (s := (keyListCalls Nat Nat).init) deletions
    (p := fun r => decide (r.2.filterMap given = [10, 20, 30, 11, 50] ∧ released r.2 = [20, 30, 11] ∧
      r.2.countP overwrote = 1))
    (show ((keyListCalls Nat Nat).exec (fun list call => call.Fresh list) _ _).any _ = true by decide +kernel)
  obtain ⟨hgiven, hreleased, hcount⟩ := of_decide_eq_true htest
  obtain ⟨heap', events, hdestroy, hempty, lost, hcard, hsum⟩ := values_released_once hsteps
  rw [hgiven, hreleased] at hsum
  exact ⟨tr, list, hsteps, hgiven, hreleased, heap', events, hdestroy, hempty, lost, hcard.trans hcount, hsum⟩

end Pc02.Tlv

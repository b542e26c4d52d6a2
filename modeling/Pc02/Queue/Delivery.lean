import Mathlib.Order.OrderDual
import Mathlib.Tactic.Linarith
import Pc02.Lib.Machine
import Pc02.Lib.SortedQueue

/-!
# Message queues

Any number of clients send to one queue and receive from it. Of the queue of the kernel only this is
used: it holds a bounded number of messages, the one of the highest priority and among these the
oldest is taken, and a call that fails leaves it alone. A blocking receive reports every message that
it takes. A timed receive takes the length for the status, and reports an empty message as a timeout.
-/

namespace Pc02.Queue

open Machines

def osalEok : Int := 0
def osalStatusSuccess : Int := 0
def osalStatusTimeout : Int := -2
def osalStatusEmpty : Int := -5
def osalStatusErrorUndefined : Int := -1

structure Message where
  priority : BitVec 32
  data : List UInt8
deriving DecidableEq

/-- The attributes of a queue. `mq_msgsize` is a `long`, and `mq_open` refuses one that is not positive. -/
structure Attr where
  maxMsgs : Nat
  msgSize : Nat
  msgSize_lt : msgSize < 2 ^ 31

inductive Outcome
  | done
  | error
  /-- The error `EINTR`. -/
  | interrupted
deriving DecidableEq

/-- What the receiving functions of the kernel return for a message, as an `int`. -/
def received (m : Message) : Int := (BitVec.ofNat 32 m.data.length).toInt

/-- `os_queue_recv` after `mq_receive`: the status, and what is stored to `*size_copied`. -/
def osQueueRecv (len : Int) : Int × Option Int := if len < 0 then (-1, none) else (0, some len)

/-- `os_mq_timedrecv` after the last `mq_timedreceive`. -/
def osMqTimedrecv (ret : Int) : Int := if ret < 0 then -1 else ret

def osalQueueRecv (timeout ret : Int) : Int × Option Int :=
  if -1 = timeout then
    let (ret, len) := osQueueRecv ret
    (if ret = osalEok then osalStatusSuccess else osalStatusErrorUndefined, len)
  else
    let ret := osMqTimedrecv ret
    if ret > 0 then (osalStatusSuccess, some ret) else (osalStatusTimeout, none)

def osQueueSend (ret : Int) : Int := ret

def osMqTimedsend (ret : Int) : Int := if ret < 0 then -1 else ret

def osalQueueSend (timeout ret : Int) : Int :=
  let ret := if -1 = timeout then osQueueSend ret else osMqTimedsend ret
  if ret = osalEok then osalStatusSuccess else osalStatusTimeout

/-- The calls of a client. A message or buffer may be NULL, `len` is the address of a variable. -/
inductive Call
  | send (data : Option (List UInt8)) (priority : BitVec 32) (timeout : Int)
  | recv (data : Bool) (timeout : Int)

/-- Where a client is: in the call of the kernel that it makes for a call of its own. -/
inductive Pc
  | idle
  | send (m : Message) (timeout : Int)
  | recv (timeout : Int)

structure State where
  store : List Message
  client : Nat → Pc

inductive Action
  | call (c : Nat) (call : Call)
  | kernel (c : Nat) (outcome : Outcome)

/-- A call returns. Of a receive it is reported what it took from the queue, its status, what it stored to
`*len`, and the bytes in the buffer. -/
inductive Event
  | sent (m : Message) (status : Int)
  | refused (status : Int)
  | received (timeout : Int) (taken : Option Message) (status : Int) (len : Option Int) (data : Option (List UInt8))
deriving DecidableEq

def Event.recv (timeout : Int) (taken : Option Message) (ret : Int) : Event :=
  .received timeout taken (osalQueueRecv timeout ret).1 (osalQueueRecv timeout ret).2 (taken.map Message.data)

def order (m : Message) : Natᵒᵈ := OrderDual.toDual m.priority.toNat

def State.goto (s : State) (c : Nat) (pc : Pc) : State := { s with client := Function.update s.client c pc }

def step (q : Attr) (s : State) : Action → Option (State × List Event)
  | .call c call =>
      match s.client c, call with
      | .idle, .send none _ _ => some (s, [.refused osalStatusEmpty])
      | .idle, .send (some data) priority timeout => some (s.goto c (.send ⟨priority, data⟩ timeout), [])
      | .idle, .recv false timeout => some (s, [.recv timeout none (-1)])
      | .idle, .recv true timeout => some (s.goto c (.recv timeout), [])
      | _, _ => none
  | .kernel c outcome =>
      match s.client c, outcome with
      | .idle, _ => none
      | .send m timeout, .done =>
          if m.data.length ≤ q.msgSize ∧ s.store.length < q.maxMsgs then
            some ({ s.goto c .idle with store := SortedQueue.insert order m s.store },
              [.sent m (osalQueueSend timeout 0)])
          else none
      | .send m timeout, _ => some (s.goto c .idle, [.sent m (osalQueueSend timeout (-1))])
      | .recv timeout, .done =>
          match s.store with
          | [] => none
          | m :: rest =>
              some ({ s.goto c .idle with store := rest }, [.recv timeout (some m) (received m)])
      | .recv timeout, .error => some (s.goto c .idle, [.recv timeout none (-1)])
      | .recv timeout, .interrupted =>
          -- the timed receive tries again, the blocking one does not
          if -1 = timeout then some (s.goto c .idle, [.recv timeout none (-1)]) else some (s, [])

def machine (q : Attr) : Machine State Action Event where
  init := { store := [], client := fun _ => .idle }
  step := step q

variable {q : Attr} {s s' : State} {a : Action} {tr ev : List Event} {m : Message} {timeout : Int}

def Event.TimedEmpty : Event → Prop
  | .received timeout (some m) _ _ _ => timeout ≠ -1 ∧ m.data = []
  | _ => False

def Event.Reports : Event → Prop
  | .received _ (some m) status len data =>
      status = osalStatusSuccess ∧ len = some (m.data.length : Int) ∧ data = some m.data
  | _ => True

theorem received_eq (hlt : m.data.length < 2 ^ 31) : received m = m.data.length := by
  rw [received, BitVec.toInt_eq_toNat_of_lt]
  · rw [BitVec.toNat_ofNat]
    omega
  · rw [BitVec.toNat_ofNat]
    omega

/-- A receive reports the message that it takes unless it is timed and the message is empty. -/
theorem recv_reports_iff (timeout : Int) (hlt : m.data.length < 2 ^ 31) :
    (Event.recv timeout (some m) (received m)).Reports ↔
      ¬ (Event.recv timeout (some m) (received m)).TimedEmpty := by
  have hlen := received_eq hlt
  simp only [Event.recv, Event.Reports, Event.TimedEmpty, Option.map_some, and_true, osalQueueRecv, hlen]
  by_cases hblock : timeout = -1
  · have hnonneg : ¬ (m.data.length : Int) < 0 := by omega
    simp [hblock, osQueueRecv, hnonneg, osalEok, osalStatusSuccess]
  · have hnonneg : ¬ (m.data.length : Int) < 0 := by omega
    rw [if_neg (Ne.symm hblock), osMqTimedrecv, if_neg hnonneg]
    cases hdata : m.data with
    | nil => simp [hblock, osalStatusSuccess, osalStatusTimeout]
    | cons b bytes =>
        simp

def Event.accepted? : Event → Option Message
  | .sent m status => if status = osalStatusSuccess then some m else none
  | _ => none

def Event.taken? : Event → Option Message
  | .received _ taken _ _ _ => taken
  | _ => none

def Event.delivered? : Event → Option Message
  | .received _ taken status _ _ => if status = osalStatusSuccess then taken else none
  | _ => none

/-- What a step does to the queue: nothing, or it puts a message in that a sender is told of, or it takes
the first message out. -/
inductive Moved (q : Attr) : List Message → List Event → List Message → Prop
  | quiet {store : List Message} {ev : List Event} (h : ∀ e ∈ ev, e.accepted? = none ∧ e.taken? = none) :
      Moved q store ev store
  | put {store : List Message} {m : Message} (h : m.data.length ≤ q.msgSize) :
      Moved q store [.sent m osalStatusSuccess] (SortedQueue.insert order m store)
  | take {store : List Message} {m : Message} (timeout : Int) :
      Moved q (m :: store) [.recv timeout (some m) (received m)] store

theorem osalQueueSend_zero (timeout : Int) : osalQueueSend timeout 0 = osalStatusSuccess := by
  simp [osalQueueSend, osQueueSend, osMqTimedsend, osalEok]

theorem osalQueueSend_error (timeout : Int) : osalQueueSend timeout (-1) = osalStatusTimeout := by
  simp [osalQueueSend, osQueueSend, osMqTimedsend, osalEok]

theorem moved_failed_send (store : List Message) (m : Message) (timeout : Int) :
    Moved q store [.sent m (osalQueueSend timeout (-1))] store := by
  apply Moved.quiet
  simp [osalQueueSend_error, Event.accepted?, Event.taken?, osalStatusTimeout, osalStatusSuccess]

theorem moved_failed_recv (store : List Message) (timeout : Int) :
    Moved q store [.recv timeout none (-1)] store := by
  apply Moved.quiet
  simp [Event.recv, Event.accepted?, Event.taken?]

theorem step_moved (h : step q s a = some (s', ev)) : Moved q s.store ev s'.store := by
  cases a with
  | call c call =>
      simp only [step] at h
      split at h
      · cases h
        exact .quiet (by simp [Event.accepted?, Event.taken?])
      · cases h
        exact .quiet (by simp)
      · cases h
        exact moved_failed_recv _ _
      · cases h
        exact .quiet (by simp)
      · cases h
  | kernel c outcome =>
      simp only [step] at h
      split at h
      · cases h
      · split at h
        · rename_i hfits
          cases h
          rw [osalQueueSend_zero]
          exact .put hfits.1
        · cases h
      · cases h
        exact moved_failed_send _ _ _
      · split at h
        · cases h
        · rename_i hstore
          cases h
          rw [hstore]
          exact .take _
      · cases h
        exact moved_failed_recv _ _
      · split at h
        · cases h
          exact moved_failed_recv _ _
        · cases h
          exact .quiet (by simp)

/-- What holds along a run: the messages in the queue have a length that an `int` holds, and as long as
every message taken is reported, what was accepted is reported or still there. -/
structure Kept (q : Attr) (tr : List Event) (s : State) : Prop where
  small : ∀ m ∈ s.store, m.data.length ≤ q.msgSize
  reports : ∀ e ∈ tr, e.Reports ↔ ¬ e.TimedEmpty
  conserved : (∀ e ∈ tr, e.Reports) →
    (tr.filterMap Event.accepted?).Perm (tr.filterMap Event.delivered? ++ s.store)

theorem Event.reports_of_taken {e : Event} (h : e.taken? = none) : e.Reports ∧ ¬ e.TimedEmpty := by
  cases e with
  | sent | refused => exact ⟨trivial, id⟩
  | received timeout taken =>
      rw [Event.taken?] at h
      rw [h]
      exact ⟨trivial, id⟩

theorem Event.delivered_of_taken {e : Event} (h : e.taken? = none) : e.delivered? = none := by
  cases e with
  | sent | refused => rfl
  | received timeout taken =>
      rw [Event.taken?] at h
      simp [Event.delivered?, h]

theorem filterMap_eq_nil {f : Event → Option Message} (h : ∀ e ∈ ev, f e = none) : ev.filterMap f = [] :=
  List.filterMap_eq_nil_iff.mpr h

theorem Kept.moved (h : Kept q tr s) (hmoved : Moved q s.store ev s'.store) : Kept q (tr ++ ev) s' := by
  obtain ⟨hsmall, hreports, hconserved⟩ := h
  generalize hs : s.store = store at *
  generalize hs' : s'.store = store' at *
  cases hmoved with
  | quiet hquiet =>
      have haccepted : ev.filterMap Event.accepted? = [] := filterMap_eq_nil fun e he => (hquiet e he).1
      have hdelivered : ev.filterMap Event.delivered? = [] :=
        filterMap_eq_nil fun e he => Event.delivered_of_taken (hquiet e he).2
      constructor
      · rw [hs']
        exact hsmall
      · rw [List.forall_mem_append]
        constructor
        · exact hreports
        · intro e he
          have hnone := Event.reports_of_taken (hquiet e he).2
          exact iff_of_true hnone.1 hnone.2
      · intro hall
        rw [List.filterMap_append, List.filterMap_append, haccepted, hdelivered, hs', List.append_nil,
          List.append_nil]
        exact hconserved fun e he => hall e (List.mem_append_left _ he)
  | put hle =>
      rename_i m
      constructor
      · rw [hs']
        intro m' hm'
        rcases SortedQueue.mem_insert.mp hm' with rfl | hm'
        · exact hle
        · exact hsmall m' hm'
      · rw [List.forall_mem_append]
        constructor
        · exact hreports
        · rw [List.forall_mem_singleton]
          exact iff_of_true trivial id
      · intro hall
        have hold := hconserved fun e he => hall e (List.mem_append_left _ he)
        have haccepted : [Event.sent m osalStatusSuccess].filterMap Event.accepted? = [m] := rfl
        have hdelivered : [Event.sent m osalStatusSuccess].filterMap Event.delivered? = [] := rfl
        rw [List.filterMap_append, List.filterMap_append, haccepted, hdelivered, hs', List.append_nil]
        calc tr.filterMap Event.accepted? ++ [m]
            |>.Perm (tr.filterMap Event.delivered? ++ store ++ [m]) := hold.append_right [m]
          _ |>.Perm (tr.filterMap Event.delivered? ++ SortedQueue.insert order m store) := by
            rw [List.append_assoc]
            exact (List.perm_append_singleton m store |>.trans SortedQueue.insert_perm.symm).append_left _
  | take timeout =>
      rename_i m
      have hlt : m.data.length < 2 ^ 31 := (hsmall m (by simp)).trans_lt q.msgSize_lt
      have hiff := recv_reports_iff timeout hlt
      constructor
      · rw [hs']
        exact fun m' hm' => hsmall m' (List.mem_cons_of_mem _ hm')
      · rw [List.forall_mem_append]
        constructor
        · exact hreports
        · rw [List.forall_mem_singleton]
          exact hiff
      · intro hall
        have hold := hconserved fun e he => hall e (List.mem_append_left _ he)
        have hlast : (Event.recv timeout (some m) (received m)).Reports := hall _ (by simp)
        have haccepted : [Event.recv timeout (some m) (received m)].filterMap Event.accepted? = [] := rfl
        have hdelivered : [Event.recv timeout (some m) (received m)].filterMap Event.delivered? = [m] := by
          have hstatus := hlast.1
          simp [Event.recv, Event.delivered?, hstatus]
        rw [List.filterMap_append, List.filterMap_append, haccepted, hdelivered, hs', List.append_nil,
          List.append_assoc]
        exact hold

theorem kept_run (h : Steps (machine q) (fun _ _ => True) (machine q).init tr s) : Kept q tr s := by
  apply h.trace_invariant
  · exact ⟨by simp [machine], by simp, fun _ => by simp [machine]⟩
  · intro tr s a s' ev hkept _ hstep
    exact hkept.moved (step_moved hstep)

/-- Every message that is taken is reported, alike by all receives, and so no message that was accepted is
lost. -/
structure Delivered (tr : List Event) (s : State) : Prop where
  reported : ∀ timeout m status len data, .received timeout (some m) status len data ∈ tr →
    status = osalStatusSuccess ∧ len = some (m.data.length : Int) ∧ data = some m.data
  alike : ∀ timeout timeout' m status status' len len' data data',
    .received timeout (some m) status len data ∈ tr → .received timeout' (some m) status' len' data' ∈ tr →
      status = status' ∧ len = len' ∧ data = data'
  conserved : (tr.filterMap Event.accepted?).Perm (tr.filterMap Event.delivered? ++ s.store)

/-- In a run every message is delivered exactly if no timed receive takes an empty one. -/
theorem delivered_iff (q : Attr) (tr : List Event) (s : State)
    (h : Steps (machine q) (fun _ _ => True) (machine q).init tr s) :
    Delivered tr s ↔ ∀ timeout m status len data, .received timeout (some m) status len data ∈ tr →
      timeout ≠ -1 → m.data ≠ [] := by
  have hkept := kept_run h
  constructor
  · intro hdel timeout m status len data he htimed hempty
    exact (hkept.reports _ he).mp (hdel.reported timeout m status len data he) ⟨htimed, hempty⟩
  · intro hnone
    have hall : ∀ e ∈ tr, e.Reports := by
      intro e he
      rw [hkept.reports e he]
      intro hbad
      match e, hbad with
      | .received timeout (some m) status len data, hbad => exact hnone timeout m status len data he hbad.1 hbad.2
    refine ⟨fun timeout m status len data he => hall _ he, ?_, hkept.conserved hall⟩
    intro timeout timeout' m status status' len len' data data' he he'
    have hfirst : status = _ ∧ len = _ ∧ data = _ := hall _ he
    have hsecond : status' = _ ∧ len' = _ ∧ data' = _ := hall _ he'
    exact ⟨hfirst.1.trans hsecond.1.symm, hfirst.2.1.trans hsecond.2.1.symm, hfirst.2.2.trans hsecond.2.2.symm⟩

def small : Attr := { maxMsgs := 2, msgSize := 16, msgSize_lt := by decide }

/-- An empty message is taken by a blocking receive, and then one of a byte by a timed receive. -/
theorem delivered_blocking_and_timed : ∃ tr s, Steps (machine small) (fun _ _ => True) (machine small).init tr s ∧
    tr.length = 4 ∧ Delivered tr s := by
  have hrun : ((machine small).exec (fun _ _ => True) (machine small).init
      [.call 0 (.send (some []) 7 (-1)), .call 1 (.send (some [5]) 0 100), .kernel 1 .done, .kernel 0 .done,
        .call 2 (.recv true (-1)), .kernel 2 .done, .call 2 (.recv true 100), .kernel 2 .interrupted,
        .kernel 2 .done]).any (fun r => r.2 =
          [.sent ⟨0, [5]⟩ 0, .sent ⟨7, []⟩ 0, .received (-1) (some ⟨7, []⟩) 0 (some 0) (some []),
            .received 100 (some ⟨0, [5]⟩) 0 (some 1) (some [5])]) = true := by decide +kernel
  obtain ⟨s, tr, hsteps, htr⟩ := exists_steps_of_exec _ hrun
  simp only [decide_eq_true_eq] at htr
  refine ⟨tr, s, hsteps, by rw [htr]; rfl, (delivered_iff small tr s hsteps).mpr ?_⟩
  intro timeout m status len data he htimed
  rw [htr] at he
  simp only [List.mem_cons, List.not_mem_nil, or_false, reduceCtorEq, false_or, Event.received.injEq,
    Option.some.injEq] at he
  rcases he with ⟨rfl, -⟩ | ⟨-, rfl, -⟩
  · exact absurd rfl htimed
  · simp

/-- A timed receive takes an empty message that was sent with success, and reports a timeout. -/
theorem timed_receive_loses_empty : ∃ tr s, Steps (machine small) (fun _ _ => True) (machine small).init tr s ∧
    .sent ⟨0, []⟩ osalStatusSuccess ∈ tr ∧ s.store = [] ∧ ¬ Delivered tr s := by
  have hrun : ((machine small).exec (fun _ _ => True) (machine small).init
      [.call 0 (.send (some []) 0 (-1)), .kernel 0 .done, .call 1 (.recv true 100), .kernel 1 .done]).any
        (fun r => r.2 = [.sent ⟨0, []⟩ 0, .received 100 (some ⟨0, []⟩) (-2) none (some [])] ∧ r.1.store = []) =
          true := by decide +kernel
  obtain ⟨s, tr, hsteps, htr⟩ := exists_steps_of_exec _ hrun
  simp only [Bool.decide_and, Bool.and_eq_true, decide_eq_true_eq] at htr
  refine ⟨tr, s, hsteps, by rw [htr.1]; simp [osalStatusSuccess], htr.2, ?_⟩
  intro h
  have hstatus := (h.reported 100 ⟨0, []⟩ (-2) none (some []) (by rw [htr.1]; simp)).1
  exact absurd hstatus (by decide)

end Pc02.Queue

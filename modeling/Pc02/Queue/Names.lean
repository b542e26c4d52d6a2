import Pc02.Lib.Ownership
import Pc02.Queue.Delivery

/-!
# Named queues

All the queues of the system. `osal_queue_create` opens the queue of a name, and makes it if there is none;
`osal_queue_delete` closes the descriptor and never unlinks the name. So a queue outlives its handles, with
its messages and with the attributes of the call that made it. Of the name only the first thirty bytes count.
Each call is one step here: it reads its handle, and takes effect where the kernel does.
-/

namespace Pc02.Queue.Named

open Function Machines Pc02.Lib

def mqNameLen : Nat := 32

/-- `snprintf (mq_name, MQ_NAME_LEN, "/%s", queue_name)`, without the NUL at the end. -/
def mqName (queueName : List UInt8) : List UInt8 := (47 :: queueName).take (mqNameLen - 1)

structure Mq where
  maxMsgs : Nat
  msgSize : Nat
  store : List Message
deriving DecidableEq

/-- `osal_queue_t`. The field `queueName` is no part of the source: it is the name the handle was created with. -/
structure Handle where
  mqDes : Nat
  msgSize : BitVec 32
  queueName : List UInt8
deriving DecidableEq

/-- The queues by name, the open descriptors with the queue of each, and the blocks of the handles. -/
structure World where
  queue : List UInt8 → Option Mq
  descriptor : Nat → Option (List UInt8)
  handle : Nat → Option Handle

/-- The calls. Descriptor and block are any that are not in use. The flags say that the kernel has no reason to
fail that is not in the model: limits and permissions, signals and timeouts. -/
inductive Action
  | create (queueName : Option (List UInt8)) (maxMsgs msgSize : BitVec 32) (granted : Bool) (des block : Nat)
  | delete (queue : Option Nat)
  | send (queue : Option Nat) (data : Option (List UInt8)) (priority : BitVec 32) (timeout : Int) (granted : Bool)
  | recv (queue : Option Nat) (data : Bool) (timeout : Int) (granted : Bool)

inductive Event
  | created (queueName : Option (List UInt8)) (maxMsgs msgSize : BitVec 32) (queue : Option Nat)
  | deleted (queue : Option Nat) (status : Int)
  | refused (status : Int)
  | sent (queueName : List UInt8) (m : Message) (status : Int)
  | received (queueName : List UInt8) (msgSize : BitVec 32) (taken : Option Message) (status : Int) (len : Option Int)
deriving DecidableEq

def mqPrioMax : Nat := 32768

/-- After the slash a name has one or more bytes, none of which is a slash. -/
def nameOk (name : List UInt8) : Bool := !name.tail.isEmpty && name.tail.all (· ≠ 47)

namespace World

def init : World := ⟨fun _ => none, fun _ => none, fun _ => none⟩

/-- `mq_open` with `O_CREAT`: the attributes count only where the queue is made. -/
def mqOpen (w : World) (name : List UInt8) (maxMsgs msgSize : Nat) (granted : Bool) : Option Mq :=
  if granted && nameOk name then
    match w.queue name with
    | some q => some q
    | none => if 0 < maxMsgs ∧ 0 < msgSize then some ⟨maxMsgs, msgSize, []⟩ else none
  else none

def target (w : World) (k : Handle) : Option (List UInt8 × Mq) :=
  (w.descriptor k.mqDes).bind fun name => (w.queue name).map fun q => (name, q)

def setStore (w : World) (name : List UInt8) (q : Mq) (store : List Message) : World :=
  { w with queue := update w.queue name (some { q with store := store }) }

/-- `osal_queue_send` on a handle. It waits as long as the queue is full. -/
def osalQueueSend (w : World) (k : Handle) (m : Message) (timeout : Int) (granted : Bool) : Option (World × List Event) :=
  match w.target k with
  | some (name, q) =>
      if granted ∧ m.data.length ≤ q.msgSize ∧ m.priority.toNat < mqPrioMax then
        if q.store.length < q.maxMsgs then
          some (w.setStore name q (SortedQueue.insert order m q.store),
            [.sent k.queueName m (Queue.osalQueueSend timeout 0)])
        else none
      else some (w, [.sent k.queueName m (Queue.osalQueueSend timeout (-1))])
  | none => some (w, [.sent k.queueName m (Queue.osalQueueSend timeout (-1))])

def received (k : Handle) (timeout : Int) (taken : Option Message) (ret : Int) : Event :=
  .received k.queueName k.msgSize taken (Queue.osalQueueRecv timeout ret).1 (Queue.osalQueueRecv timeout ret).2

/-- `osal_queue_recv` on a handle: the kernel is given the message size of the handle, and refuses to receive
if that is less than the size of the queue. It waits as long as the queue is empty. -/
def osalQueueRecv (w : World) (k : Handle) (timeout : Int) (granted : Bool) : Option (World × List Event) :=
  match w.target k with
  | some (name, q) =>
      if granted ∧ q.msgSize ≤ k.msgSize.toNat then
        match q.store with
        | [] => none
        | m :: rest => some (w.setStore name q rest, [received k timeout (some m) (Queue.received m)])
      else some (w, [received k timeout none (-1)])
  | none => some (w, [received k timeout none (-1)])

def step (w : World) : Action → Option (World × List Event)
  | .create none maxMsgs msgSize _ _ _ => some (w, [.created none maxMsgs msgSize none])
  | .create (some queueName) maxMsgs msgSize granted des block =>
      match w.mqOpen (mqName queueName) maxMsgs.toNat msgSize.toNat granted with
      | none => some (w, [.created (some queueName) maxMsgs msgSize none])
      | some q =>
          if w.descriptor des = none ∧ w.handle block = none then
            some
              ({ queue := update w.queue (mqName queueName) (some q)
                 descriptor := update w.descriptor des (some (mqName queueName))
                 handle := update w.handle block (some ⟨des, msgSize, queueName⟩) },
                [.created (some queueName) maxMsgs msgSize (some block)])
          else none
  | .delete none => some (w, [.deleted none osalStatusEmpty])
  | .delete (some queue) =>
      (w.handle queue).map fun k =>
        ({ w with
            descriptor := update w.descriptor k.mqDes none
            handle := update w.handle queue none },
          [.deleted (some queue) osalStatusSuccess])
  | .send (some queue) (some data) priority timeout granted =>
      (w.handle queue).bind fun k => w.osalQueueSend k ⟨priority, data⟩ timeout granted
  | .send .. => some (w, [.refused osalStatusEmpty])
  | .recv (some queue) true timeout granted => (w.handle queue).bind fun k => w.osalQueueRecv k timeout granted
  | .recv (some queue) false timeout _ => (w.handle queue).map fun k => (w, [received k timeout none (-1)])
  | .recv none _ _ _ => some (w, [.refused osalStatusEmpty])

end World

def world : Machine World Action Event := ⟨World.init, World.step⟩

/-! ### What a step can do -/

namespace Event

def accepted (name : List UInt8) : Event → Option Message
  | .sent queueName m status => if mqName queueName = name ∧ status = osalStatusSuccess then some m else none
  | _ => none

def taken (name : List UInt8) : Event → Option Message
  | .received queueName _ taken _ _ => if mqName queueName = name then taken else none
  | _ => none

def attrs (name : List UInt8) : Event → Option (Nat × Nat)
  | .created (some queueName) maxMsgs msgSize (some _) =>
      if mqName queueName = name then some (maxMsgs.toNat, msgSize.toNat) else none
  | _ => none

def Plain (e : Event) : Prop := ∀ name, e.accepted name = none ∧ e.taken name = none ∧ e.attrs name = none

end Event

def Mq.attrs (q : Mq) : Nat × Nat := (q.maxMsgs, q.msgSize)

structure World.Ok (w : World) : Prop where
  owned : Owned (fun des => w.descriptor des ≠ none) (fun queue => (w.handle queue).map Handle.mqDes)
  named : ∀ queue k, w.handle queue = some k → w.descriptor k.mqDes = some (mqName k.queueName)
  opened : ∀ des name, w.descriptor des = some name → w.queue name ≠ none

inductive Stepped (w : World) : World → List Event → Prop
  | quiet {e : Event} : e.Plain → Stepped w w [e]
  | created {queueName : List UInt8} {maxMsgs msgSize : BitVec 32} {q : Mq} {des block : Nat} :
      (w.queue (mqName queueName) = some q ∨
        w.queue (mqName queueName) = none ∧ q = ⟨maxMsgs.toNat, msgSize.toNat, []⟩) →
      w.descriptor des = none → w.handle block = none →
      Stepped w
        { queue := update w.queue (mqName queueName) (some q)
          descriptor := update w.descriptor des (some (mqName queueName))
          handle := update w.handle block (some ⟨des, msgSize, queueName⟩) }
        [.created (some queueName) maxMsgs msgSize (some block)]
  | deleted {queue : Nat} {k : Handle} : w.handle queue = some k →
      Stepped w
        { w with
          descriptor := update w.descriptor k.mqDes none
          handle := update w.handle queue none }
        [.deleted (some queue) osalStatusSuccess]
  | put {k : Handle} {q : Mq} {m : Message} : w.queue (mqName k.queueName) = some q →
      Stepped w (w.setStore (mqName k.queueName) q (SortedQueue.insert order m q.store))
        [.sent k.queueName m osalStatusSuccess]
  | take {k : Handle} {q : Mq} {m : Message} {rest : List Message} {timeout : Int} :
      w.queue (mqName k.queueName) = some q → q.msgSize ≤ k.msgSize.toNat → q.store = m :: rest →
      Stepped w (w.setStore (mqName k.queueName) q rest) [World.received k timeout (some m) (Queue.received m)]

section Inversion

variable {w w' : World} {a : Action} {ev : List Event}

theorem mqOpen_eq_some {name : List UInt8} {maxMsgs msgSize : Nat} {granted : Bool} {q : Mq}
    (h : w.mqOpen name maxMsgs msgSize granted = some q) :
    w.queue name = some q ∨ w.queue name = none ∧ q = ⟨maxMsgs, msgSize, []⟩ := by
  simp only [World.mqOpen] at h
  split at h
  · split at h
    · rename_i q' hq
      exact .inl (hq.trans h)
    · rename_i hq
      split at h
      · exact .inr ⟨hq, (Option.some.inj h).symm⟩
      · cases h
  · cases h

theorem plain_received (k : Handle) (timeout : Int) : (World.received k timeout none (-1)).Plain := by
  intro name
  refine ⟨rfl, ?_, rfl⟩
  simp [World.received, Event.taken]

theorem plain_failed_send (queueName : List UInt8) (m : Message) (timeout : Int) :
    (Event.sent queueName m (Queue.osalQueueSend timeout (-1))).Plain := by
  intro name
  refine ⟨?_, rfl, rfl⟩
  rw [osalQueueSend_error]
  simp [Event.accepted, osalStatusTimeout, osalStatusSuccess]

theorem World.Ok.target (h : w.Ok) {queue : Nat} {k : Handle} {name : List UInt8} {q : Mq} (hk : w.handle queue = some k)
    (htarget : w.target k = some (name, q)) : mqName k.queueName = name ∧ w.queue name = some q := by
  simp only [World.target, h.named queue k hk, Option.bind_some, Option.map_eq_some_iff, Prod.mk.injEq] at htarget
  obtain ⟨q', hq, rfl, rfl⟩ := htarget
  exact ⟨rfl, hq⟩

theorem step_stepped (h : w.Ok) (hstep : w.step a = some (w', ev)) : Stepped w w' ev := by
  have hplain {e : Event} (he : e.Plain) (hres : some (w, [e]) = some (w', ev)) : Stepped w w' ev := by
    cases hres
    exact .quiet he
  have hnone {e : Event} (ha : ∀ name, e.accepted name = none) (ht : ∀ name, e.taken name = none)
      (hc : ∀ name, e.attrs name = none) : e.Plain := fun name => ⟨ha name, ht name, hc name⟩
  cases a with
  | create queueName maxMsgs msgSize granted des block =>
      cases queueName with
      | none => exact hplain (hnone (fun _ => rfl) (fun _ => rfl) fun _ => rfl) hstep
      | some queueName =>
          simp only [World.step] at hstep
          split at hstep
          · exact hplain (hnone (fun _ => rfl) (fun _ => rfl) fun _ => rfl) hstep
          · rename_i q hopen
            split at hstep
            · rename_i hfree
              cases hstep
              exact .created (mqOpen_eq_some hopen) hfree.1 hfree.2
            · cases hstep
  | delete queue =>
      cases queue with
      | none => exact hplain (hnone (fun _ => rfl) (fun _ => rfl) fun _ => rfl) hstep
      | some queue =>
          obtain ⟨k, hk, hres⟩ := Option.map_eq_some_iff.mp hstep
          cases hres
          exact .deleted hk
  | send queue data priority timeout granted =>
      cases queue with
      | none => exact hplain (hnone (fun _ => rfl) (fun _ => rfl) fun _ => rfl) hstep
      | some queue =>
          cases data with
          | none => exact hplain (hnone (fun _ => rfl) (fun _ => rfl) fun _ => rfl) hstep
          | some data =>
              obtain ⟨k, hk, hsend⟩ := Option.bind_eq_some_iff.mp hstep
              simp only [World.osalQueueSend] at hsend
              split at hsend
              · rename_i name q htarget
                obtain ⟨rfl, hq⟩ := h.target hk htarget
                split at hsend
                · split at hsend
                  · cases hsend
                    rw [osalQueueSend_zero]
                    exact .put hq
                  · cases hsend
                · exact hplain (plain_failed_send _ _ _) hsend
              · exact hplain (plain_failed_send _ _ _) hsend
  | recv queue data timeout granted =>
      cases queue with
      | none => exact hplain (hnone (fun _ => rfl) (fun _ => rfl) fun _ => rfl) hstep
      | some queue =>
          cases data with
          | false =>
              obtain ⟨k, hk, hres⟩ := Option.map_eq_some_iff.mp hstep
              exact hplain (plain_received k timeout) (congrArg some hres)
          | true =>
              obtain ⟨k, hk, hrecv⟩ := Option.bind_eq_some_iff.mp hstep
              simp only [World.osalQueueRecv] at hrecv
              split at hrecv
              · rename_i name q htarget
                obtain ⟨rfl, hq⟩ := h.target hk htarget
                split at hrecv
                · rename_i hsize
                  split at hrecv
                  · cases hrecv
                  · rename_i m rest hstore
                    cases hrecv
                    exact .take hq hsize.2 hstore
                · exact hplain (plain_received k timeout) hrecv
              · exact hplain (plain_received k timeout) hrecv

theorem opened_setStore (h : w.Ok) (name : List UInt8) (q : Mq) (store : List Message) (des : Nat)
    (name' : List UInt8) (hname : w.descriptor des = some name') : (w.setStore name q store).queue name' ≠ none := by
  by_cases heq : name' = name
  · simp [World.setStore, heq]
  · simpa [World.setStore, heq] using h.opened des name' hname

theorem Stepped.ok (h : w.Ok) (hs : Stepped w w' ev) : w'.Ok := by
  cases hs with
  | quiet => exact h
  | @created queueName maxMsgs msgSize q des block hq hdes hblock =>
      constructor
      · refine h.owned.grant (o := block) (t := des) (by simp [hdes]) (by simp [hblock]) ?_ ?_
        · intro u
          by_cases hu : u = des
          · simp [hu]
          · simp [hu]
        · intro x
          by_cases hx : x = block
          · simp [hx]
          · simp [hx]
      · intro queue k hk
        by_cases hqueue : queue = block
        · subst hqueue
          obtain rfl : _ = k := by simpa using hk
          simp
        · have hold : w.handle queue = some k := by simpa [hqueue] using hk
          have hnamed := h.named queue k hold
          have hne : k.mqDes ≠ des := by
            intro heq
            rw [heq, hdes] at hnamed
            cases hnamed
          simpa [hne] using hnamed
      · intro des' name hname
        by_cases hn : name = mqName queueName
        · simp [hn]
        · have hne : des' ≠ des := by
            rintro rfl
            simp [Ne.symm hn] at hname
          simpa [hn] using h.opened des' name (by simpa [hne] using hname)
  | @deleted queue k hk =>
      constructor
      · refine h.owned.release (o := queue) (t := k.mqDes) (by simp [hk]) ?_ ?_
        · intro u
          by_cases hu : u = k.mqDes
          · simp [hu]
          · simp [hu]
        · intro x
          by_cases hx : x = queue
          · simp [hx]
          · simp [hx]
      · intro queue' k' hk'
        by_cases hqueue : queue' = queue
        · simp [hqueue] at hk'
        · have hold : w.handle queue' = some k' := by simpa [hqueue] using hk'
          have hne : k'.mqDes ≠ k.mqDes := by
            intro heq
            exact hqueue (h.owned.one queue' queue k.mqDes (by simp [hold, heq]) (by simp [hk]))
          simpa [hne] using h.named queue' k' hold
      · intro des name hname
        by_cases hdes : des = k.mqDes
        · simp [hdes] at hname
        · exact h.opened des name (by simpa [hdes] using hname)
  | @put k q m hq => exact ⟨h.owned, h.named, opened_setStore h _ q _⟩
  | @take k q m rest timeout hq => exact ⟨h.owned, h.named, opened_setStore h _ q _⟩

end Inversion

/-! ### Runs -/

def World.store (w : World) (name : List UInt8) : List Message := ((w.queue name).map Mq.store).getD []

/-- What was put into a queue of each priority has been taken, in this order, or is there. -/
structure Kept (tr : List Event) (w : World) : Prop where
  sorted : ∀ name, SortedQueue.Sorted order (w.store name)
  fifo : ∀ name rank, (tr.filterMap (Event.accepted name)).filter (fun m => order m = rank) =
    (tr.filterMap (Event.taken name)).filter (fun m => order m = rank) ++ (w.store name).filter fun m => order m = rank
  first : ∀ name, tr.findSome? (Event.attrs name) = (w.queue name).map Mq.attrs
  sizes : ∀ queueName msgSize m status len, .received queueName msgSize (some m) status len ∈ tr →
    ∃ q, w.queue (mqName queueName) = some q ∧ q.msgSize ≤ msgSize.toNat

section Runs

variable {w w' : World} {tr ev : List Event}

theorem store_eq {name : List UInt8} {q : Mq} (hq : w.queue name = some q) : w.store name = q.store := by
  simp [World.store, hq]

theorem store_setStore (w : World) (name : List UInt8) (q : Mq) (store : List Message) :
    (w.setStore name q store).store name = store := by
  simp [World.store, World.setStore]

theorem store_setStore_of_ne (w : World) {name name' : List UInt8} (hne : name' ≠ name) (q : Mq) (store : List Message) :
    (w.setStore name q store).store name' = w.store name' := by
  simp [World.store, World.setStore, hne]

theorem attrs_setStore {name : List UInt8} {q : Mq} (hq : w.queue name = some q) (store : List Message)
    (name' : List UInt8) : ((w.setStore name q store).queue name').map Mq.attrs = (w.queue name').map Mq.attrs := by
  by_cases hname : name' = name
  · simp [World.setStore, hname, hq, Mq.attrs]
  · simp [World.setStore, hname]

theorem Kept.extend (h : Kept tr w) (hsorted : ∀ name, SortedQueue.Sorted order (w'.store name))
    (hfifo : ∀ name rank, (w.store name).filter (fun m => order m = rank) ++
        (ev.filterMap (Event.accepted name)).filter (fun m => order m = rank) =
      (ev.filterMap (Event.taken name)).filter (fun m => order m = rank) ++
        (w'.store name).filter fun m => order m = rank)
    (hfirst : ∀ name, ((w.queue name).map Mq.attrs).or (ev.findSome? (Event.attrs name)) = (w'.queue name).map Mq.attrs)
    (hsizes : ∀ queueName msgSize m status len, .received queueName msgSize (some m) status len ∈ ev →
      ∃ q, w'.queue (mqName queueName) = some q ∧ q.msgSize ≤ msgSize.toNat) : Kept (tr ++ ev) w' where
  sorted := hsorted
  fifo := by
    intro name rank
    rw [List.filterMap_append, List.filter_append, h.fifo, List.append_assoc, hfifo, List.filterMap_append,
      List.filter_append, List.append_assoc]
  first := by
    intro name
    rw [List.findSome?_append, h.first, hfirst]
  sizes := by
    intro queueName msgSize m status len he
    rcases List.mem_append.mp he with he | he
    · obtain ⟨q, hq, hle⟩ := h.sizes queueName msgSize m status len he
      -- the queue is there still, with the attributes it had
      have hkept := hfirst (mqName queueName)
      rw [hq, Option.map_some, Option.some_or, eq_comm, Option.map_eq_some_iff] at hkept
      obtain ⟨q', hq', hattrs⟩ := hkept
      refine ⟨q', hq', ?_⟩
      rw [show q'.msgSize = q.msgSize from congrArg Prod.snd hattrs]
      exact hle
    · exact hsizes queueName msgSize m status len he

theorem Kept.stepped (h : Kept tr w) (hs : Stepped w w' ev) : Kept (tr ++ ev) w' := by
  cases hs with
  | @quiet e he =>
      apply h.extend h.sorted
      · intro name rank
        simp [(he name).1, (he name).2.1]
      · intro name
        simp [(he name).2.2]
      · intro queueName msgSize m status len hmem
        obtain rfl := List.mem_singleton.mp hmem
        simpa [Event.taken] using (he (mqName queueName)).2.1
  | @created queueName maxMsgs msgSize q des block hq =>
      have hstore (name : List UInt8) : World.store
          { queue := update w.queue (mqName queueName) (some q)
            descriptor := update w.descriptor des (some (mqName queueName))
            handle := update w.handle block (some ⟨des, msgSize, queueName⟩) } name = w.store name := by
        by_cases hname : name = mqName queueName
        · subst hname
          rcases hq with hq | ⟨hq, rfl⟩
          · simp [World.store, hq]
          · simp [World.store, hq]
        · simp [World.store, hname]
      apply h.extend
      · intro name
        rw [hstore]
        exact h.sorted name
      · intro name rank
        rw [hstore]
        simp [List.filterMap_cons, Event.accepted, Event.taken]
      · intro name
        by_cases hname : name = mqName queueName
        · subst hname
          rcases hq with hq | ⟨hq, rfl⟩
          · simp [hq]
          · simp [hq, Event.attrs, Mq.attrs]
        · simp [hname, Event.attrs, Ne.symm hname]
      · simp
  | deleted hk =>
      apply h.extend
      · exact h.sorted
      · intro name rank
        simp [List.filterMap_cons, Event.accepted, Event.taken, World.store]
      · intro name
        simp [Event.attrs]
      · simp
  | @put k q m hq =>
      apply h.extend
      · intro name
        by_cases hname : name = mqName k.queueName
        · subst hname
          rw [store_setStore, ← store_eq hq]
          exact SortedQueue.sorted_insert (h.sorted _)
        · rw [store_setStore_of_ne w hname]
          exact h.sorted name
      · intro name rank
        by_cases hname : name = mqName k.queueName
        · subst hname
          have hsorted := h.sorted (mqName k.queueName)
          rw [store_eq hq] at hsorted
          rw [store_setStore, SortedQueue.filter_insert hsorted, store_eq hq]
          by_cases hrank : order m = rank <;> simp [List.filterMap_cons, Event.accepted, Event.taken, hrank]
        · rw [store_setStore_of_ne w hname]
          simp [List.filterMap_cons, Event.accepted, Event.taken, Ne.symm hname]
      · intro name
        rw [attrs_setStore hq]
        simp [Event.attrs]
      · simp
  | @take k q m rest timeout hq hsize hstore =>
      apply h.extend
      · intro name
        by_cases hname : name = mqName k.queueName
        · subst hname
          have hsorted := h.sorted (mqName k.queueName)
          rw [store_eq hq, hstore] at hsorted
          rw [store_setStore]
          exact (List.pairwise_cons.mp hsorted).2
        · rw [store_setStore_of_ne w hname]
          exact h.sorted name
      · intro name rank
        by_cases hname : name = mqName k.queueName
        · subst hname
          rw [store_setStore, store_eq hq, hstore]
          by_cases hrank : order m = rank <;>
            simp [World.received, List.filterMap_cons, Event.accepted, Event.taken, hrank]
        · rw [store_setStore_of_ne w hname]
          simp [World.received, List.filterMap_cons, Event.accepted, Event.taken, Ne.symm hname]
      · intro name
        rw [attrs_setStore hq]
        simp [World.received, Event.attrs]
      · intro queueName msgSize m' status len hmem
        simp only [World.received, List.mem_singleton, Event.received.injEq] at hmem
        obtain ⟨rfl, rfl, -⟩ := hmem
        exact ⟨{ q with store := rest }, by simp [World.setStore], hsize⟩

theorem kept_run (h : Steps world (fun _ _ => True) world.init tr w) : Kept tr w ∧ w.Ok := by
  refine h.trace_invariant (I := fun tr w => Kept tr w ∧ w.Ok) ⟨⟨?_, ?_, ?_, ?_⟩, ⟨⟨?_, ?_⟩, ?_, ?_⟩⟩ ?_
  · exact fun _ => List.Pairwise.nil
  · exact fun _ _ => rfl
  · exact fun _ => rfl
  · nofun
  · intro des
    simp [world, World.init]
  · nofun
  · nofun
  · nofun
  · intro tr w a w' ev hw _ hstep
    have hs := step_stepped hw.2 hstep
    exact ⟨hw.1.stepped hs, hs.ok hw.2⟩

end Runs

theorem mqName_inj (queueName queueName' : List UInt8) :
    mqName queueName = mqName queueName' ↔ queueName.take 30 = queueName'.take 30 := by
  simp [mqName, mqNameLen]

theorem order_eq_iff (m : Message) (priority : BitVec 32) :
    order m = OrderDual.toDual priority.toNat ↔ m.priority = priority := by
  rw [order, OrderDual.toDual_inj, BitVec.toNat_inj]

/-- What the handles of a name have in common. -/
structure SharedByName (tr : List Event) (w : World) : Prop where
  /-- Each open descriptor belongs to one handle. -/
  descriptors : Owned (fun des => w.descriptor des ≠ none) fun queue => (w.handle queue).map Handle.mqDes
  /-- Two handles are open on one queue if their names agree in the first thirty bytes. -/
  same_iff : ∀ queue queue' k k', w.handle queue = some k → w.handle queue' = some k' →
    (w.descriptor k.mqDes = w.descriptor k'.mqDes ↔ k.queueName.take 30 = k'.queueName.take 30)
  /-- The messages of one priority that were put into a queue, through whatever handles, have been taken from it
  in this order, through whatever handles, or are in it. -/
  fifo : ∀ name priority, (tr.filterMap (Event.accepted name)).filter (fun m => m.priority = priority) =
    (tr.filterMap (Event.taken name)).filter (fun m => m.priority = priority) ++
      (w.store name).filter fun m => m.priority = priority
  /-- A queue has the attributes of the first call that created a handle for it. -/
  attributes : ∀ name, (w.queue name).map Mq.attrs = tr.findSome? (Event.attrs name)
  /-- Only a handle that asks for the message size of the queue, or for more, ever receives. -/
  sizes : ∀ queueName msgSize m status len, .received queueName msgSize (some m) status len ∈ tr →
    ∃ maxMsgs size, tr.findSome? (Event.attrs (mqName queueName)) = some (maxMsgs, size) ∧ size ≤ msgSize.toNat

/-- In every sequence of creations, deletions, sends and receives a queue is shared by all the handles that were
ever created under the first thirty bytes of its name, and keeps what it holds while there is none. -/
theorem shared_by_name {tr : List Event} {w : World} (h : Steps world (fun _ _ => True) world.init tr w) :
    SharedByName tr w := by
  obtain ⟨hkept, hok⟩ := kept_run h
  constructor
  · exact hok.owned
  · intro queue queue' k k' hk hk'
    rw [hok.named queue k hk, hok.named queue' k' hk', Option.some_inj, mqName_inj]
  · intro name priority
    simpa only [order_eq_iff] using hkept.fifo name (OrderDual.toDual priority.toNat)
  · intro name
    exact (hkept.first name).symm
  · intro queueName msgSize m status len hmem
    obtain ⟨q, hq, hle⟩ := hkept.sizes queueName msgSize m status len hmem
    refine ⟨q.maxMsgs, q.msgSize, ?_, hle⟩
    rw [hkept.first, hq]
    rfl

def longName (last : UInt8) : List UInt8 := List.replicate 30 97 ++ [last]

/-- A message that was sent through a handle of another name, deleted since, is received with the attributes that
were asked for then. -/
theorem shared_by_name_recreated : ∃ tr w, Steps world (fun _ _ => True) world.init tr w ∧
    .deleted (some 0) osalStatusSuccess ∈ tr ∧
    .received (longName 99) 32 (some ⟨7, [5]⟩) osalStatusSuccess (some 1) ∈ tr ∧
    (w.queue (mqName (longName 99))).map Mq.attrs = some (2, 16) := by
  obtain ⟨w, tr, hrun, htest⟩ := exists_steps_of_exec (m := world) (s := world.init)
    [.create (some (longName 98)) 2 16 true 3 0, .send (some 0) (some [5]) 7 100 true, .delete (some 0),
      .create (some (longName 99)) 9 32 true 3 0, .recv (some 0) true (-1) true]
    (p := fun r => decide (r.2 = [.created (some (longName 98)) 2 16 (some 0), .sent (longName 98) ⟨7, [5]⟩ 0,
      .deleted (some 0) 0, .created (some (longName 99)) 9 32 (some 0),
      .received (longName 99) 32 (some ⟨7, [5]⟩) 0 (some 1)]))
    (show (world.exec (fun _ _ => True) _ _).any _ = true by decide +kernel)
  simp only [decide_eq_true_eq] at htest
  refine ⟨tr, w, hrun, by simp [htest, osalStatusSuccess], by simp [htest, osalStatusSuccess], ?_⟩
  rw [(shared_by_name hrun).attributes, htest]
  decide

end Pc02.Queue.Named

import Pc02.Lib.SortedQueue
import Pc02.Timer.State

/-!
# Moving a timer between the lists

Every locked section unlinks at most one timer, rewrites its node and links it again in at most one
place. `State.move` is that pattern, the well-formedness of the module is preserved by every move
whose new node suits its new place, and each section below is shown to be such a move.
-/

namespace Pc02.Timer

open Function

inductive Place
  | nowhere
  | free
  | queue (th : ThreadId)
deriving DecidableEq

namespace State

def key (s : State) (t : TimerId) : Int ×ₗ Int := (s.timer t).expirytime.key

def queue (s : State) (th : ThreadId) : List TimerId := (s.thread th).timerQueue

/-- Unlink `t`, give it the node `n` and link it at `d`. -/
def move (s : State) (t : TimerId) (n : TimerNode) (d : Place) : State :=
  let s := (s.listUnlinkIp t).setTimer t fun _ => n
  match d with
  | .nowhere => s
  | .free => { s with timerFreeList := s.timerFreeList ++ [t] }
  | .queue th => s.setThread th fun m => { m with timerQueue := SortedQueue.insert s.key t m.timerQueue }

section Fields

variable (s : State) (t u : TimerId) (th th' : ThreadId) (n : TimerNode) (d : Place)

@[simp] theorem setTimer_timer (f) : (s.setTimer t f).timer = update s.timer t (f (s.timer t)) := rfl
@[simp] theorem setTimer_thread (f) : (s.setTimer t f).thread = s.thread := rfl
@[simp] theorem setTimer_timerFreeList (f) : (s.setTimer t f).timerFreeList = s.timerFreeList := rfl
@[simp] theorem setTimer_threadFreeList (f) : (s.setTimer t f).threadFreeList = s.threadFreeList := rfl
@[simp] theorem setTimer_threadActiveList (f) :
    (s.setTimer t f).threadActiveList = s.threadActiveList := rfl
@[simp] theorem setTimer_nextReg (f) : (s.setTimer t f).nextReg = s.nextReg := rfl
@[simp] theorem setTimer_aborted (f) : (s.setTimer t f).aborted = s.aborted := rfl

@[simp] theorem setThread_timer (f) : (s.setThread th f).timer = s.timer := rfl
@[simp] theorem setThread_thread (f) :
    (s.setThread th f).thread = update s.thread th (f (s.thread th)) := rfl
@[simp] theorem setThread_timerFreeList (f) : (s.setThread th f).timerFreeList = s.timerFreeList := rfl
@[simp] theorem setThread_threadFreeList (f) : (s.setThread th f).threadFreeList = s.threadFreeList := rfl
@[simp] theorem setThread_threadActiveList (f) :
    (s.setThread th f).threadActiveList = s.threadActiveList := rfl
@[simp] theorem setThread_nextReg (f) : (s.setThread th f).nextReg = s.nextReg := rfl
@[simp] theorem setThread_aborted (f) : (s.setThread th f).aborted = s.aborted := rfl

@[simp] theorem listUnlinkIp_timer : (s.listUnlinkIp t).timer = s.timer := rfl
@[simp] theorem listUnlinkIp_threadFreeList :
    (s.listUnlinkIp t).threadFreeList = s.threadFreeList := rfl
@[simp] theorem listUnlinkIp_threadActiveList :
    (s.listUnlinkIp t).threadActiveList = s.threadActiveList := rfl
@[simp] theorem listUnlinkIp_nextReg : (s.listUnlinkIp t).nextReg = s.nextReg := rfl
@[simp] theorem listUnlinkIp_aborted : (s.listUnlinkIp t).aborted = s.aborted := rfl

@[simp] theorem move_timer : (s.move t n d).timer = update s.timer t n := by
  cases d <;> rfl
@[simp] theorem move_threadFreeList : (s.move t n d).threadFreeList = s.threadFreeList := by
  cases d <;> rfl
@[simp] theorem move_threadActiveList : (s.move t n d).threadActiveList = s.threadActiveList := by
  cases d <;> rfl
@[simp] theorem move_nextReg : (s.move t n d).nextReg = s.nextReg := by
  cases d <;> rfl
@[simp] theorem move_aborted : (s.move t n d).aborted = s.aborted := by
  cases d <;> rfl

theorem move_thread :
    ∃ q, (s.move t n d).thread th = { s.thread th with timerQueue := q } := by
  cases d with
  | nowhere => exact ⟨_, rfl⟩
  | free => exact ⟨_, rfl⟩
  | queue th' =>
      by_cases h : th = th'
      · subst h
        exact ⟨_, update_self th _ _⟩
      · exact ⟨_, update_of_ne h _ _⟩

@[simp] theorem move_existsFlag : ((s.move t n d).thread th).existsFlag = (s.thread th).existsFlag := by
  obtain ⟨q, hq⟩ := s.move_thread t th n d
  rw [hq]
@[simp] theorem move_id : ((s.move t n d).thread th).id = (s.thread th).id := by
  obtain ⟨q, hq⟩ := s.move_thread t th n d
  rw [hq]
@[simp] theorem move_currentTimer :
    ((s.move t n d).thread th).currentTimer = (s.thread th).currentTimer := by
  obtain ⟨q, hq⟩ := s.move_thread t th n d
  rw [hq]
@[simp] theorem move_attr : ((s.move t n d).thread th).attr = (s.thread th).attr := by
  obtain ⟨q, hq⟩ := s.move_thread t th n d
  rw [hq]
@[simp] theorem move_clockId : ((s.move t n d).thread th).clockId = (s.thread th).clockId := by
  obtain ⟨q, hq⟩ := s.move_thread t th n d
  rw [hq]

theorem move_queue : (s.move t n d).queue th =
    if d = .queue th then SortedQueue.insert (s.move t n d).key t ((s.queue th).filter (· ≠ t))
    else (s.queue th).filter (· ≠ t) := by
  cases d with
  | nowhere => rfl
  | free => rfl
  | queue th' =>
      by_cases h : th = th'
      · subst h
        simp only [if_true]
        simp [move, queue, listUnlinkIp]
        rfl
      · have hne : Place.queue th' ≠ Place.queue th := by
          intro he
          exact h (Place.queue.inj he).symm
        rw [if_neg hne]
        simp [move, queue, listUnlinkIp, h]

theorem move_timerFreeList : (s.move t n d).timerFreeList =
    if d = .free then s.timerFreeList.filter (· ≠ t) ++ [t] else s.timerFreeList.filter (· ≠ t) := by
  cases d <;> rfl

theorem mem_move_queue :
    u ∈ (s.move t n d).queue th ↔ (u = t ∧ d = .queue th) ∨ (u ≠ t ∧ u ∈ s.queue th) := by
  rw [move_queue]
  by_cases hd : d = .queue th
  · simp only [hd, if_true, SortedQueue.mem_insert, List.mem_filter, decide_eq_true_eq, and_true]
    tauto
  · simp only [hd, if_false, List.mem_filter, decide_eq_true_eq, and_false, false_or]
    tauto

theorem mem_move_timerFreeList :
    u ∈ (s.move t n d).timerFreeList ↔ (u = t ∧ d = .free) ∨ (u ≠ t ∧ u ∈ s.timerFreeList) := by
  rw [move_timerFreeList]
  by_cases hd : d = .free
  · simp only [hd, if_true, List.mem_append, List.mem_filter, decide_eq_true_eq, List.mem_singleton,
      and_true]
    tauto
  · simp only [hd, if_false, List.mem_filter, decide_eq_true_eq, and_false, false_or]
    tauto

end Fields

/-- Changes to the other fields of a thread leave the queues alone. -/
theorem queue_setThread {s : State} {th : ThreadId} {f : ThreadNode → ThreadNode}
    (hf : (f (s.thread th)).timerQueue = (s.thread th).timerQueue) (x : ThreadId) :
    (s.setThread th f).queue x = s.queue x := by
  by_cases hx : x = th
  · subst hx
    simpa [State.queue] using hf
  · simp [State.queue, hx]

end State

/-- The reference count a slot has while the lock is free. A slot left `TIMER_DELETED` has lost its
count for good. -/
def TimerNode.RefOk (n : TimerNode) : Prop :=
  match n.inuse with
  | .free => n.refcount = 0
  | .inuse => n.refcount = 1
  | .deleted => n.refcount < 0

def TimerNode.DataOk (n : TimerNode) : Prop :=
  n.value.interval.Normal ∧ 0 ≤ n.value.interval.sec ∧ 0 ≤ n.millisec

theorem TimerNode.DataOk.interval_pos {n : TimerNode} (h : n.DataOk) (hne : n.value.interval ≠ zeroTimespec) :
    0 < n.value.interval.toNs := by
  obtain ⟨⟨hlo, hhi⟩, hsec, -⟩ := h
  have hsome := (ne_zeroTimespec _).mp hne
  simp only [Timespec.toNs, nsecPerSec] at *
  omega

/-- The representation invariant of the module: what holds whenever the lock is free. -/
structure State.Wf (s : State) : Prop where
  running : s.aborted = false
  freeNodup : s.timerFreeList.Nodup
  freeIff : ∀ t, t ∈ s.timerFreeList ↔ (s.timer t).inuse = .free
  refOk : ∀ t, (s.timer t).RefOk
  dataOk : ∀ t, (s.timer t).DataOk
  queueNodup : ∀ th, (s.queue th).Nodup
  sorted : ∀ th, SortedQueue.Sorted s.key (s.queue th)
  queued : ∀ th t, t ∈ s.queue th → (s.timer t).inuse = .inuse ∧ (s.timer t).armed = true ∧
    (s.timer t).thread = some th ∧ (s.timer t).expirytime.Normal
  placed : ∀ t, (s.timer t).inuse = .inuse → ∃ th ∈ s.threadActiveList, (s.timer t).thread = some th
  dequeued : ∀ t th, (s.timer t).inuse = .inuse → (s.timer t).armed = true →
    (s.timer t).thread = some th → t ∉ s.queue th → (s.timer t).value.interval = zeroTimespec
  threadNodup : (s.threadFreeList ++ s.threadActiveList).Nodup

structure TimerNode.Suits (n : TimerNode) (active : List ThreadId) (d : Place) : Prop where
  refOk : n.RefOk
  dataOk : n.DataOk
  free : d = .free ↔ n.inuse = .free
  queue : ∀ th, d = .queue th →
    n.inuse = .inuse ∧ n.armed = true ∧ n.thread = some th ∧ n.expirytime.Normal
  placed : n.inuse = .inuse → ∃ th ∈ active, n.thread = some th
  dequeued : n.inuse = .inuse → n.armed = true → (∀ th, d ≠ .queue th) →
    n.value.interval = zeroTimespec

namespace State.Wf

variable {s s' : State} {t : TimerId} {n : TimerNode} {d : Place}

theorem move (h : s.Wf) (hn : n.Suits s.threadActiveList d) : (s.move t n d).Wf := by
  have hnode (u : TimerId) : (s.move t n d).timer u = if u = t then n else s.timer u := by
    rw [move_timer, update_apply]
  refine ⟨by simpa using h.running, ?_, ?_, ?_, ?_, ?_, ?_, ?_, ?_, ?_, by simpa using h.threadNodup⟩
  · rw [move_timerFreeList]
    have hfilter := h.freeNodup.filter (fun u => decide (u ≠ t))
    split
    · refine hfilter.append (List.nodup_singleton t) ?_
      simp
    · exact hfilter
  · intro u
    rw [mem_move_timerFreeList, hnode]
    by_cases hu : u = t
    · simp [hu, hn.free]
    · simp [hu, h.freeIff]
  · intro u
    rw [hnode]
    split
    · exact hn.refOk
    · exact h.refOk u
  · intro u
    rw [hnode]
    split
    · exact hn.dataOk
    · exact h.dataOk u
  · intro th
    rw [move_queue]
    have hfilter := (h.queueNodup th).filter (fun u => decide (u ≠ t))
    split
    · exact SortedQueue.nodup_insert (by simp) hfilter
    · exact hfilter
  · intro th
    rw [move_queue]
    have hfilter : SortedQueue.Sorted (s.move t n d).key ((s.queue th).filter (· ≠ t)) := by
      refine SortedQueue.sorted_congr ?_ (SortedQueue.sorted_filter _ (h.sorted th))
      intro u hu
      have hut : u ≠ t := by simpa using (List.mem_filter.mp hu).2
      simp [State.key, hut]
    split
    · exact SortedQueue.sorted_insert hfilter
    · exact hfilter
  · intro th u hu
    rw [hnode]
    rcases (s.mem_move_queue t u th n d).mp hu with ⟨rfl, hd⟩ | ⟨hut, hu⟩
    · simpa using hn.queue th hd
    · simpa [hut] using h.queued th u hu
  · intro u hu
    rw [hnode] at hu ⊢
    rw [move_threadActiveList]
    split at hu
    · simpa [*] using hn.placed hu
    · simpa [*] using h.placed u hu
  · intro u th hu harmed hth hout
    rw [mem_move_queue, not_or] at hout
    rw [hnode] at hu harmed hth ⊢
    by_cases hut : u = t
    · rw [if_pos hut] at hu harmed hth ⊢
      refine hn.dequeued hu harmed fun th' hd => hout.1 ⟨hut, ?_⟩
      have := (hn.queue th' hd).2.2.1
      rw [hd, Option.some.inj (this.symm.trans hth)]
    · rw [if_neg hut] at hu harmed hth ⊢
      exact h.dequeued u th hu harmed hth fun hmem => hout.2 ⟨hut, hmem⟩

theorem congr (h : s.Wf) (htimer : s'.timer = s.timer) (hqueue : ∀ th, s'.queue th = s.queue th)
    (hfree : s'.timerFreeList = s.timerFreeList) (htf : s'.threadFreeList = s.threadFreeList)
    (hta : s'.threadActiveList = s.threadActiveList) (hab : s'.aborted = s.aborted) : s'.Wf := by
  have hkey : s'.key = s.key := by
    funext u
    simp only [State.key, htimer]
  constructor
  · rw [hab]; exact h.running
  · rw [hfree]; exact h.freeNodup
  · rw [hfree, htimer]; exact h.freeIff
  · rw [htimer]; exact h.refOk
  · rw [htimer]; exact h.dataOk
  · intro th; rw [hqueue]; exact h.queueNodup th
  · intro th; rw [hqueue, hkey]; exact h.sorted th
  · intro th; rw [hqueue, htimer]; exact h.queued th
  · rw [htimer, hta]; exact h.placed
  · intro t th; rw [htimer, hqueue]; exact h.dequeued t th
  · rw [htf, hta]; exact h.threadNodup

theorem queue_unique (h : s.Wf) {th th' : ThreadId} (ht : t ∈ s.queue th) (ht' : t ∈ s.queue th') :
    th = th' :=
  Option.some.inj ((h.queued th t ht).2.2.1.symm.trans (h.queued th' t ht').2.2.1)

theorem queue_of_free (h : s.Wf) {th : ThreadId} (hth : th ∈ s.threadFreeList) : s.queue th = [] := by
  rw [List.eq_nil_iff_forall_not_mem]
  intro t ht
  obtain ⟨hin, -, hthread, -⟩ := h.queued th t ht
  obtain ⟨th', hactive, hthread'⟩ := h.placed t hin
  obtain rfl : th = th' := Option.some.inj (hthread.symm.trans hthread')
  exact (List.nodup_append.mp h.threadNodup).2.2 th hth th hactive rfl

end State.Wf

end Pc02.Timer

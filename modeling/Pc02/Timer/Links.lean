import Mathlib.Data.Fintype.Card
import Pc02.Lib.Machine
import Pc02.Lib.Ring
import Pc02.Timer.State

/-!
# The lists of the timer module in memory

Timers and threads are on their lists through links inside the nodes, and everything else in this
development takes the lists as sequences. Here the functions run on the links themselves, with the state
of the module beside them: what they do to the links is what the functions of the state do to the
sequences, as long as timers are queued on active threads only.
-/

namespace Pc02.Timer

open Machines Pc02.Lib

/-- Whatever holds a `struct list_links` that the module uses. -/
inductive LinkNode
  | timerFreeList
  | threadFreeList
  | threadActiveList
  | signalQueue
  | timer (t : TimerId)
  | thread (th : ThreadId)
  | queue (th : ThreadId)
deriving DecidableEq, Repr

abbrev TimerLinks := Links LinkNode

def zeroLinks : TimerLinks := ⟨fun _ => none, fun _ => none⟩

def timerLinks2ptr : LinkNode → Option TimerId
  | .timer t => some t
  | _ => none

def threadLinks2ptr : LinkNode → Option ThreadId
  | .thread th => some th
  | _ => none

namespace Linked

/-- `init_module`, which `reinit_after_fork` also runs on links that were in use. The queue of the signal
thread comes from `thread_init`. -/
def initModule (h : TimerLinks) : Option TimerLinks :=
  let h := h.listInit .timerFreeList
  let h := h.listInit .threadFreeList
  let h := h.listInit .threadActiveList
  (h.listAppendAll .timerFreeList ((List.finRange timerMax).map .timer)).bind fun h =>
    (h.listAppendAll .threadFreeList ((List.finRange threadMaxnodes).map .thread)).map fun h =>
      h.listInit .signalQueue

def timerAlloc (h : TimerLinks) : Option (TimerLinks × Option TimerId) :=
  (h.listFirst .timerFreeList).bind fun node =>
    if node ≠ .timerFreeList then
      (timerLinks2ptr node).bind fun timer => (h.listUnlinkIp node).map fun h => (h, some timer)
    else some (h, none)

def timerDealloc (h : TimerLinks) (timer : TimerId) : Option TimerLinks :=
  (h.listUnlinkIp (.timer timer)).bind fun h => h.listAppend .timerFreeList (.timer timer)

def timerThreadAlloc (h : TimerLinks) : Option (TimerLinks × Option ThreadId) :=
  (h.listFirst .threadFreeList).bind fun node =>
    if node ≠ .threadFreeList then
      (threadLinks2ptr node).bind fun thread => (h.listUnlink node).bind fun h =>
        -- `thread_init`
        let h := h.listInit (.queue thread)
        (h.listAppend .threadActiveList node).map fun h => (h, some thread)
    else some (h, none)

def timerThreadDealloc (h : TimerLinks) (thread : ThreadId) : Option TimerLinks :=
  (h.listUnlink (.thread thread)).bind fun h => h.listAppend .threadFreeList (.thread thread)

/-- The loop of `__timer_thread_queue_timer`; it walks into memory that is no timer, or for ever, when the
queue is no ring of timers. -/
def queueTimerLoop (h : TimerLinks) (expirytime : TimerId → Timespec) (insert : TimerId) (null : LinkNode) :
    Nat → LinkNode → Bool → Option (LinkNode × Bool)
  | 0, _, _ => none
  | rounds + 1, iter, athead =>
      if iter = null then some (iter, athead)
      else
        (timerLinks2ptr iter).bind fun timer =>
          if timespecCompare (expirytime insert) (expirytime timer) < 0 then some (iter, athead)
          else (h.listNext iter).bind fun iter => queueTimerLoop h expirytime insert null rounds iter false

/-- A queue holds no slot twice, so one round for each slot and one for the sentinel are enough. -/
def timerThreadQueueTimer (h : TimerLinks) (expirytime : TimerId → Timespec) (thread : ThreadId)
    (insert : TimerId) : Option (TimerLinks × Bool) :=
  (h.listFirst (.queue thread)).bind fun first =>
    (queueTimerLoop h expirytime insert (.queue thread) (timerMax + 1) first true).bind fun r =>
      (h.listInsbefore r.1 (.timer insert)).map fun h => (h, r.2)

end Linked

/-- The sequences of a state, each with its sentinel. A timer that is on no list is a list of its own. -/
inductive State.Lists (s : State) : LinkNode → List LinkNode → Prop
  | timerFree : Lists s .timerFreeList (s.timerFreeList.map .timer)
  | threadFree : Lists s .threadFreeList (s.threadFreeList.map .thread)
  | threadActive : Lists s .threadActiveList (s.threadActiveList.map .thread)
  | queue (th : ThreadId) : th ∈ s.threadActiveList → Lists s (.queue th) ((s.thread th).timerQueue.map .timer)
  | signal : Lists s .signalQueue []
  | unlinked (t : TimerId) : t ∉ s.timerFreeList → (∀ th ∈ s.threadActiveList, t ∉ (s.thread th).timerQueue) →
      Lists s (.timer t) []

/-- The links are those of the sequences, and every thread node is on one of the two lists of threads. -/
structure Represents (h : TimerLinks) (s : State) : Prop where
  rings : Rings h s.Lists
  placed : ∀ th, th ∈ s.threadFreeList ∨ th ∈ s.threadActiveList

variable {h h' : TimerLinks} {s : State} {t : TimerId} {th : ThreadId}

theorem timer_injective : Function.Injective LinkNode.timer := fun _ _ heq => LinkNode.timer.inj heq

theorem thread_injective : Function.Injective LinkNode.thread := fun _ _ heq => LinkNode.thread.inj heq

theorem represents_init (h : TimerLinks) : ∃ h', Linked.initModule h = some h' ∧ Represents h' initModule := by
  have hnone : Rings h fun _ _ => False := ⟨fun _ _ hl => hl.elim, fun _ _ _ _ _ hl => hl.elim⟩
  have hfree : ∀ a : LinkNode, Family.Free (fun _ _ => False) a := fun a _ _ hl => hl.elim
  have htimers := hnone.init (hfree .timerFreeList).off
  have hthreads := htimers.init ((hfree .threadFreeList).put (by simp)).off
  have hactive := hthreads.init (((hfree .threadActiveList).put (by simp)).put (by simp)).off
  have htimerNodup := (List.nodup_finRange timerMax).map timer_injective
  have hthreadNodup := (List.nodup_finRange threadMaxnodes).map thread_injective
  obtain ⟨h₁, hrun₁, htimers₁⟩ := hactive.appendAll (l := .timerFreeList) [] (by simp [Family.put]) htimerNodup (by
    intro a ha
    obtain ⟨t, -, rfl⟩ := List.mem_map.mp ha
    exact (((hfree _).put (by simp)).put (by simp)).put (by simp))
  obtain ⟨h₂, hrun₂, hthreads₂⟩ := htimers₁.appendAll (l := .threadFreeList) [] (by simp [Family.put]) hthreadNodup (by
    intro a ha
    obtain ⟨th, -, rfl⟩ := List.mem_map.mp ha
    exact ((((hfree _).put (by simp)).put (by simp)).put (by simp)).put (by simp))
  have hsignal := hthreads₂.init (l := .signalQueue)
    ((((((hfree _).put (by simp)).put (by simp)).put (by simp)).put (by simp)).put (by simp)).off
  refine ⟨h₂.listInit .signalQueue, by simp [Linked.initModule, hrun₁, hrun₂], hsignal.mono ?_, ?_⟩
  · rintro l xs hl
    cases hl with
    | timerFree => simp [Family.put, initModule]
    | threadFree => simp [Family.put, initModule]
    | threadActive => simp [Family.put, initModule]
    | signal => simp [Family.put]
    | queue th hth => exact absurd hth (List.not_mem_nil)
    | unlinked t ht => simp [initModule] at ht
  · simp [initModule]

namespace State

theorem lists_listUnlinkIp {l : LinkNode} {xs : List LinkNode} (hl : (s.listUnlinkIp t).Lists l xs) :
    l = .timer t ∧ xs = [] ∨ l ≠ .timer t ∧ ∃ ys, s.Lists l ys ∧ xs = ys.filter (· ≠ LinkNode.timer t) := by
  have hthreads : ∀ ths : List ThreadId,
      ths.map LinkNode.thread = (ths.map LinkNode.thread).filter (· ≠ LinkNode.timer t) :=
    fun ths => (filter_ne_of_notMem (by simp)).symm
  have htimers : ∀ ts : List TimerId,
      (ts.filter (· ≠ t)).map LinkNode.timer = (ts.map LinkNode.timer).filter (· ≠ LinkNode.timer t) :=
    fun ts => by simp [List.filter_map, Function.comp_def]
  cases hl with
  | timerFree => exact .inr ⟨nofun, _, .timerFree, htimers _⟩
  | threadFree => exact .inr ⟨nofun, _, .threadFree, hthreads _⟩
  | threadActive => exact .inr ⟨nofun, _, .threadActive, hthreads _⟩
  | queue th hth => exact .inr ⟨nofun, _, .queue th hth, htimers _⟩
  | signal => exact .inr ⟨nofun, _, .signal, rfl⟩
  | unlinked u hfree hqueue =>
      by_cases hut : u = t
      · exact .inl ⟨congrArg _ hut, rfl⟩
      · have hfree' : u ∉ s.timerFreeList := by simpa [listUnlinkIp, hut] using hfree
        have hqueue' : ∀ th ∈ s.threadActiveList, u ∉ (s.thread th).timerQueue := by
          simpa [listUnlinkIp, hut] using hqueue
        exact .inr ⟨by simpa using hut, _, .unlinked u hfree' hqueue', rfl⟩

/-- `__timer_thread_dealloc` takes a node whose queue is empty from one list of threads to the end of the other. -/
theorem lists_timerThreadDealloc {l : LinkNode} {xs : List LinkNode}
    (hempty : th ∈ s.threadActiveList → (s.thread th).timerQueue = []) (hl : (s.timerThreadDealloc th).Lists l xs) :
    l = .threadFreeList ∧ xs = (s.threadFreeList.map LinkNode.thread).filter (· ≠ LinkNode.thread th) ++ [.thread th] ∨
    l ≠ .threadFreeList ∧ ∃ ys, s.Lists l ys ∧ xs = ys.filter (· ≠ LinkNode.thread th) := by
  have hthreads : ∀ ths : List ThreadId,
      (ths.filter (· ≠ th)).map LinkNode.thread = (ths.map LinkNode.thread).filter (· ≠ LinkNode.thread th) :=
    fun ths => by simp [List.filter_map, Function.comp_def]
  have htimers : ∀ ts : List TimerId,
      ts.map LinkNode.timer = (ts.map LinkNode.timer).filter (· ≠ LinkNode.thread th) :=
    fun ts => (filter_ne_of_notMem (by simp)).symm
  cases hl with
  | timerFree => exact .inr ⟨nofun, _, .timerFree, htimers _⟩
  | threadFree =>
      refine .inl ⟨rfl, ?_⟩
      rw [← hthreads]
      exact List.map_append
  | threadActive => exact .inr ⟨nofun, _, .threadActive, hthreads _⟩
  | queue th' hth' => exact .inr ⟨nofun, _, .queue th' (List.mem_of_mem_filter hth'), htimers _⟩
  | signal => exact .inr ⟨nofun, _, .signal, rfl⟩
  | unlinked u hfree hqueue =>
      refine .inr ⟨nofun, _, .unlinked u hfree fun th' hth' => ?_, rfl⟩
      by_cases hne : th' = th
      · subst hne
        simp [hempty hth']
      · exact hqueue th' (List.mem_filter.mpr ⟨hth', by simpa using hne⟩)

theorem exists_lists_timer (s : State) (t : TimerId) :
    s.Lists (.timer t) [] ∨ ∃ l xs ys, s.Lists l (xs ++ .timer t :: ys) := by
  by_cases hfree : t ∈ s.timerFreeList
  · obtain ⟨xs, ys, hxs⟩ := List.append_of_mem (List.mem_map_of_mem (f := LinkNode.timer) hfree)
    refine .inr ⟨.timerFreeList, xs, ys, ?_⟩
    rw [← hxs]
    exact .timerFree
  · by_cases hqueue : ∃ th ∈ s.threadActiveList, t ∈ (s.thread th).timerQueue
    · obtain ⟨th, hth, ht⟩ := hqueue
      obtain ⟨xs, ys, hxs⟩ := List.append_of_mem (List.mem_map_of_mem (f := LinkNode.timer) ht)
      refine .inr ⟨.queue th, xs, ys, ?_⟩
      rw [← hxs]
      exact .queue th hth
    · exact .inl (.unlinked t hfree fun th hth ht => hqueue ⟨th, hth, ht⟩)

theorem off_queue (s : State) (th : ThreadId) : Family.Off s.Lists (.queue th) := by
  intro l xs hl hmem
  cases hl with
  | timerFree => simp at hmem
  | threadFree => simp at hmem
  | threadActive => simp at hmem
  | queue th' hth' => simp_all
  | signal => simp at hmem
  | unlinked t hfree hqueue => simp at hmem

end State

/-- On a ring of timers the loop stops where the loop over the sequence does. -/
theorem Linked.queueTimerLoop_eq (expirytime : TimerId → Timespec) (t : TimerId) {ys : List TimerId} {rounds : Nat}
    (hpath : Path h.next (ys.map .timer ++ [.queue th])) (hrounds : ys.length < rounds) (athead : Bool) :
    ∃ us vs b, ys = us ++ vs ∧
      Linked.queueTimerLoop h expirytime t (.queue th) rounds ((ys.map .timer).headD (.queue th)) athead =
        some ((vs.map .timer).headD (.queue th), b) ∧
      State.queueTimerLoop expirytime t ys athead = (us ++ t :: vs, b) := by
  induction ys generalizing rounds athead with
  | nil =>
      obtain ⟨rounds, rfl⟩ := Nat.exists_eq_add_of_lt hrounds
      exact ⟨[], [], athead, rfl, by simp [Linked.queueTimerLoop], rfl⟩
  | cons y ys ih =>
      obtain ⟨rounds, rfl⟩ : ∃ n, rounds = n + 1 := ⟨rounds - 1, by omega⟩
      by_cases hlt : timespecCompare (expirytime t) (expirytime y) < 0
      · refine ⟨[], y :: ys, athead, rfl, ?_, ?_⟩
        · simp [Linked.queueTimerLoop, timerLinks2ptr, hlt]
        · simp [State.queueTimerLoop, hlt]
      · have hnext : h.next (.timer y) = some ((ys.map .timer).headD (.queue th)) := by
          cases ys with
          | nil => exact (path_cons_cons.mp hpath).1
          | cons z ys => exact (path_cons_cons.mp hpath).1
        obtain ⟨us, vs, b, rfl, hlinks, hloop⟩ := ih hpath.tail (Nat.lt_of_succ_lt_succ hrounds) false
        refine ⟨y :: us, vs, b, rfl, ?_, ?_⟩
        · rw [List.map_cons, List.headD_cons, Linked.queueTimerLoop, if_neg nofun, timerLinks2ptr, Option.bind_some,
            if_neg hlt, Links.listNext, hnext, Option.bind_some, hlinks]
        · simp [State.queueTimerLoop, hlt, hloop]

namespace Represents

theorem congr {s' : State} (hrep : Represents h s) (htimers : s'.timerFreeList = s.timerFreeList)
    (hthreads : s'.threadFreeList = s.threadFreeList) (hactive : s'.threadActiveList = s.threadActiveList)
    (hqueue : ∀ th, (s'.thread th).timerQueue = (s.thread th).timerQueue) : Represents h s' where
  rings := by
    apply hrep.rings.mono
    intro l xs hl
    cases hl with
    | timerFree => exact htimers ▸ .timerFree
    | threadFree => exact hthreads ▸ .threadFree
    | threadActive => exact hactive ▸ .threadActive
    | queue th hth => exact hqueue th ▸ .queue th (hactive ▸ hth)
    | signal => exact .signal
    | unlinked t hfree hqueues =>
        refine .unlinked t (htimers ▸ hfree) fun th hth => ?_
        rw [← hqueue th]
        exact hqueues th (hactive ▸ hth)
  placed := by
    rw [hthreads, hactive]
    exact hrep.placed

theorem setTimer (hrep : Represents h s) (t : TimerId) (f : TimerNode → TimerNode) :
    Represents h (s.setTimer t f) :=
  hrep.congr rfl rfl rfl fun _ => rfl

theorem assert (hrep : Represents h s) (c : Bool) : Represents h (s.assert c) := hrep.congr rfl rfl rfl fun _ => rfl

theorem listUnlinkIp (hrep : Represents h s) (t : TimerId) :
    ∃ h', h.listUnlinkIp (.timer t) = some h' ∧ Represents h' (s.listUnlinkIp t) := by
  rcases s.exists_lists_timer t with hself | ⟨l, xs, ys, hl⟩
  · refine ⟨h, Ring.unlinkIp_selfLinked (ring_nil_iff.mp (hrep.rings.ring _ _ hself)), hrep.rings.mono ?_, hrep.placed⟩
    intro l' xs' hl'
    rcases State.lists_listUnlinkIp hl' with ⟨rfl, rfl⟩ | ⟨hne, zs, hzs, rfl⟩
    · exact hself
    · rwa [filter_ne_of_notMem]
      intro hmem
      exact hne (hrep.rings.off hself l' zs hzs (List.mem_cons_of_mem _ hmem))
  · obtain ⟨h', hrun, hrings⟩ := hrep.rings.unlinkIp hl
    refine ⟨h', hrun, hrings.mono ?_, hrep.placed⟩
    intro l' xs' hl'
    rcases State.lists_listUnlinkIp hl' with ⟨rfl, rfl⟩ | ⟨hne, zs, hzs, rfl⟩
    · exact .inl ⟨rfl, rfl⟩
    · exact .inr ⟨hne, hrep.rings.put_filter hl hzs⟩

theorem timerAlloc (hrep : Represents h s) :
    (s.timerAlloc = none ∧ Linked.timerAlloc h = some (h, none)) ∨
    ∃ s' t h', s.timerAlloc = some (s', t) ∧ Linked.timerAlloc h = some (h', some t) ∧ Represents h' s' := by
  have hfirst := (hrep.rings.ring _ _ .timerFree).first
  cases hfree : s.timerFreeList with
  | nil =>
      rw [hfree, List.map_nil, List.headD_nil] at hfirst
      exact .inl ⟨by rw [State.timerAlloc, hfree], by simp [Linked.timerAlloc, Links.listFirst, hfirst]⟩
  | cons t rest =>
      rw [hfree, List.map_cons, List.headD_cons] at hfirst
      obtain ⟨h', hunlink, hrep'⟩ := hrep.listUnlinkIp t
      refine .inr ⟨_, t, h', by rw [State.timerAlloc, hfree], ?_, hrep'.setTimer t _⟩
      simp [Linked.timerAlloc, Links.listFirst, hfirst, timerLinks2ptr, hunlink]

theorem timerDealloc (hrep : Represents h s) (t : TimerId) :
    ∃ h', Linked.timerDealloc h t = some h' ∧ Represents h' (s.timerDealloc t) := by
  obtain ⟨h₁, hunlink, hrep₁⟩ := (hrep.assert ((s.timer t).refcount = 0)).listUnlinkIp t
  replace hrep₁ := hrep₁.setTimer t fun n => { n with thread := none, inuse := .free }
  generalize hs₁ : State.setTimer _ t _ = s₁ at hrep₁
  have hself : s₁.Lists (.timer t) [] := by
    subst hs₁
    apply State.Lists.unlinked
    · simp [State.setTimer, State.listUnlinkIp]
    · simp [State.setTimer, State.listUnlinkIp]
  obtain ⟨h₂, happend, hrings⟩ := hrep₁.rings.append .timerFree (hrep₁.rings.off hself) nofun
  have hs : s.timerDealloc t = { s₁ with timerFreeList := s₁.timerFreeList ++ [t] } := by
    subst hs₁
    rfl
  refine ⟨h₂, by simp [Linked.timerDealloc, hunlink, happend], ?_⟩
  rw [hs]
  refine ⟨hrings.mono ?_, hrep₁.placed⟩
  intro l xs hl
  cases hl with
  | timerFree => exact .inl ⟨rfl, List.map_append⟩
  | threadFree => exact .inr ⟨nofun, nofun, .threadFree⟩
  | threadActive => exact .inr ⟨nofun, nofun, .threadActive⟩
  | queue th hth => exact .inr ⟨nofun, nofun, .queue th hth⟩
  | signal => exact .inr ⟨nofun, nofun, .signal⟩
  | unlinked u hfree hqueue =>
      rw [List.mem_append, not_or, List.mem_singleton] at hfree
      exact .inr ⟨nofun, fun heq => hfree.2 (LinkNode.timer.inj heq), .unlinked u hfree.1 hqueue⟩

theorem thread_notMem (hrep : Represents h s) (hfree : th ∈ s.threadFreeList) : th ∉ s.threadActiveList := by
  intro hactive
  have heq := hrep.rings.apart _ _ _ _ (LinkNode.thread th) .threadFree .threadActive
    (List.mem_cons_of_mem _ (List.mem_map_of_mem hfree)) (List.mem_cons_of_mem _ (List.mem_map_of_mem hactive))
  exact LinkNode.noConfusion heq.1

theorem timerThreadAlloc (hrep : Represents h s) (attr : Attr) (clock : ClockId) :
    (s.timerThreadAlloc attr clock = none ∧ Linked.timerThreadAlloc h = some (h, none)) ∨
    ∃ s' th h', s.timerThreadAlloc attr clock = some (s', th) ∧ Linked.timerThreadAlloc h = some (h', some th) ∧
      Represents h' s' := by
  have hfirst := (hrep.rings.ring _ _ .threadFree).first
  cases hfree : s.threadFreeList with
  | nil =>
      rw [hfree, List.map_nil, List.headD_nil] at hfirst
      exact .inl ⟨by rw [State.timerThreadAlloc, hfree], by simp [Linked.timerThreadAlloc, Links.listFirst, hfirst]⟩
  | cons th rest =>
      rw [hfree, List.map_cons, List.headD_cons] at hfirst
      have hlist : s.Lists .threadFreeList ([] ++ .thread th :: rest.map .thread) := by
        have hthreads : s.Lists .threadFreeList (s.threadFreeList.map .thread) := .threadFree
        rwa [hfree] at hthreads
      have hidle : th ∉ s.threadActiveList := hrep.thread_notMem (hfree ▸ List.mem_cons_self)
      obtain ⟨h₁, hunlink, hrings₁⟩ := hrep.rings.unlink hlist
      have hrings₂ := hrings₁.init ((s.off_queue th).put (by simp))
      obtain ⟨h₃, happend, hrings₃⟩ := hrings₂.append (l := .threadActiveList)
        (.inr ⟨nofun, .inr ⟨nofun, .threadActive⟩⟩) ((hrep.rings.free_put hlist).put (by simp)).off nofun
      refine .inr ⟨_, th, h₃, by rw [State.timerThreadAlloc, hfree], ?_, hrings₃.mono ?_, ?_⟩
      · simp [Linked.timerThreadAlloc, Links.listFirst, hfirst, threadLinks2ptr, hunlink, happend]
      · intro l xs hl
        cases hl with
        | timerFree => exact .inr ⟨nofun, nofun, .inr ⟨nofun, .inr ⟨nofun, .timerFree⟩⟩⟩
        | threadFree => exact .inr ⟨nofun, nofun, .inr ⟨nofun, .inl ⟨rfl, rfl⟩⟩⟩
        | threadActive => exact .inl ⟨rfl, List.map_append⟩
        | signal => exact .inr ⟨nofun, nofun, .inr ⟨nofun, .inr ⟨nofun, .signal⟩⟩⟩
        | queue th' hth' =>
            refine .inr ⟨nofun, nofun, ?_⟩
            by_cases hne : th' = th
            · exact .inl ⟨congrArg _ hne, by simp [State.threadInit, State.setThread, hne]⟩
            · have hactive : th' ∈ s.threadActiveList := by
                simpa [State.threadInit, State.setThread, hne] using hth'
              refine .inr ⟨by simpa using hne, .inr ⟨nofun, ?_⟩⟩
              have hqueue := State.Lists.queue th' hactive
              simpa [State.threadInit, State.setThread, hne] using hqueue
        | unlinked u htimer hqueue =>
            refine .inr ⟨nofun, nofun, .inr ⟨nofun, .inr ⟨nofun, .unlinked u htimer fun th' hth' => ?_⟩⟩⟩
            have hne : th' ≠ th := by
              rintro rfl
              exact hidle hth'
            have hout' := hqueue th' (List.mem_append_left _ hth')
            simpa [State.threadInit, State.setThread, hne] using hout'
      · intro th'
        have hplaced := hrep.placed th'
        rw [hfree, List.mem_cons] at hplaced
        simp only [State.threadInit, State.setThread, List.mem_append, List.mem_singleton]
        tauto

theorem timerThreadDealloc (hrep : Represents h s) (hempty : h.listIsempty (.queue th) = true) :
    ∃ h', Linked.timerThreadDealloc h th = some h' ∧ Represents h' (s.timerThreadDealloc th) := by
  have hqueue : th ∈ s.threadActiveList → (s.thread th).timerQueue = [] := by
    intro hth
    have hfirst := (hrep.rings.ring _ _ (.queue th hth)).first
    rw [Links.listIsempty, decide_eq_true_eq, hfirst] at hempty
    cases hq : (s.thread th).timerQueue with
    | nil => rfl
    | cons t q => simp [hq] at hempty
  obtain ⟨l, xs, ys, hl⟩ : ∃ l xs ys, s.Lists l (xs ++ .thread th :: ys) := by
    rcases hrep.placed th with hth | hth
    · obtain ⟨xs, ys, hxs⟩ := List.append_of_mem (List.mem_map_of_mem (f := LinkNode.thread) hth)
      exact ⟨.threadFreeList, xs, ys, hxs ▸ State.Lists.threadFree⟩
    · obtain ⟨xs, ys, hxs⟩ := List.append_of_mem (List.mem_map_of_mem (f := LinkNode.thread) hth)
      exact ⟨.threadActiveList, xs, ys, hxs ▸ State.Lists.threadActive⟩
  obtain ⟨h₁, hunlink, hrings₁⟩ := hrep.rings.unlink hl
  obtain ⟨h₂, happend, hrings₂⟩ := hrings₁.append (hrep.rings.put_filter hl .threadFree)
    (hrep.rings.free_put hl).off nofun
  refine ⟨h₂, by simp [Linked.timerThreadDealloc, hunlink, happend], hrings₂.mono ?_, ?_⟩
  · intro l' xs' hl'
    rcases State.lists_timerThreadDealloc hqueue hl' with ⟨rfl, rfl⟩ | ⟨hne, zs, hzs, rfl⟩
    · exact .inl ⟨rfl, rfl⟩
    · refine .inr ⟨hne, ?_, hrep.rings.put_filter hl hzs⟩
      rintro rfl
      cases hzs
  · intro th'
    have hplaced := hrep.placed th'
    simp only [State.timerThreadDealloc, State.assert, List.mem_append, List.mem_filter, List.mem_singleton,
      decide_eq_true_eq]
    tauto

theorem unlinked (hrep : Represents h s) (hself : h.SelfLinked (.timer t)) : s.Lists (.timer t) [] := by
  rcases s.exists_lists_timer t with hlist | ⟨l, xs, ys, hl⟩
  · exact hlist
  · exact absurd hself ((hrep.rings.ring _ _ hl).not_selfLinked (by simp))

theorem timerThreadQueueTimer (hrep : Represents h s) (hth : th ∈ s.threadActiveList)
    (hself : h.SelfLinked (.timer t)) :
    ∃ h', Linked.timerThreadQueueTimer h (fun u => (s.timer u).expirytime) th t =
        some (h', (s.timerThreadQueueTimer th t).2) ∧ Represents h' (s.timerThreadQueueTimer th t).1 := by
  have hring := hrep.rings.ring _ _ (.queue th hth)
  have hrounds : (s.thread th).timerQueue.length < timerMax + 1 := by
    have hnodup := List.Nodup.of_map _ (List.nodup_cons.mp hring.distinct).2
    have hlength := hnodup.length_le_card
    rw [Fintype.card_fin] at hlength
    exact Nat.lt_succ_of_le hlength
  obtain ⟨us, vs, athead, hsplit, hlinks, hloop⟩ := Linked.queueTimerLoop_eq
    (fun u => (s.timer u).expirytime) t hring.forward.tail hrounds true
  have hlist : s.Lists (.queue th) (us.map .timer ++ vs.map .timer) := by
    rw [← List.map_append, ← hsplit]
    exact .queue th hth
  obtain ⟨h', hins, hrings⟩ := hrep.rings.insbefore hlist (hrep.rings.off (hrep.unlinked hself)) nofun
  refine ⟨h', ?_, hrings.mono ?_, hrep.placed⟩
  · rw [Linked.timerThreadQueueTimer, Links.listFirst, hring.first, Option.bind_some, hlinks, Option.bind_some, hins,
      State.timerThreadQueueTimer, hloop]
    rfl
  · rw [State.timerThreadQueueTimer, hloop]
    intro l xs hl
    cases hl with
    | timerFree => exact .inr ⟨nofun, nofun, .timerFree⟩
    | threadFree => exact .inr ⟨nofun, nofun, .threadFree⟩
    | threadActive => exact .inr ⟨nofun, nofun, .threadActive⟩
    | signal => exact .inr ⟨nofun, nofun, .signal⟩
    | queue th' hth' =>
        by_cases hne : th' = th
        · exact .inl ⟨congrArg _ hne, by simp [State.setThread, hne]⟩
        · refine .inr ⟨by simpa using hne, nofun, ?_⟩
          have hqueue := State.Lists.queue (s := s) th' hth'
          simpa [State.setThread, hne] using hqueue
    | unlinked u htimer hqueue =>
        have hnew : u ∉ us ∧ u ≠ t ∧ u ∉ vs := by simpa [State.setThread] using hqueue th hth
        refine .inr ⟨nofun, by simpa using hnew.2.1, .unlinked u htimer fun th' hth' => ?_⟩
        by_cases hne : th' = th
        · subst hne
          simp [hsplit, hnew]
        · have hold := hqueue th' hth'
          simpa [State.setThread, hne] using hold

end Represents

/-- The calls that reach the lists. The last one stands for the rest of the module, which writes the other
fields of a slot. -/
inductive LinkCall
  | timerAlloc
  | timerDealloc (t : TimerId)
  | timerThreadAlloc (attr : Attr) (clock : ClockId)
  | timerThreadDealloc (th : ThreadId)
  | timerThreadQueueTimer (th : ThreadId) (t : TimerId)
  | listUnlinkIp (t : TimerId)
  | write (t : TimerId) (node : TimerNode)

inductive Returned
  | nothing
  | timer (t : TimerT)
  | thread (th : Option ThreadId)
  | athead (b : Bool)
deriving DecidableEq, Repr

namespace LinkCall

def links (h : TimerLinks) (s : State) : LinkCall → Option (TimerLinks × Returned)
  | .timerAlloc => (Linked.timerAlloc h).map fun r => (r.1, .timer r.2)
  | .timerDealloc t => (Linked.timerDealloc h t).map fun h => (h, .nothing)
  | .timerThreadAlloc _ _ => (Linked.timerThreadAlloc h).map fun r => (r.1, .thread r.2)
  | .timerThreadDealloc th => (Linked.timerThreadDealloc h th).map fun h => (h, .nothing)
  | .timerThreadQueueTimer th t =>
      (Linked.timerThreadQueueTimer h (fun u => (s.timer u).expirytime) th t).map fun r => (r.1, .athead r.2)
  | .listUnlinkIp t => (h.listUnlinkIp (.timer t)).map fun h => (h, .nothing)
  | .write _ _ => some (h, .nothing)

def run (s : State) : LinkCall → State × Returned
  | .timerAlloc => s.timerAlloc.elim (s, .timer none) fun r => (r.1, .timer (some r.2))
  | .timerDealloc t => (s.timerDealloc t, .nothing)
  | .timerThreadAlloc attr clock =>
      (s.timerThreadAlloc attr clock).elim (s, .thread none) fun r => (r.1, .thread (some r.2))
  | .timerThreadDealloc th => (s.timerThreadDealloc th, .nothing)
  | .timerThreadQueueTimer th t => ((s.timerThreadQueueTimer th t).1, .athead (s.timerThreadQueueTimer th t).2)
  | .listUnlinkIp t => (s.listUnlinkIp t, .nothing)
  | .write t node => (s.setTimer t fun _ => node, .nothing)

/-- The queue of a thread that is given back is empty, as `thread_deinit` asserts, and a timer that is queued
is on no list. -/
def Allowed (h : TimerLinks) : LinkCall → Prop
  | .timerThreadDealloc th => h.listIsempty (.queue th) = true
  | .timerThreadQueueTimer _ t => h.SelfLinked (.timer t)
  | _ => True

def OnActive (s : State) : LinkCall → Prop
  | .timerThreadQueueTimer th _ => th ∈ s.threadActiveList
  | _ => True

instance (h : TimerLinks) : (call : LinkCall) → Decidable (call.Allowed h)
  | .timerThreadDealloc th => inferInstanceAs (Decidable (h.listIsempty (.queue th) = true))
  | .timerThreadQueueTimer _ t => inferInstanceAs (Decidable (h.SelfLinked (.timer t)))
  | .timerAlloc | .timerDealloc _ | .timerThreadAlloc _ _ | .listUnlinkIp _ | .write _ _ => .isTrue trivial

instance (s : State) : (call : LinkCall) → Decidable (call.OnActive s)
  | .timerThreadQueueTimer th _ => inferInstanceAs (Decidable (th ∈ s.threadActiveList))
  | .timerAlloc | .timerDealloc _ | .timerThreadAlloc _ _ | .timerThreadDealloc _ | .listUnlinkIp _ | .write _ _ =>
      .isTrue trivial

end LinkCall

def linkedLists (h : TimerLinks) : Machine (TimerLinks × State) LinkCall Returned where
  init := (h, initModule)
  step S call := (call.links S.1 S.2).map fun r => ((r.1, (call.run S.2).1), [r.2])

/-- A call does to the links what it does to the sequences, and returns the same. -/
theorem Represents.call (hrep : Represents h s) {call : LinkCall} (hallowed : call.Allowed h)
    (hactive : call.OnActive s) :
    ∃ h', call.links h s = some (h', (call.run s).2) ∧ Represents h' (call.run s).1 := by
  cases call with
  | timerAlloc =>
      rcases hrep.timerAlloc with ⟨hnone, hlinks⟩ | ⟨s', t, h', hsome, hlinks, hrep'⟩
      · exact ⟨h, by simp [LinkCall.links, LinkCall.run, hlinks, hnone], by simpa [LinkCall.run, hnone] using hrep⟩
      · exact ⟨h', by simp [LinkCall.links, LinkCall.run, hlinks, hsome], by simpa [LinkCall.run, hsome] using hrep'⟩
  | timerDealloc t =>
      obtain ⟨h', hlinks, hrep'⟩ := hrep.timerDealloc t
      exact ⟨h', by simp [LinkCall.links, LinkCall.run, hlinks], hrep'⟩
  | timerThreadAlloc attr clock =>
      rcases hrep.timerThreadAlloc attr clock with ⟨hnone, hlinks⟩ | ⟨s', th, h', hsome, hlinks, hrep'⟩
      · exact ⟨h, by simp [LinkCall.links, LinkCall.run, hlinks, hnone], by simpa [LinkCall.run, hnone] using hrep⟩
      · exact ⟨h', by simp [LinkCall.links, LinkCall.run, hlinks, hsome], by simpa [LinkCall.run, hsome] using hrep'⟩
  | timerThreadDealloc th =>
      obtain ⟨h', hlinks, hrep'⟩ := hrep.timerThreadDealloc hallowed
      exact ⟨h', by simp [LinkCall.links, LinkCall.run, hlinks], hrep'⟩
  | timerThreadQueueTimer th t =>
      obtain ⟨h', hlinks, hrep'⟩ := hrep.timerThreadQueueTimer hactive hallowed
      exact ⟨h', by simp [LinkCall.links, LinkCall.run, hlinks], hrep'⟩
  | listUnlinkIp t =>
      obtain ⟨h', hlinks, hrep'⟩ := hrep.listUnlinkIp t
      exact ⟨h', by simp [LinkCall.links, LinkCall.run, hlinks], hrep'⟩
  | write t node => exact ⟨h, rfl, hrep.setTimer t fun _ => node⟩

/-- What holds of the links after any calls: every list is a ring, no two have a node in common, a slot that
is on none of them is linked to itself, each function does to the links what it does to the sequences, and
so does each call. -/
structure ListsSound (h : TimerLinks) (s : State) : Prop where
  rings : Rings h s.Lists
  inverse : ∀ l xs, s.Lists l xs → ∀ a ∈ l :: xs, ∀ b ∈ l :: xs, h.next a = some b ↔ h.prev b = some a
  unlinked : ∀ t, t ∉ s.timerFreeList → (∀ th ∈ s.threadActiveList, t ∉ (s.thread th).timerQueue) →
    h.SelfLinked (.timer t)
  idempotent : ∀ a, h.SelfLinked a → h.listUnlinkIp a = some h
  append : ∀ l xs a, s.Lists l xs → Family.Off s.Lists a → a ≠ l →
    ∃ h', h.listAppend l a = some h' ∧ Rings h' ((Family.drop s.Lists a).put l (xs ++ [a]))
  insbefore : ∀ l xs ys a, s.Lists l (xs ++ ys) → Family.Off s.Lists a → a ≠ l →
    ∃ h', h.listInsbefore (ys.headD l) a = some h' ∧ Rings h' ((Family.drop s.Lists a).put l (xs ++ a :: ys))
  unlinkIp : ∀ l xs a ys, s.Lists l (xs ++ a :: ys) →
    ∃ h', h.listUnlinkIp a = some h' ∧ Rings h' ((Family.put s.Lists l (xs ++ ys)).put a [])
  calls : ∀ call : LinkCall, call.Allowed h → call.OnActive s →
    ∃ h', call.links h s = some (h', (call.run s).2) ∧ Rings h' (call.run s).1.Lists

theorem Represents.sound (hrep : Represents h s) : ListsSound h s where
  rings := hrep.rings
  inverse l xs hl a ha b hb := (hrep.rings.ring l xs hl).next_iff_prev ha hb
  unlinked t hfree hqueue := ring_nil_iff.mp (hrep.rings.ring _ _ (.unlinked t hfree hqueue))
  idempotent a hself := Ring.unlinkIp_selfLinked hself
  append l xs a hl ha hne := hrep.rings.append hl ha hne
  insbefore l xs ys a hl ha hne := hrep.rings.insbefore hl ha hne
  unlinkIp l xs a ys hl := hrep.rings.unlinkIp hl
  calls call hallowed hactive := by
    obtain ⟨h', hlinks, hrep'⟩ := hrep.call hallowed hactive
    exact ⟨h', hlinks, hrep'.rings⟩

theorem represents_of_steps {events : List Returned} {S : TimerLinks × State} (hinit : Represents h initModule)
    (hsteps : Steps (linkedLists h) (fun S call => call.Allowed S.1 ∧ call.OnActive S.2) (linkedLists h).init events S) :
    Represents S.1 S.2 := by
  apply hsteps.invariant (I := fun S => Represents S.1 S.2)
  · rintro S call S' events' hrep ⟨hallowed, hactive⟩ hstep
    obtain ⟨h', hlinks, hrep'⟩ := hrep.call hallowed hactive
    simp only [linkedLists, hlinks, Option.map_some, Option.some.injEq, Prod.mk.injEq] at hstep
    obtain ⟨rfl, -⟩ := hstep
    exact hrep'
  · exact hinit

/-- From whatever the links were, `init_module` returns, and the lists are sound after any calls that queue
timers on active threads. -/
theorem lists_sound (h : TimerLinks) : ∃ h', Linked.initModule h = some h' ∧ ∀ events S,
    Steps (linkedLists h') (fun S call => call.Allowed S.1 ∧ call.OnActive S.2) (linkedLists h').init events S →
    ListsSound S.1 S.2 := by
  obtain ⟨h', hrun, hinit⟩ := represents_init h
  exact ⟨h', hrun, fun events S hsteps => (represents_of_steps hinit hsteps).sound⟩

/-- Two timers are queued on a thread, one of them is unlinked twice and released twice. -/
def releasedTwice : List LinkCall :=
  [.timerAlloc, .timerThreadAlloc pthreadAttrInit .monotonic, .timerThreadQueueTimer 0 0, .timerAlloc,
    .timerThreadQueueTimer 0 1, .listUnlinkIp 0, .listUnlinkIp 0, .write 0 zeroTimerNode, .timerDealloc 0,
    .timerDealloc 0]

theorem lists_sound_releasedTwice : ∃ h events S, Linked.initModule zeroLinks = some h ∧
    Steps (linkedLists h) (fun S call => call.Allowed S.1 ∧ call.OnActive S.2) (linkedLists h).init events S ∧
    S.2.timerFreeList.getLast? = some 0 ∧ (S.2.thread 0).timerQueue = [1] ∧ S.2.aborted = false ∧
    ListsSound S.1 S.2 := by
  obtain ⟨h, hinit, hsound⟩ := lists_sound zeroLinks
  have hany : ((Linked.initModule zeroLinks).any fun h =>
      ((linkedLists h).exec (fun S call => call.Allowed S.1 ∧ call.OnActive S.2) (linkedLists h).init
        releasedTwice).any fun r => decide (r.1.2.timerFreeList.getLast? = some 0 ∧
          (r.1.2.thread 0).timerQueue = [1] ∧ r.1.2.aborted = false)) = true := by decide +kernel
  rw [hinit, Option.any_some] at hany
  obtain ⟨S, events, hsteps, htest⟩ := exists_steps_of_exec releasedTwice hany
  obtain ⟨hlast, hqueue, hrunning⟩ := of_decide_eq_true htest
  exact ⟨h, events, S, hinit, hsteps, hlast, hqueue, hrunning, hsound events S hsteps⟩

def idleQueue : List LinkCall :=
  [.timerThreadAlloc pthreadAttrInit .monotonic, .timerThreadDealloc 0, .timerAlloc, .timerThreadQueueTimer 0 0]

/-- The queue of an idle thread takes the timer, which then is on no list of the module and not linked to itself. -/
theorem queued_on_idle_thread : ∃ h events S, Linked.initModule zeroLinks = some h ∧
    Steps (linkedLists h) (fun S call => call.Allowed S.1) (linkedLists h).init events S ∧
    0 ∉ S.2.timerFreeList ∧ S.2.threadActiveList = [] ∧ ¬ S.1.SelfLinked (.timer 0) ∧ ¬ ListsSound S.1 S.2 := by
  obtain ⟨h, hinit, -⟩ := represents_init zeroLinks
  have hany : ((Linked.initModule zeroLinks).any fun h =>
      ((linkedLists h).exec (fun S call => call.Allowed S.1) (linkedLists h).init idleQueue).any fun r =>
        decide (0 ∉ r.1.2.timerFreeList ∧ r.1.2.threadActiveList = [] ∧ ¬ r.1.1.SelfLinked (.timer 0))) = true := by
    decide +kernel
  rw [hinit, Option.any_some] at hany
  obtain ⟨S, events, hsteps, htest⟩ := exists_steps_of_exec idleQueue hany
  obtain ⟨hfree, hactive, hself⟩ : 0 ∉ S.2.timerFreeList ∧ S.2.threadActiveList = [] ∧
    ¬ S.1.SelfLinked (.timer 0) := of_decide_eq_true htest
  refine ⟨h, events, S, hinit, hsteps, hfree, hactive, hself, fun hsound => ?_⟩
  exact hself (hsound.unlinked 0 hfree (by rw [hactive]; simp))

end Pc02.Timer

import Pc02.Timer.Moves

/-!
# The locked sections as moves

For a well-formed state, what `__timer_settime`, `__timer_delete` and an expiry leave behind, case by
case. Later proofs use these results and never unfold a section again.
-/

namespace Pc02.Timer.State

open Function

variable {s : State} {t : TimerId} {th : ThreadId}

theorem queueTimerLoop_false (s : State) (t : TimerId) (l : List TimerId) :
    queueTimerLoop (fun u => (s.timer u).expirytime) t l false = (SortedQueue.insert s.key t l, false) := by
  induction l with
  | nil => rfl
  | cons u l ih =>
      have hcmp : timespecCompare (s.timer t).expirytime (s.timer u).expirytime < 0 ↔ s.key t < s.key u :=
        timespecCompare_lt _ _
      by_cases hlt : s.key t < s.key u
      · simp only [queueTimerLoop, SortedQueue.insert, if_pos hlt, if_pos (hcmp.mpr hlt)]
      · simp only [queueTimerLoop, SortedQueue.insert, if_neg hlt, if_neg (mt hcmp.mp hlt), ih]

/-- The walk of `__timer_thread_queue_timer` inserts behind ties and reports the head. -/
theorem queueTimerLoop_true (s : State) (t : TimerId) (l : List TimerId) :
    queueTimerLoop (fun u => (s.timer u).expirytime) t l true =
      (SortedQueue.insert s.key t l, SortedQueue.atHead s.key t l) := by
  cases l with
  | nil => rfl
  | cons u l =>
      have hcmp : timespecCompare (s.timer t).expirytime (s.timer u).expirytime < 0 ↔ s.key t < s.key u :=
        timespecCompare_lt _ _
      by_cases hlt : s.key t < s.key u
      · simp only [queueTimerLoop, SortedQueue.insert, SortedQueue.atHead, if_pos hlt,
          if_pos (hcmp.mpr hlt), decide_eq_true hlt]
      · simp only [queueTimerLoop, SortedQueue.insert, SortedQueue.atHead, if_neg hlt,
          if_neg (mt hcmp.mp hlt), queueTimerLoop_false,
          decide_eq_false hlt]

/-! ### How moves compose -/

theorem move_key (n : TimerNode) (d : Place) :
    (s.move t n d).key = update s.key t n.expirytime.key := by
  funext u
  by_cases hu : u = t
  · subst hu
    simp [key]
  · simp [key, hu]

theorem listUnlinkIp_setTimer (f : TimerNode → TimerNode) :
    (s.listUnlinkIp t).setTimer t f = s.move t (f (s.timer t)) .nowhere := rfl

theorem setTimer_listUnlinkIp (f : TimerNode → TimerNode) :
    (s.setTimer t f).listUnlinkIp t = s.move t (f (s.timer t)) .nowhere := rfl

theorem move_of_setTimer (f : TimerNode → TimerNode) (n : TimerNode) (d : Place) :
    (s.setTimer t f).move t n d = s.move t n d := by
  have hbase : ((s.setTimer t f).listUnlinkIp t).setTimer t (fun _ => n) =
      (s.listUnlinkIp t).setTimer t fun _ => n := by
    simp [setTimer, listUnlinkIp]
  simp only [move, hbase]

theorem move_setTimer {n : TimerNode} {d : Place} (f : TimerNode → TimerNode)
    (hf : (f n).expirytime = n.expirytime) : (s.move t n d).setTimer t f = s.move t (f n) d := by
  have hkey : ((s.listUnlinkIp t).setTimer t fun _ => f n).key =
      ((s.listUnlinkIp t).setTimer t fun _ => n).key := by
    funext u
    by_cases hu : u = t
    · simp [key, hu, hf]
    · simp [key, hu]
  cases d with
  | nowhere => simp [move, setTimer]
  | free => simp [move, setTimer]
  | queue th =>
      simp only [move, hkey]
      simp [setTimer, setThread]

theorem move_nowhere_setTimer (n : TimerNode) (f : TimerNode → TimerNode) :
    (s.move t n .nowhere).setTimer t f = s.move t (f n) .nowhere := by
  simp [move, setTimer]

theorem move_move (n n' : TimerNode) (d : Place) : (s.move t n .nowhere).move t n' d = s.move t n' d := by
  have hbase : ((s.move t n .nowhere).listUnlinkIp t).setTimer t (fun _ => n') =
      (s.listUnlinkIp t).setTimer t fun _ => n' := by
    simp [move, setTimer, listUnlinkIp]
  simp only [move] at hbase ⊢
  rw [hbase]

theorem move_free_move (n n' : TimerNode) (d : Place) :
    (s.move t n .free).move t n' d = s.move t n' d := by
  have hbase : ((s.move t n .free).listUnlinkIp t).setTimer t (fun _ => n') =
      (s.listUnlinkIp t).setTimer t fun _ => n' := by
    simp [move, setTimer, listUnlinkIp, List.filter_append]
  simp only [move] at hbase ⊢
  rw [hbase]

theorem timerDealloc_eq_move (h : (s.timer t).refcount = 0) (hrun : s.aborted = false) :
    s.timerDealloc t = s.move t { s.timer t with thread := none, inuse := .free } .free := by
  simp [timerDealloc, setTimer, State.assert, h, move, listUnlinkIp, hrun]

theorem timerThreadQueueTimer_move (n : TimerNode) :
    (s.move t n .nowhere).timerThreadQueueTimer th t =
      (s.move t n (.queue th),
        SortedQueue.atHead (s.move t n (.queue th)).key t ((s.queue th).filter (· ≠ t))) := by
  simp only [timerThreadQueueTimer, queueTimerLoop_true]
  rfl

theorem timerDelref_last (h : (s.timer t).refcount = 1) (hrun : s.aborted = false) :
    s.timerDelref t =
      s.move t { s.timer t with refcount := 0, thread := none, inuse := .free } .free := by
  have hzero : ((s.setTimer t fun n => { n with refcount := n.refcount - 1 }).timer t).refcount = 0 := by
    simp [h]
  simp only [timerDelref, hzero, if_true]
  rw [timerDealloc_eq_move hzero (by simpa using hrun), move_of_setTimer]
  simp [h]

theorem timerDelref_more (h : (s.timer t).refcount ≠ 1) :
    s.timerDelref t = s.setTimer t fun n => { n with refcount := n.refcount - 1 } := by
  have : ¬ (s.timer t).refcount - 1 = 0 := by omega
  simp [timerDelref, this]

/-! ### `__timer_settime` -/

def armedNode (n : TimerNode) (abstime : Bool) (value : Itimerspec) (now : Timespec) : TimerNode :=
  { n with
    value := value, armed := true
    expirytime := if abstime then value.value else timespecAdd now value.value }

def stoppedNode (n : TimerNode) (value : Itimerspec) : TimerNode :=
  { n with value := value, armed := false }

variable {abstime : Bool} {value : Itimerspec} {now : Timespec}

theorem settimeArm_nonzero (hth : (s.timer t).thread = some th) (hvalue : value.value ≠ zeroTimespec) :
    s.settimeArm t abstime value now =
      (s.move t (armedNode (s.timer t) abstime value now) (.queue th),
        if SortedQueue.atHead (s.move t (armedNode (s.timer t) abstime value now) (.queue th)).key t
          ((s.queue th).filter (· ≠ t)) then some th else none) := by
  have hnz := (ne_zeroTimespec _).mp hvalue
  simp only [settimeArm, setTimer_listUnlinkIp, move_nowhere_setTimer, if_pos hnz, move_timer,
    update_self, hth, timerThreadQueueTimer_move]
  rw [move_setTimer _ rfl, armedNode, hth]
  simp only [move_key]

theorem settimeArm_zero (hvalue : value.value = zeroTimespec) :
    s.settimeArm t abstime value now = (s.move t (stoppedNode (s.timer t) value) .nowhere, none) := by
  have hz : ¬ (value.value.sec ≠ 0 ∨ value.value.nsec ≠ 0) := by simp [hvalue, zeroTimespec]
  simp only [settimeArm, setTimer_listUnlinkIp, move_nowhere_setTimer, if_neg hz]
  rfl

private theorem addref_move_delref (n : TimerNode) (d : Place) (href : n.refcount = 2) :
    ((s.timerAddref t).move t n d).timerDelref t = s.move t { n with refcount := 1 } d := by
  have hmore : (((s.timerAddref t).move t n d).timer t).refcount ≠ 1 := by
    simp [href]
  rw [timerDelref_more hmore, move_setTimer (fun n => { n with refcount := n.refcount - 1 }) rfl,
    timerAddref, move_of_setTimer]
  simp [href]

theorem timerSettime_arm (href : (s.timer t).refcount = 1) (hin : (s.timer t).inuse = .inuse)
    (hth : (s.timer t).thread = some th) (hrange : settimeRange value = true)
    (hvalue : value.value ≠ zeroTimespec) :
    s.timerSettime (some t) abstime value now =
      (s.move t (armedNode (s.timer t) abstime value now) (.queue th), 0,
        if SortedQueue.atHead (s.move t (armedNode (s.timer t) abstime value now) (.queue th)).key t
          ((s.queue th).filter (· ≠ t)) then some th else none) := by
  have hvalid : (s.timerAddref t).timerValid t = true := by simp [timerValid, timerAddref, hin]
  have hth' : ((s.timerAddref t).timer t).thread = some th := by simp [timerAddref, hth]
  simp only [timerSettime, hrange, if_true, hvalid, settimeArm_nonzero hth' hvalue]
  rw [addref_move_delref _ _ (by simp [armedNode, timerAddref, href])]
  have hnode : { armedNode ((s.timerAddref t).timer t) abstime value now with refcount := 1 } =
      armedNode (s.timer t) abstime value now := by simp [armedNode, timerAddref, href]
  have hkey : (s.timerAddref t).key = s.key := by
    funext u
    by_cases hu : u = t
    · subst hu
      simp [key, timerAddref]
    · simp [key, timerAddref, hu]
  rw [hnode]
  simp only [move_key, hkey]
  rfl

theorem timerSettime_stop (href : (s.timer t).refcount = 1) (hin : (s.timer t).inuse = .inuse)
    (hrange : settimeRange value = true) (hvalue : value.value = zeroTimespec) :
    s.timerSettime (some t) abstime value now =
      (s.move t (stoppedNode (s.timer t) value) .nowhere, 0, none) := by
  have hvalid : (s.timerAddref t).timerValid t = true := by simp [timerValid, timerAddref, hin]
  simp only [timerSettime, hrange, if_true, hvalid, settimeArm_zero hvalue]
  rw [addref_move_delref _ _ (by simp [stoppedNode, timerAddref, href])]
  simp [stoppedNode, timerAddref, href]

def freedNode (n : TimerNode) : TimerNode := { n with refcount := 0, thread := none, inuse := .free }

/-- On a free slot the reference that is given back is the last one: the slot is released again and
goes to the end of the free list. -/
theorem timerSettime_free (href : (s.timer t).refcount = 0) (hin : (s.timer t).inuse = .free)
    (hrun : s.aborted = false) (hrange : settimeRange value = true) :
    s.timerSettime (some t) abstime value now = (s.move t (freedNode (s.timer t)) .free, -1, none) := by
  have hvalid : (s.timerAddref t).timerValid t = false := by simp [timerValid, timerAddref, hin]
  have hlast : ((s.timerAddref t).timer t).refcount = 1 := by simp [timerAddref, href]
  simp only [timerSettime, hrange, if_true, hvalid]
  rw [timerDelref_last hlast (by simpa [timerAddref] using hrun), timerAddref, move_of_setTimer]
  simp [freedNode]

theorem timerSettime_deleted (href : (s.timer t).refcount < 0) (hin : (s.timer t).inuse = .deleted)
    (hrange : settimeRange value = true) :
    s.timerSettime (some t) abstime value now = (s, -1, none) := by
  have hvalid : (s.timerAddref t).timerValid t = false := by simp [timerValid, timerAddref, hin]
  have hmore : ((s.timerAddref t).timer t).refcount ≠ 1 := by
    simp only [timerAddref, setTimer_timer, update_self]
    omega
  simp only [timerSettime, hrange, if_true, hvalid]
  rw [timerDelref_more hmore]
  simp [timerAddref, setTimer]

/-! ### `__timer_delete` -/

theorem timerDelete_inuse (href : (s.timer t).refcount = 1) (hrun : s.aborted = false) :
    s.timerDelete t = s.move t (freedNode (s.timer t)) .free := by
  simp only [timerDelete, setTimer_listUnlinkIp]
  rw [timerDelref_last (by simpa using href) (by simpa using hrun), move_move]
  simp [freedNode]

/-- A delete that acts on a slot already released only loses it. -/
theorem timerDelete_stale (href : (s.timer t).refcount ≠ 1) :
    s.timerDelete t =
      s.move t { s.timer t with inuse := .deleted, refcount := (s.timer t).refcount - 1 } .nowhere := by
  simp only [timerDelete, setTimer_listUnlinkIp]
  rw [timerDelref_more (by simpa using href), move_nowhere_setTimer]

/-! ### Expiry -/

def expiredNode (n : TimerNode) (now : Timespec) : TimerNode :=
  if n.value.interval = zeroTimespec then n
  else
    { n with
      expirytime := (catchUp now n.value.interval n.expirytime).1
      overrunCount := (catchUp now n.value.interval n.expirytime).2 }

def expiredPlace (n : TimerNode) (self : ThreadId) : Place :=
  if n.value.interval = zeroTimespec then .nowhere else .queue self

theorem listUnlinkIp_eq_move : s.listUnlinkIp t = s.move t (s.timer t) .nowhere := by
  simp [move, setTimer, listUnlinkIp]

theorem expireTimer_eq_move : s.expireTimer th t now =
    (s.move t (expiredNode (s.timer t) now) (expiredPlace (s.timer t) th)).setThread th
      fun n => { n with currentTimer := some t } := by
  by_cases hz : (s.timer t).value.interval = zeroTimespec
  · have hz' : ¬ (((s.listUnlinkIp t).timer t).value.interval.sec ≠ 0 ∨
        ((s.listUnlinkIp t).timer t).value.interval.nsec ≠ 0) := by
      simp [hz, zeroTimespec]
    simp only [expireTimer, if_neg hz', expiredNode, expiredPlace, if_pos hz]
    rw [listUnlinkIp_eq_move]
  · have hnz : ((s.listUnlinkIp t).timer t).value.interval.sec ≠ 0 ∨
        ((s.listUnlinkIp t).timer t).value.interval.nsec ≠ 0 := (ne_zeroTimespec _).mp hz
    simp only [expireTimer, if_pos hnz, expiredNode, expiredPlace, if_neg hz,
      listUnlinkIp_setTimer, timerThreadQueueTimer_move]
    rfl

/-! ### `__timer_create` -/

section Create

variable {attr : Attr} {clock : ClockId} {created : Bool} {u : State} {n : TimerNode}

def bump (s : State) : State := { s with nextReg := s.nextReg + 1 }

theorem bump_move (n : TimerNode) (d : Place) : s.bump.move t n d = (s.move t n d).bump := by
  cases d <;> rfl

theorem timerThreadGet_move : ((s.move t n .nowhere).bump).timerThreadGet attr clock =
    (s.timerThreadGet attr clock).map fun r => ((r.1.move t n .nowhere).bump, r.2) := by
  have hfind : ((s.move t n .nowhere).bump).timerThreadFindMatching attr clock =
      s.timerThreadFindMatching attr clock := rfl
  simp only [timerThreadGet, hfind]
  cases s.timerThreadFindMatching attr clock with
  | some th => rfl
  | none =>
      simp only [timerThreadAlloc]
      have hlist : ((s.move t n .nowhere).bump).threadFreeList = s.threadFreeList := rfl
      rw [hlist]
      cases s.threadFreeList with
      | nil => rfl
      | cons th rest =>
          simp only [Option.map_some, Option.some.injEq, Prod.mk.injEq, and_true]
          refine State.ext rfl ?_ rfl rfl rfl rfl rfl
          funext th'
          by_cases hth : th' = th
          · subst hth
            simp [move, bump, threadInit, setTimer, setThread, listUnlinkIp]
          · simp [move, bump, threadInit, setTimer, setThread, listUnlinkIp, hth]

theorem timerThreadEnsure_move : ((s.move t n .nowhere).bump).timerThreadEnsure th created =
    (((s.timerThreadEnsure th created).1.move t n .nowhere).bump, (s.timerThreadEnsure th created).2) := by
  have hflag : (((s.move t n .nowhere).bump).thread th).existsFlag = (s.thread th).existsFlag := rfl
  simp only [timerThreadEnsure, hflag]
  cases hex : (s.thread th).existsFlag with
  | true => rfl
  | false =>
      simp only [Bool.false_eq_true, if_false, timerThreadStart, hflag, hex]
      cases created <;>
      · simp only [Bool.false_eq_true, if_false, if_true, Prod.mk.injEq, and_true]
        refine State.ext rfl ?_ rfl rfl rfl rfl rfl
        funext th'
        by_cases hth : th' = th
        · subst hth
          simp [move, bump, setTimer, setThread, listUnlinkIp, State.assert]
        · simp [move, bump, setTimer, setThread, listUnlinkIp, State.assert, hth]

theorem timerThreadDealloc_move (ht : t ∉ s.queue th) :
    ((s.move t n .nowhere).bump).timerThreadDealloc th = ((s.timerThreadDealloc th).move t n .nowhere).bump := by
  have hqueue : (((s.move t n .nowhere).bump).thread th).timerQueue = (s.thread th).timerQueue := by
    change (s.queue th).filter (· ≠ t) = s.queue th
    rw [List.filter_eq_self]
    intro u hu
    simpa using fun h : u = t => ht (h ▸ hu)
  simp only [timerThreadDealloc, hqueue]
  rfl

theorem createBail_none (href : n.refcount = 1) (hrun : s.aborted = false) :
    ((s.move t n .nowhere).bump).createBail t none = (s.move t (freedNode n) .free).bump := by
  have hlast : (((s.move t n .nowhere).bump).timer t).refcount = 1 := by simpa [bump] using href
  simp only [createBail]
  rw [timerDelref_last hlast (by simpa [bump] using hrun), bump_move, move_move]
  rw [timerDealloc_eq_move (by simp [bump]) (by simpa [bump] using hrun), bump_move, move_free_move]
  simp [bump, freedNode]

theorem createBail_some (ht : t ∉ s.queue th) (href : n.refcount = 1)
    (hrun : (s.timerThreadDealloc th).aborted = false) :
    ((s.move t n .nowhere).bump).createBail t (some th) =
      ((s.timerThreadDealloc th).move t (freedNode n) .free).bump := by
  rw [← createBail_none href hrun]
  simp only [createBail, timerThreadDealloc_move ht]

def pendingNode (n : TimerNode) (event : Sigevent) (attr : Attr) : TimerNode :=
  { n with inuse := .inuse, refcount := 1, event := event, attr := attr }

def createdNode (n : TimerNode) (event : Sigevent) (attr : Attr) (clock : ClockId) (th : ThreadId) :
    TimerNode :=
  { pendingNode n event attr with clock := clock, armed := false, thread := some th }

inductive Created (s : State) (clock : ClockId) (event : Sigevent) (attr : Attr) (created : Bool) :
    State × Option TimerId → Prop
  | full : s.timerFreeList = [] → Created s clock event attr created (s, none)
  | noThread {t : TimerId} {rest : List TimerId} : s.timerFreeList = t :: rest →
      s.timerThreadGet attr clock = none →
      Created s clock event attr created
        ((s.move t (freedNode (pendingNode (s.timer t) event attr)) .free).bump, none)
  | noStart {t : TimerId} {rest : List TimerId} {u u' : State} {th : ThreadId} :
      s.timerFreeList = t :: rest → s.timerThreadGet attr clock = some (u, th) →
      u.timerThreadEnsure th created = (u', false) →
      Created s clock event attr created
        (((u'.timerThreadDealloc th).move t (freedNode (pendingNode (s.timer t) event attr)) .free).bump,
          none)
  | ok {t : TimerId} {rest : List TimerId} {u u' : State} {th : ThreadId} :
      s.timerFreeList = t :: rest → s.timerThreadGet attr clock = some (u, th) →
      u.timerThreadEnsure th created = (u', true) →
      Created s clock event attr created
        ((u'.move t (createdNode (s.timer t) event attr clock th) .nowhere).bump, some t)

/-- What a thread lookup or allocation changes: nothing that belongs to a timer. -/
structure ThreadGot (s u : State) (th : ThreadId) : Prop where
  timer : u.timer = s.timer
  queue : ∀ th, u.queue th = s.queue th
  timerFreeList : u.timerFreeList = s.timerFreeList
  nextReg : u.nextReg = s.nextReg
  active : th ∈ u.threadActiveList
  wf : u.Wf

theorem timerThreadAlloc_eq_some (hget : s.timerThreadAlloc attr clock = some (u, th)) :
    ∃ rest, s.threadFreeList = th :: rest ∧
      u = { ({ s with threadFreeList := rest } : State).threadInit th attr clock with
        threadActiveList := s.threadActiveList ++ [th] } := by
  simp only [timerThreadAlloc] at hget
  split at hget
  · cases hget
  · rename_i th' rest hfree
    obtain ⟨rfl, rfl⟩ := Prod.mk.inj (Option.some.inj hget)
    exact ⟨rest, hfree, rfl⟩

theorem timerThreadGet_eq_some (hget : s.timerThreadGet attr clock = some (u, th)) :
    (s.timerThreadFindMatching attr clock = some th ∧ u = s) ∨
    (s.timerThreadFindMatching attr clock = none ∧ s.timerThreadAlloc attr clock = some (u, th)) := by
  cases hfind : s.timerThreadFindMatching attr clock with
  | none =>
      simp only [timerThreadGet, hfind] at hget
      exact .inr ⟨rfl, hget⟩
  | some x =>
      simp only [timerThreadGet, hfind, Option.some.injEq, Prod.mk.injEq] at hget
      obtain ⟨rfl, rfl⟩ := hget
      exact .inl ⟨rfl, rfl⟩

theorem timerThreadAlloc_got (h : s.Wf) (hget : s.timerThreadAlloc attr clock = some (u, th)) :
    ThreadGot s u th := by
  obtain ⟨rest, hfree, hu⟩ := timerThreadAlloc_eq_some hget
  have hempty : s.queue th = [] := h.queue_of_free (by simp [hfree])
  have hqueue (x : ThreadId) : u.queue x = s.queue x := by
    rw [hu]
    by_cases hx : x = th
    · subst hx
      rw [hempty]
      simp [State.queue, threadInit]
    · simp [State.queue, threadInit, hx]
  have hperm : (rest ++ (s.threadActiveList ++ [th])).Nodup := by
    have hnodup := h.threadNodup
    rw [hfree, List.cons_append, List.nodup_cons] at hnodup
    rw [← List.append_assoc]
    exact hnodup.2.append (List.nodup_singleton th) (by simpa using hnodup.1)
  have htimer : u.timer = s.timer := by rw [hu]; rfl
  have hfreeList : u.timerFreeList = s.timerFreeList := by rw [hu]; rfl
  have hactive : u.threadActiveList = s.threadActiveList ++ [th] := by rw [hu]
  have hkey : u.key = s.key := by
    funext x
    simp only [State.key, htimer]
  refine ⟨htimer, hqueue, hfreeList, by rw [hu]; rfl, by simp [hactive], ?_⟩
  constructor
  · rw [hu]; exact h.running
  · rw [hfreeList]; exact h.freeNodup
  · rw [hfreeList, htimer]; exact h.freeIff
  · rw [htimer]; exact h.refOk
  · rw [htimer]; exact h.dataOk
  · intro x; rw [hqueue]; exact h.queueNodup x
  · intro x; rw [hqueue, hkey]; exact h.sorted x
  · intro x; rw [hqueue, htimer]; exact h.queued x
  · intro x hx
    rw [htimer] at hx ⊢
    obtain ⟨y, hy, hxy⟩ := h.placed x hx
    exact ⟨y, by simp [hactive, hy], hxy⟩
  · intro x y; rw [htimer, hqueue]; exact h.dequeued x y
  · rw [hactive, hu]; exact hperm

theorem timerThreadGet_got (h : s.Wf) (hget : s.timerThreadGet attr clock = some (u, th)) :
    ThreadGot s u th := by
  rcases timerThreadGet_eq_some hget with ⟨hfind, rfl⟩ | ⟨-, halloc⟩
  · exact ⟨rfl, fun _ => rfl, rfl, rfl, List.mem_of_find?_eq_some hfind, h⟩
  · exact timerThreadAlloc_got h halloc

theorem timerThreadEnsure_got {u' : State} {b : Bool} (h : ThreadGot s u th)
    (hens : u.timerThreadEnsure th created = (u', b)) : ThreadGot s u' th := by
  cases hex : (u.thread th).existsFlag with
  | true =>
      obtain ⟨rfl, rfl⟩ : u = u' ∧ true = b := by simpa [timerThreadEnsure, hex] using hens
      exact h
  | false =>
      have hrun := h.wf.running
      have hu' : ∃ f : ThreadNode → ThreadNode, u' = u.setThread th f ∧
          (f (u.thread th)).timerQueue = (u.thread th).timerQueue := by
        cases created <;>
        · simp [timerThreadEnsure, hex, timerThreadStart, State.assert] at hens
          obtain ⟨rfl, rfl⟩ := hens
          exact ⟨_, rfl, rfl⟩
      obtain ⟨f, rfl, hf⟩ := hu'
      have hqueue := queue_setThread hf
      exact ⟨h.timer, fun x => (hqueue x).trans (h.queue x), h.timerFreeList, h.nextReg, h.active,
        h.wf.congr rfl hqueue rfl rfl rfl rfl⟩

theorem timerThreadDealloc_running (hq : s.queue th = []) (hrun : s.aborted = false) :
    (s.timerThreadDealloc th).aborted = false := by
  have hq' : (s.thread th).timerQueue = [] := hq
  simp [timerThreadDealloc, State.assert, hq', hrun]

theorem timerThreadDealloc_wf (h : s.Wf) (hnone : ∀ t, (s.timer t).inuse = .inuse → (s.timer t).thread ≠ some th) :
    s.queue th = [] ∧ (s.timerThreadDealloc th).Wf := by
  have hempty : s.queue th = [] := by
    rw [List.eq_nil_iff_forall_not_mem]
    intro t ht
    obtain ⟨hin, -, hth, -⟩ := h.queued th t ht
    exact hnone t hin hth
  refine ⟨hempty, timerThreadDealloc_running hempty h.running, h.freeNodup, h.freeIff, h.refOk, h.dataOk,
    h.queueNodup, h.sorted, h.queued, ?_, h.dequeued, ?_⟩
  · intro t ht
    obtain ⟨th', hactive, hth'⟩ := h.placed t ht
    refine ⟨th', ?_, hth'⟩
    have hne : th' ≠ th := by
      rintro rfl
      exact hnone t ht hth'
    exact List.mem_filter.mpr ⟨hactive, by simpa using hne⟩
  · obtain ⟨hfree, hactive, hdisj⟩ := List.nodup_append.mp h.threadNodup
    change (s.threadFreeList.filter (· ≠ th) ++ [th] ++ s.threadActiveList.filter (· ≠ th)).Nodup
    rw [List.append_assoc, List.singleton_append, List.nodup_append]
    refine ⟨hfree.filter _, List.nodup_cons.mpr ⟨by simp, hactive.filter _⟩, ?_⟩
    intro a ha b hb
    obtain ⟨ha, hath⟩ := List.mem_filter.mp ha
    rcases List.mem_cons.mp hb with rfl | hb
    · simpa using hath
    · exact hdisj a ha b (List.mem_filter.mp hb).1

/-- `__timer_create` ends in one of the ways of `Created`, provided a node it gives back has an
empty queue. -/
theorem timerCreate_created {function arg : Nat} (h : s.Wf)
    (hsafe : s.timerFreeList ≠ [] → ∀ u th u', s.timerThreadGet attr clock = some (u, th) →
      u.timerThreadEnsure th created = (u', false) → u'.queue th = []) :
    Created s clock ⟨function, arg, s.nextReg⟩ attr created
      (s.timerCreate clock function arg attr created) := by
  cases hfree : s.timerFreeList with
  | nil =>
      have : s.timerCreate clock function arg attr created = (s, none) := by
        simp [timerCreate, timerAlloc, hfree]
      rw [this]
      exact .full hfree
  | cons t rest =>
      let event : Sigevent := ⟨function, arg, s.nextReg⟩
      have hrun := h.running
      have hpending : ((s.listUnlinkIp t).setTimer t fun n =>
            { n with inuse := .inuse, refcount := 1 }).createEvent t function arg attr =
          (s.move t (pendingNode (s.timer t) event attr) .nowhere).bump := by
        simp [createEvent, move, bump, setTimer, listUnlinkIp, pendingNode, event]
      simp only [timerCreate, timerAlloc, hfree]
      rw [hpending, createThread, timerThreadGet_move]
      have hnotqueued (x : ThreadId) : t ∉ s.queue x := by
        intro hx
        have hinuse := (h.queued x t hx).1
        have hisfree := (h.freeIff t).mp (by simp [hfree])
        rw [hinuse] at hisfree
        cases hisfree
      cases hget : s.timerThreadGet attr clock with
      | none =>
          simp only [Option.map_none]
          rw [createBail_none (by rfl) hrun]
          exact .noThread hfree hget
      | some r =>
          obtain ⟨u, th⟩ := r
          have hgot := timerThreadGet_got h hget
          simp only [Option.map_some, timerThreadEnsure_move]
          cases hens : u.timerThreadEnsure th created with
          | mk u' b =>
              have hgot' := timerThreadEnsure_got hgot hens
              cases b with
              | false =>
                  simp only
                  rw [createBail_some (by rw [hgot'.queue]; exact hnotqueued th) (by rfl)
                    (timerThreadDealloc_running (hsafe (by simp [hfree]) u th u' hget hens) hgot'.wf.running)]
                  exact .noStart hfree hget hens
              | true =>
                  simp only
                  have hmove : ((u'.move t (pendingNode (s.timer t) event attr) .nowhere).bump).setTimer t
                      (fun n => { n with clock := clock, armed := false, thread := some th }) =
                      (u'.move t (createdNode (s.timer t) event attr clock th) .nowhere).bump := by
                    simp [move, bump, setTimer, createdNode]
                  rw [hmove]
                  exact .ok hfree hget hens

end Create

end Pc02.Timer.State

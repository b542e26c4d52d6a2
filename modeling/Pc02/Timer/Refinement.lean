import Pc02.Timer.Capacity
import Pc02.Timer.Schedule

/-!
# The timer API implements the schedule

Every call keeps the module in agreement with the schedule, so that the handlers called in a pass are
the ones that the schedule asks for.
-/

namespace Pc02.Timer

open Machines

variable {s s' s'' : State} {A : Schedule} {clock : Option ClockReading} {now : ClockReading} {t u : TimerId}
  {th : ThreadId} {e : Entry} {last : ThreadId → Option Int}

structure Kept (s s' : State) (t : TimerId) : Prop where
  node : s'.timer t = s.timer t
  queue : ∀ th, t ∈ s'.queue th ↔ t ∈ s.queue th

theorem Kept.trans (h : Kept s s' t) (h' : Kept s' s'' t) : Kept s s'' t :=
  ⟨h'.node.trans h.node, fun th => (h'.queue th).trans (h.queue th)⟩

theorem Kept.move {n : TimerNode} {d : Place} (hne : t ≠ u) : Kept s (s.move u n d) t :=
  ⟨by simp [hne], fun th => by rw [State.mem_move_queue]; simp [hne]⟩

theorem Kept.setTimer {f : TimerNode → TimerNode} (hne : t ≠ u) : Kept s (s.setTimer u f) t :=
  ⟨by simp [hne], fun _ => Iff.rfl⟩

theorem Kept.agrees (h : Kept s s' t) (he : e.Agrees s last t) : e.Agrees s' last t where
  inuse := by rw [h.node]; exact he.inuse
  type := by rw [h.node]; exact he.type
  millisec := by rw [h.node]; exact he.millisec
  pos := he.pos
  stopped := fun hs x hq => he.stopped hs x ((h.queue x).mp hq)
  period := he.period
  periodic := fun start p x hs hper hth => by
    rw [h.node] at hth ⊢
    rw [h.queue]
    exact he.periodic start p x hs hper hth
  oneshot := fun start p x hs hper hth => by
    rw [h.node] at hth ⊢
    rw [h.queue]
    exact he.oneshot start p x hs hper hth

def ClockLe (clock clock' : Option ClockReading) : Prop :=
  ∀ c ∈ clock, ∃ c' ∈ clock', c.1.toNs ≤ c'.1.toNs

theorem Agrees.update (h : Agrees s A clock) {clock' : Option ClockReading} (hclock : ClockLe clock clock')
    (hwf : s'.Wf) (halive : s'.Alive) (hidle : s'.Idle) (hkept : ∀ t, t ≠ u → Kept s s' t) {o : Option Entry}
    (hnone : o = none → (s'.timer u).inuse ≠ .inuse) (hsome : ∀ e, o = some e → e.Agrees s' A.lastPass u) :
    Agrees s' (A.set u o) clock' where
  wf := hwf
  alive := halive
  idle := hidle
  unknown := fun t ht => by
    by_cases htu : t = u
    · subst htu
      exact hnone (by simpa [Schedule.set] using ht)
    · rw [(hkept t htu).node]
      exact h.unknown t (by simpa [Schedule.set, htu] using ht)
  known := fun t e ht => by
    by_cases htu : t = u
    · subst htu
      exact hsome e (by simpa [Schedule.set] using ht)
    · exact (hkept t htu).agrees (h.known t e (by simpa [Schedule.set, htu] using ht))
  past := fun x prev hx => by
    obtain ⟨c, hc, hle⟩ := h.past x prev hx
    obtain ⟨c', hc', hle'⟩ := hclock c hc
    exact ⟨c', hc', hle.trans hle'⟩

theorem Agrees.frame (h : Agrees s A clock) {clock' : Option ClockReading} (hclock : ClockLe clock clock')
    (hwf : s'.Wf) (halive : s'.Alive) (hidle : s'.Idle)
    (hkept : ∀ t, Kept s s' t ∨ ((s.timer t).inuse ≠ .inuse ∧ (s'.timer t).inuse ≠ .inuse)) :
    Agrees s' A clock' where
  wf := hwf
  alive := halive
  idle := hidle
  unknown := fun t ht => by
    rcases hkept t with hk | hk
    · rw [hk.node]
      exact h.unknown t ht
    · exact hk.2
  known := fun t e ht => by
    have he := h.known t e ht
    rcases hkept t with hk | hk
    · exact hk.agrees he
    · exact absurd he.inuse hk.1
  past := fun x prev hx => by
    obtain ⟨c, hc, hle⟩ := h.past x prev hx
    obtain ⟨c', hc', hle'⟩ := hclock c hc
    exact ⟨c', hc', hle.trans hle'⟩

/-! ### Arming and stopping -/

theorem armed_agrees {its : Itimerspec} (hin : (s.timer t).inuse = .inuse) (hth : (s.timer t).thread = some th)
    (htype : e.periodic = decide ((s.timer t).type ≠ .oneshot)) (hms : (s.timer t).millisec = e.millisec)
    (hpos : 0 < e.millisec) (hvalue : its.value = ms2ts e.millisec)
    (hinterval : its.interval = if e.periodic then its.value else zeroTimespec)
    (hlast : ∀ x, ∀ prev ∈ last x, prev ≤ now.1.toNs) :
    ({ e with started := some (now.1.toNs, e.millisec * 1000000), fired := false } : Entry).Agrees
      (s.move t (State.armedNode (s.timer t) false its now) (.queue th)) last t := by
  have hnode : (s.move t (State.armedNode (s.timer t) false its now) (.queue th)).timer t =
      State.armedNode (s.timer t) false its now := by simp
  have hns : its.value.toNs = e.millisec * 1000000 := by rw [hvalue, ms2ts_toNs]
  have hexp : (State.armedNode (s.timer t) false its now).expirytime.toNs =
      now.1.toNs + e.millisec * 1000000 := by
    rw [← hns]
    exact timespecAdd_toNs _ _
  have hmem {x : ThreadId} (hx : (s.timer t).thread = some x) :
      t ∈ (s.move t (State.armedNode (s.timer t) false its now) (.queue th)).queue x := by
    obtain rfl : th = x := Option.some.inj (hth.symm.trans hx)
    exact (State.mem_move_queue _ t t th _ _).mpr (.inl ⟨rfl, rfl⟩)
  refine ⟨by rw [hnode]; exact hin, by rw [hnode]; exact htype, by rw [hnode]; exact hms, hpos, by simp, ?_, ?_, ?_⟩
  · rintro start p ⟨rfl, rfl⟩
    omega
  · rintro start p x ⟨rfl, rfl⟩ hper hx
    rw [hnode] at hx ⊢
    have hper : e.periodic = true := hper
    refine ⟨hmem hx, ?_, 1, le_rfl, ?_, fun prev hprev => ?_, fun j hj hj' => by omega⟩
    · simp only [State.armedNode, hinterval, hper, if_true, hns]
    · rw [hexp, Nat.cast_one, one_mul]
    · have hle := hlast x prev hprev
      rw [Nat.cast_one, one_mul]
      omega
  · rintro start p x ⟨rfl, rfl⟩ hper hx
    rw [hnode] at hx ⊢
    have hper : e.periodic = false := hper
    refine ⟨?_, iff_of_true (hmem hx) rfl, fun _ => hexp⟩
    simp [State.armedNode, hinterval, hper]

theorem stopped_agrees {its : Itimerspec} (hin : (s.timer t).inuse = .inuse)
    (htype : e.periodic = decide ((s.timer t).type ≠ .oneshot)) (hms : (s.timer t).millisec = e.millisec)
    (hpos : 0 < e.millisec) (hstarted : e.started = none) :
    e.Agrees (s.move t (State.stoppedNode (s.timer t) its) .nowhere) last t := by
  have hnode : (s.move t (State.stoppedNode (s.timer t) its) .nowhere).timer t =
      State.stoppedNode (s.timer t) its := by simp
  refine ⟨by rw [hnode]; exact hin, by rw [hnode]; exact htype, by rw [hnode]; exact hms, hpos, ?_, ?_, ?_, ?_⟩
  · intro _ x hq
    rw [State.mem_move_queue] at hq
    simp at hq
  all_goals simp [hstarted]

/-! ### The calls -/

theorem Agrees.entry (h : Agrees s A clock) (hin : (s.timer t).inuse = .inuse) :
    ∃ e, A.entry t = some e ∧ e.Agrees s A.lastPass t := by
  cases hentry : A.entry t with
  | none => exact absurd hin (h.unknown t hentry)
  | some e => exact ⟨e, rfl, h.known t e hentry⟩

theorem Agrees.last_le (h : Agrees s A clock) (hclock : ClockLe clock (some now)) (x : ThreadId) :
    ∀ prev ∈ A.lastPass x, prev ≤ now.1.toNs := by
  intro prev hprev
  obtain ⟨c, hc, hle⟩ := h.past x prev hprev
  obtain ⟨c', ⟨rfl⟩, hle'⟩ := hclock c hc
  exact hle.trans hle'

theorem Agrees.settime_unused (h : Agrees s A clock) {clock' : Option ClockReading}
    (hclock : ClockLe clock clock') {abstime : Bool} {its : Itimerspec} {r : Int × Option ThreadId}
    (hits : its.Ok) (hout : (s.timer t).inuse ≠ .inuse) (hs : State.Settimed s t abstime its now (s', r)) :
    Agrees s' A clock' ∧ r.1 = -1 := by
  have hwf := hs.wf h.wf hits
  have hthreads := hs.sameThreads
  refine ⟨h.frame hclock hwf (hthreads.alive h.alive) (hthreads.idle h.idle) fun u => ?_, ?_⟩
  · cases hs with
    | arm hin => exact absurd hin hout
    | stop hin => exact absurd hin hout
    | free =>
        by_cases hu : u = t
        · subst hu
          exact .inr ⟨hout, by simp [State.freedNode]⟩
        · exact .inl (.move hu)
    | lost => exact .inl ⟨rfl, fun _ => Iff.rfl⟩
  · cases hs with
    | arm hin => exact absurd hin hout
    | stop hin => exact absurd hin hout
    | free => rfl
    | lost => rfl

theorem Agrees.osTimerStart (h : Agrees s A clock) (hclock : ClockLe clock (some now)) (timerid : TimerT) :
    Agrees (s.osTimerStart timerid now).1
      (A.observe (.start timerid now, .code (s.osTimerStart timerid now).2)) (some now) := by
  have hsame : Agrees s A (some now) := h.frame hclock h.wf h.alive h.idle fun _ => .inl ⟨rfl, fun _ => Iff.rfl⟩
  cases timerid with
  | none => exact hsame
  | some t =>
      cases hvalid : s.timerValid t with
      | false => simpa [State.osTimerStart, State.osTimerStartRead, hvalid, Schedule.observe] using hsame
      | true =>
          have hin : (s.timer t).inuse = .inuse := by simpa [State.timerValid] using hvalid
          obtain ⟨e, hentry, he⟩ := h.entry hin
          obtain ⟨th, -, hth⟩ := h.wf.placed t hin
          have hread : s.osTimerStartRead (some t) = some (t, ⟨if (s.timer t).type = .oneshot then zeroTimespec
              else ms2ts (s.timer t).millisec, ms2ts (s.timer t).millisec⟩) := by
            simp [State.osTimerStartRead, hvalid]
          have hits := osTimerStartRead_ok h.wf hread
          have hs := State.timerSettime_settimed h.wf hits t false now
          simp only [State.osTimerStart, hread]
          generalize hr : s.timerSettime (some t) false _ now.1 = r at hs ⊢
          obtain ⟨s', ret, wake⟩ := r
          have hwf := hs.wf h.wf hits
          have hthreads := hs.sameThreads
          cases hs with
          | @arm x _ hx hvalue =>
              have hset : A.observe (.start (some t) now, .code 0) = A.set t (some { e with
                  started := some (now.1.toNs, e.millisec * 1000000), fired := false }) := by
                simp [Schedule.observe, Schedule.start, Schedule.modify, hentry]
              simp only [hset]
              refine h.update hclock hwf (hthreads.alive h.alive) (hthreads.idle h.idle) (fun u hu => .move hu)
                (by simp) ?_
              rintro _ ⟨rfl⟩
              refine armed_agrees hin hx he.type he.millisec he.pos (by rw [he.millisec]) ?_ (h.last_le hclock)
              rw [he.type]
              by_cases hone : (s.timer t).type = .oneshot <;> simp [hone]
          | stop _ hvalue => exact absurd hvalue (ms2ts_ne_zero (by rw [he.millisec]; exact he.pos))
          | free hfree => simp [hin] at hfree
          | lost hlost => simp [hin] at hlost

theorem Agrees.osTimerStop (h : Agrees s A clock) (hclock : ClockLe clock (some now)) (timerid : TimerT) :
    Agrees (s.osTimerStop timerid now).1
      (A.observe (.stop timerid now, .code (s.osTimerStop timerid now).2)) (some now) := by
  cases timerid with
  | none => exact h.frame hclock h.wf h.alive h.idle fun _ => .inl ⟨rfl, fun _ => Iff.rfl⟩
  | some t =>
      have hs := State.timerSettime_settimed h.wf zeroItimerspec_ok t false now
      simp only [State.osTimerStop]
      generalize s.timerSettime (some t) false zeroItimerspec now.1 = r at hs ⊢
      obtain ⟨s', ret, wake⟩ := r
      by_cases hin : (s.timer t).inuse = .inuse
      · obtain ⟨e, hentry, he⟩ := h.entry hin
        have hwf := hs.wf h.wf zeroItimerspec_ok
        have hthreads := hs.sameThreads
        cases hs with
        | arm _ _ hvalue => exact absurd rfl hvalue
        | stop =>
            have hset : A.observe (.stop (some t) now, .code 0) = A.set t (some { e with started := none }) := by
              simp [Schedule.observe, Schedule.modify, hentry]
            simp only [hset]
            refine h.update hclock hwf (hthreads.alive h.alive) (hthreads.idle h.idle) (fun u hu => .move hu)
              (by simp) ?_
            rintro _ ⟨rfl⟩
            exact stopped_agrees hin he.type he.millisec he.pos rfl
        | free hfree => simp [hin] at hfree
        | lost hlost => simp [hin] at hlost
      · obtain ⟨hagrees, hret⟩ := h.settime_unused hclock zeroItimerspec_ok hin hs
        simpa [Schedule.observe, show ret = -1 from hret] using hagrees

theorem Agrees.osTimerSettime (h : Agrees s A clock) (timerid : TimerT) (millisec : Int) :
    Agrees (s.osTimerSettime timerid millisec).1
      (A.observe (.settime timerid millisec, .code (s.osTimerSettime timerid millisec).2)) clock := by
  by_cases hms : millisec ≤ 0
  · cases timerid <;> simpa [State.osTimerSettime, hms, Schedule.observe] using h
  · cases timerid with
    | none => simpa [State.osTimerSettime, hms, Schedule.observe] using h
    | some t =>
        cases hvalid : s.timerValid t with
        | false => simpa [State.osTimerSettime, hms, hvalid, Schedule.observe] using h
        | true =>
            have hin : (s.timer t).inuse = .inuse := by simpa [State.timerValid] using hvalid
            obtain ⟨e, hentry, he⟩ := h.entry hin
            have hcall : s.osTimerSettime (some t) millisec =
                (s.setTimer t fun n => { n with millisec := millisec }, 0) := by
              simp [State.osTimerSettime, hms, hvalid]
            have hset : A.observe (.settime (some t) millisec, .code 0) =
                A.set t (some { e with millisec := millisec }) := by
              simp [Schedule.observe, Schedule.modify, hentry]
            simp only [hcall, hset]
            refine h.update (fun c hc => ⟨c, hc, le_rfl⟩)
              (State.setTimer_data_wf h.wf (s.timer t).type (not_le.mp hms).le) h.alive h.idle
              (fun u hu => .setTimer hu) (by simp) ?_
            rintro _ ⟨rfl⟩
            refine ⟨?_, ?_, ?_, not_le.mp hms, he.stopped, he.period, ?_, ?_⟩
            · simpa using he.inuse
            · simpa using he.type
            · simp
            · simpa [State.setTimer, PeriodicAt, State.queue] using he.periodic
            · simpa [State.setTimer, State.queue] using he.oneshot

theorem Agrees.osTimerDel (h : Agrees s A clock) (timerid : TimerT) :
    ∃ s' ret, s.osTimerDel (.client 0) timerid = some (s', ret) ∧
      Agrees s' (A.observe (.del timerid, .code ret)) clock := by
  cases timerid with
  | none => exact ⟨s, -1, rfl, h⟩
  | some t =>
      cases hvalid : s.timerValid t with
      | false =>
          refine ⟨s, -1, by simp [State.osTimerDel, hvalid], ?_⟩
          simpa [Schedule.observe] using h
      | true =>
          have hin : (s.timer t).inuse = .inuse := by simpa [State.timerValid] using hvalid
          -- no handler is running between two operations
          have hnowait (th : ThreadId) : s.deleteMustWait t th (.client 0) = false := by
            simp [State.deleteMustWait, h.idle th]
          have hdel : s.osTimerDel (.client 0) (some t) = some (s.timerDelete t, 0) := by
            simp only [State.osTimerDel, hvalid, if_true]
            split
            · simp [hnowait]
            · rfl
          have hd := State.timerDelete_deleted h.wf t
          have hwf := hd.wf h.wf
          have hthreads := hd.sameThreads
          refine ⟨_, 0, hdel, ?_⟩
          simp only [Schedule.observe, if_true]
          refine h.update (fun c hc => ⟨c, hc, le_rfl⟩) hwf (hthreads.alive h.alive) (hthreads.idle h.idle)
            (fun u hu => ?_) (fun _ => ?_) (by simp)
          · generalize s.timerDelete t = s' at hd ⊢
            cases hd with
            | released => exact .move hu
            | lost => exact .move hu
          · generalize s.timerDelete t = s' at hd ⊢
            cases hd with
            | released => simp [State.freedNode]
            | lost => simp

theorem Agrees.pass (h : Agrees s A clock) (hclock : ClockLe clock (some now))
    {out : List (TimerId × Sigevent)} (hp : Passed th now s s' out) :
    Agrees s' (A.observe (.pass th now, .invoked out)) (some now) where
  wf := hp.wf
  alive := hp.threads.alive h.alive
  idle := hp.threads.idle h.idle
  unknown := fun t ht => by
    rw [(hp.fate t).node.1]
    exact h.unknown t (by simpa [Schedule.observe] using ht)
  known := fun t e ht => by
    obtain ⟨e₀, he₀, rfl⟩ : ∃ e₀, A.entry t = some e₀ ∧
        { e₀ with fired := e₀.fired || decide (t ∈ out.map Prod.fst) } = e := by
      simpa only [Schedule.observe, Option.map_eq_some_iff] using ht
    exact (h.known t e₀ he₀).pass h.wf (h.last_le hclock th) hp
  past := fun x prev hx => by
    by_cases hxt : x = th
    · subst hxt
      obtain rfl : now.1.toNs = prev := by simpa [Schedule.observe] using hx
      exact ⟨now, rfl, le_rfl⟩
    · have hold : A.lastPass x = some prev := by simpa [Schedule.observe, hxt] using hx
      exact ⟨now, rfl, h.last_le hclock x prev hold⟩

section Add

variable {clockId : ClockId} {event : Sigevent} {attr : Attr} {created : Bool}

theorem State.ThreadGot.kept (h : State.ThreadGot s s' th) (t : TimerId) : Kept s s' t :=
  ⟨by rw [h.timer], fun x => by rw [h.queue x]⟩

theorem Kept.bump (h : Kept s s' t) : Kept s s'.bump t := ⟨h.node, h.queue⟩

theorem State.Created.kept_none (h : s.Wf) (hc : State.Created s clockId event attr created (s', none)) (t : TimerId) :
    Kept s s' t ∨ ((s.timer t).inuse ≠ .inuse ∧ (s'.timer t).inuse ≠ .inuse) := by
  have hfreeHead {u : TimerId} {rest : List TimerId} (hfree : s.timerFreeList = u :: rest) :
      (s.timer u).inuse ≠ .inuse := by
    rw [(h.freeIff u).mp (by simp [hfree])]
    simp
  cases hc with
  | full => exact .inl ⟨rfl, fun _ => Iff.rfl⟩
  | @noThread u _ hfree hget =>
      by_cases htu : t = u
      · subst htu
        exact .inr ⟨hfreeHead hfree, by simp [State.bump, State.freedNode]⟩
      · exact .inl (Kept.move htu).bump
  | @noStart u _ v v' x hfree hget hens =>
      by_cases htu : t = u
      · subst htu
        exact .inr ⟨hfreeHead hfree, by simp [State.bump, State.freedNode]⟩
      · have hgot := State.timerThreadEnsure_got (State.timerThreadGet_got h hget) hens
        have hdealloc : Kept s (v'.timerThreadDealloc x) t := ⟨(hgot.kept t).node, (hgot.kept t).queue⟩
        exact .inl (hdealloc.trans (Kept.move htu)).bump

theorem State.Created.kept_some (h : s.Wf) (hc : State.Created s clockId event attr created (s', some u)) :
    (s'.timer u).inuse = .inuse ∧ ∀ t, t ≠ u → Kept s s' t := by
  cases hc with
  | @ok _ _ v v' x hfree hget hens =>
      have hgot := State.timerThreadEnsure_got (State.timerThreadGet_got h hget) hens
      refine ⟨by simp [State.bump, State.createdNode, State.pendingNode], fun t ht => ?_⟩
      exact ((hgot.kept t).trans (Kept.move ht)).bump

theorem AddArgs.entry_type (args : AddArgs) : (args.entry now).periodic = decide (args.type ≠ .oneshot) := by
  cases hone : hasFlag args.flag timerOneshot <;> simp [AddArgs.entry, AddArgs.type, hone]

theorem AddArgs.its_value (args : AddArgs) (hpos : 0 < args.millisec) :
    args.its.value = zeroTimespec ↔ hasFlag args.flag timerStopped = true := by
  cases hstopped : hasFlag args.flag timerStopped with
  | true => simp [AddArgs.its, hstopped]
  | false => simpa [AddArgs.its, hstopped] using ms2ts_ne_zero hpos

theorem Agrees.addArm (h : Agrees s A clock) (hclock : ClockLe clock (some now)) {args : AddArgs}
    (hpos : 0 < args.millisec) (hwf : s'.Wf) (halive : s'.Alive) (hidle : s'.Idle)
    (hkept : ∀ t, t ≠ u → Kept s s' t) (hin : (s'.timer u).inuse = .inuse)
    (htype : (s'.timer u).type = args.type) (hms : (s'.timer u).millisec = args.millisec) :
    Agrees (s'.timerSettime (some u) false args.its now).1
      (A.observe (.add args created now,
        .added (if (s'.timerSettime (some u) false args.its now).2.1 = 0 then some u else none))) (some now) := by
  have hits := AddArgs.its_ok hpos
  have hs := State.timerSettime_settimed hwf hits u false now
  generalize s'.timerSettime (some u) false args.its now.1 = r at hs ⊢
  obtain ⟨s'', ret, wake⟩ := r
  have hwf' := hs.wf hwf hits
  have hthreads := hs.sameThreads
  have hentry : (args.entry now).periodic = decide ((s'.timer u).type ≠ .oneshot) := by
    rw [htype]
    exact args.entry_type
  have hadded (hkept' : ∀ t, t ≠ u → Kept s' s'' t) (he : (args.entry now).Agrees s'' A.lastPass u) :
      Agrees s'' (A.set u (some (args.entry now))) (some now) := by
    refine h.update hclock hwf' (hthreads.alive halive) (hthreads.idle hidle)
      (fun t ht => (hkept t ht).trans (hkept' t ht)) (by simp) ?_
    rintro _ ⟨rfl⟩
    exact he
  cases hs with
  | @arm x _ hth hvalue =>
      have hrunning : hasFlag args.flag timerStopped = false := by
        simpa using mt (args.its_value hpos).mpr hvalue
      refine hadded (fun t ht => .move ht) ?_
      have hvalue' : args.its.value = ms2ts (args.entry now).millisec := by
        simp [AddArgs.its, AddArgs.entry, hrunning]
      have hinterval : args.its.interval = if (args.entry now).periodic then args.its.value else zeroTimespec := by
        cases hone : hasFlag args.flag timerOneshot <;> simp [AddArgs.its, AddArgs.entry, hone]
      have harmed := armed_agrees hin hth hentry hms hpos hvalue' hinterval (h.last_le hclock)
      simpa [AddArgs.entry, hrunning] using harmed
  | stop _ hvalue =>
      have hstopped := (args.its_value hpos).mp hvalue
      exact hadded (fun t ht => .move ht) (stopped_agrees hin hentry hms hpos (by simp [AddArgs.entry, hstopped]))
  | free hfree => simp [hin] at hfree
  | lost hlost => simp [hin] at hlost

theorem Agrees.osTimerAdd (h : Agrees s A clock) (hclock : ClockLe clock (some now)) (args : AddArgs)
    (habs : hasFlag args.flag timerAbstime = false) (created : Bool) :
    Agrees (s.osTimerAdd args created now).1
      (A.observe (.add args created now, .added (s.osTimerAdd args created now).2)) (some now) := by
  cases hacc : args.accepted with
  | false =>
      have hsame : Agrees s A (some now) :=
        h.frame hclock h.wf h.alive h.idle fun _ => .inl ⟨rfl, fun _ => Iff.rfl⟩
      simpa [State.osTimerAdd, hacc, Schedule.observe] using hsame
  | true =>
      have hpos := AddArgs.millisec_pos hacc
      have hsafe := h.alive.createSafe args.attr .monotonic created
      have hcreated := State.osTimerAddCreate_created h.wf hsafe
      simp only [State.osTimerAdd, hacc, if_true]
      generalize s.osTimerAddCreate args created = r at hcreated ⊢
      obtain ⟨s₁, o⟩ := r
      have hwf₁ := hcreated.wf h.wf hsafe
      have hrec := hcreated.recruited h.wf h.alive
      have hidle₁ : s₁.Idle := fun x => hrec.idle x (h.idle x)
      cases o with
      | none => exact h.frame hclock hwf₁ (hrec.alive h.alive) hidle₁ (hcreated.kept_none h.wf)
      | some u =>
          obtain ⟨hin₁, hkept₁⟩ := hcreated.kept_some h.wf
          have hinit : s₁.osTimerAddInit args u =
              (s₁.setTimer u fun n => { n with type := args.type, millisec := args.millisec }, true) := by
            simp [State.osTimerAddInit, State.timerValid, hin₁]
          simp only [hinit, State.osTimerAddArm, habs]
          exact h.addArm hclock hpos (State.setTimer_data_wf hwf₁ args.type hpos.le) (hrec.alive h.alive) hidle₁
            (fun t ht => (hkept₁ t ht).trans (Kept.setTimer ht)) (by simpa using hin₁) (by simp) (by simp)

end Add

/-! ### Histories -/

def Op.plainFlags : Op → Bool
  | .add args .. => args.flag &&& ~~~(timerOneshot ||| timerInterval ||| timerStopped) = 0#32
  | _ => true

theorem not_abstime {flag : BitVec 32}
    (h : flag &&& ~~~(timerOneshot ||| timerInterval ||| timerStopped) = 0#32) :
    hasFlag flag timerAbstime = false := by
  have hmask : ~~~(timerOneshot ||| timerInterval ||| timerStopped) &&& timerAbstime = timerAbstime := by decide
  have hzero : flag &&& timerAbstime = 0#32 := by
    rw [← hmask, ← BitVec.and_assoc, h, BitVec.zero_and]
  simp [hasFlag, hzero]

theorem operate_agrees (h : Agrees s A clock) {op : Op} (hclock : ClockLe clock (op.now.or clock))
    (hflags : op.plainFlags = true) {out : Out} (hop : s.operate op = some (s', out)) :
    Agrees s' (A.observe (op, out)) (op.now.or clock) := by
  cases op with
  | add args created now =>
      obtain ⟨rfl, rfl⟩ := Prod.mk.inj (Option.some.inj hop)
      exact h.osTimerAdd hclock args (not_abstime (by simpa [Op.plainFlags] using hflags)) created
  | start timerid now =>
      obtain ⟨rfl, rfl⟩ := Prod.mk.inj (Option.some.inj hop)
      exact h.osTimerStart hclock timerid
  | reset timerid now =>
      obtain ⟨rfl, rfl⟩ := Prod.mk.inj (Option.some.inj hop)
      have hstart := h.osTimerStart hclock timerid
      cases timerid with
      | none => exact hstart
      | some t => exact hstart
  | stop timerid now =>
      obtain ⟨rfl, rfl⟩ := Prod.mk.inj (Option.some.inj hop)
      exact h.osTimerStop hclock timerid
  | settime timerid millisec =>
      obtain ⟨rfl, rfl⟩ := Prod.mk.inj (Option.some.inj hop)
      exact h.osTimerSettime timerid millisec
  | del timerid =>
      obtain ⟨s₁, ret, hdel, hagrees⟩ := h.osTimerDel timerid
      obtain ⟨rfl, rfl⟩ : s₁ = s' ∧ Out.code ret = out := by simpa [State.operate, hdel] using hop
      exact hagrees
  | pass th now =>
      obtain ⟨s₁, out₁, hpass, hp⟩ := pass_passed h.wf h.idle th now
      have hthread : (s.thread th).existsFlag = true := by
        by_contra hno
        simp [State.operate, hno] at hop
      obtain ⟨rfl, rfl⟩ : s₁ = s' ∧ Out.invoked out₁ = out := by simpa [State.operate, hthread, hpass] using hop
      exact h.pass hclock hp

theorem Sequential.admits.clockLe {Q : Sequential} {op : Op} (h : Q.admits op) :
    ClockLe Q.clock (op.now.or Q.clock) := by
  intro c hc
  cases hnow : op.now with
  | none => exact ⟨c, by simpa using hc, le_rfl⟩
  | some now =>
      refine ⟨now, by simp, ?_⟩
      have hcmp := h c hc now hnow
      rw [timespecCompare_lt_toNs now.2 c.2] at hcmp
      omega

/-- The module agrees with the schedule after every history. -/
theorem history_agrees {tr : List (Op × Out)} {Q : Sequential}
    (h : Steps sequential (fun _ op => op.plainFlags = true) sequential.init tr Q) :
    Agrees Q.svc (Schedule.ofHistory tr) Q.clock := by
  refine h.trace_invariant (I := fun tr Q => Agrees Q.svc (Schedule.ofHistory tr) Q.clock) ?_ ?_
  · exact ⟨initModule_wf, fun _ hx => (by cases hx), fun _ => rfl, fun _ _ ht => (by cases ht),
      fun _ _ ht => (by cases ht), fun _ _ hprev => (by cases hprev)⟩
  · intro tr Q op Q' ev hagrees hflags hstep
    have hadm : Q.admits op := by
      by_contra hno
      simp [sequential, Sequential.step, hno] at hstep
    obtain ⟨⟨s', out⟩, hop, hres⟩ : ∃ r, Q.svc.operate op = some r ∧
        (⟨r.1, op.now.or Q.clock⟩, [(op, r.2)]) = (Q', ev) := by
      simpa only [sequential, Sequential.step, hadm, if_true, Option.map_eq_some_iff] using hstep
    obtain ⟨rfl, rfl⟩ := Prod.mk.inj hres
    have hnext := operate_agrees hagrees hadm.clockLe hflags hop
    simpa only [Schedule.ofHistory, List.foldl_append, List.foldl_cons, List.foldl_nil] using hnext

theorem Schedule.observe_settime_due (A : Schedule) (timerid : TimerT) (millisec ret : Int) (th : ThreadId)
    (now : Int) (t : TimerId) :
    (A.observe (.settime timerid millisec, .code ret)).Due th now t ↔ A.Due th now t := by
  cases timerid with
  | none => exact Iff.rfl
  | some u =>
      by_cases hret : ret = 0
      · by_cases htu : t = u
        · subst htu
          cases hentry : A.entry t with
          | none => simp [Schedule.observe, hret, Schedule.modify, Schedule.set, Schedule.Due, hentry]
          | some e =>
              simp [Schedule.observe, hret, Schedule.modify, Schedule.set, Schedule.Due, hentry]
        · simp [Schedule.observe, hret, Schedule.modify, Schedule.set, Schedule.Due, htu]
      · simp [Schedule.observe, hret]

/-! ### What the calls return -/

theorem Agrees.isSome_entry (h : Agrees s A clock) (t : TimerId) :
    (A.entry t).isSome = true ↔ (s.timer t).inuse = .inuse := by
  constructor
  · intro hsome
    obtain ⟨e, he⟩ := Option.isSome_iff_exists.mp hsome
    exact (h.known t e he).inuse
  · intro hin
    obtain ⟨e, he, -⟩ := h.entry hin
    simp [he]

theorem Agrees.isSome_valid (h : Agrees s A clock) (t : TimerId) : (A.entry t).isSome = s.timerValid t := by
  rw [Bool.eq_iff_iff, h.isSome_entry, State.timerValid, decide_eq_true_eq]

theorem Agrees.settime_answers (h : Agrees s A clock) {its : Itimerspec} (hits : its.Ok) (abstime : Bool) :
    (s.timerSettime (some t) abstime its now).2.1 = if (A.entry t).isSome then 0 else -1 := by
  have hs := State.timerSettime_settimed h.wf hits t abstime now
  have hin := h.isSome_entry t
  generalize s.timerSettime (some t) abstime its now = r at hs
  cases hs with
  | arm hused => rw [if_pos (hin.mpr hused)]
  | stop hused => rw [if_pos (hin.mpr hused)]
  | free hfree => rw [if_neg (by rw [hin, hfree]; simp)]
  | lost hlost => rw [if_neg (by rw [hin, hlost]; simp)]

theorem Agrees.start_answers (h : Agrees s A clock) (timerid : TimerT) (now : ClockReading) :
    (s.osTimerStart timerid now).2 = if (timerid.bind A.entry).isSome then 0 else -1 := by
  cases timerid with
  | none => rfl
  | some t =>
      cases hvalid : s.timerValid t with
      | false => simp [State.osTimerStart, State.osTimerStartRead, hvalid, h.isSome_valid]
      | true =>
          have hread : s.osTimerStartRead (some t) = some (t, ⟨if (s.timer t).type = .oneshot then zeroTimespec
              else ms2ts (s.timer t).millisec, ms2ts (s.timer t).millisec⟩) := by
            simp [State.osTimerStartRead, hvalid]
          simp only [State.osTimerStart, hread]
          exact h.settime_answers (osTimerStartRead_ok h.wf hread) false

theorem Agrees.stop_answers (h : Agrees s A clock) (timerid : TimerT) (now : ClockReading) :
    (s.osTimerStop timerid now).2 = if (timerid.bind A.entry).isSome then 0 else -1 := by
  cases timerid with
  | none => rfl
  | some t => exact h.settime_answers zeroItimerspec_ok false

theorem Agrees.call_answers (h : Agrees s A clock) {op : Op} {ret : Int} (hret : A.answer op = some ret) :
    ∃ s', s.operate op = some (s', .code ret) := by
  cases op with
  | add args created now => cases hret
  | start timerid now =>
      cases hret
      rw [← h.start_answers timerid now]
      exact ⟨_, rfl⟩
  | reset timerid now =>
      cases hret
      rw [← h.start_answers timerid now]
      exact ⟨_, rfl⟩
  | stop timerid now =>
      cases hret
      rw [← h.stop_answers timerid now]
      exact ⟨_, rfl⟩
  | settime timerid millisec =>
      cases hret
      refine ⟨(s.osTimerSettime timerid millisec).1, ?_⟩
      cases timerid with
      | none => simp [State.operate, State.osTimerSettime]
      | some t =>
          by_cases hms : millisec ≤ 0
          · simp [State.operate, State.osTimerSettime, hms, not_lt.mpr hms]
          · cases hvalid : s.timerValid t <;>
              simp [State.operate, State.osTimerSettime, hms, not_le.mp hms, hvalid, h.isSome_valid]
  | del timerid =>
      cases hret
      obtain ⟨s', ret, hdel, -⟩ := h.osTimerDel timerid
      refine ⟨s', ?_⟩
      cases timerid with
      | none => simpa [State.osTimerDel, State.operate] using congrArg Prod.fst (Option.some.inj hdel)
      | some t =>
          cases hvalid : s.timerValid t with
          | false =>
              obtain rfl : s = s' := by simpa [State.osTimerDel, hvalid] using congrArg (Option.map Prod.fst) hdel
              simp [State.operate, State.osTimerDel, hvalid, h.isSome_valid]
          | true =>
              have hret : (0 : Int) = ret := by
                simp only [State.osTimerDel, hvalid, if_true] at hdel
                split at hdel
                · split at hdel
                  · cases hdel
                  · exact congrArg Prod.snd (Option.some.inj hdel)
                · exact congrArg Prod.snd (Option.some.inj hdel)
              simp [State.operate, hdel, h.isSome_valid, hvalid, hret]
  | pass th now => cases hret

/-- The timer that `os_timer_add` returns is new, and the call fails for want of a slot or of a thread only. -/
theorem Agrees.add_answers (h : Agrees s A clock) (args : AddArgs) (created : Bool) (now : Timespec) :
    (∀ t, (s.osTimerAdd args created now).2 = some t → A.entry t = none) ∧
      (args.accepted = true → created = true → s.timerFreeList ≠ [] → s.timerThreadGet args.attr .monotonic ≠ none →
        (s.osTimerAdd args created now).2 ≠ none) := by
  cases hacc : args.accepted with
  | false => simp [State.osTimerAdd, hacc]
  | true =>
      refine ⟨fun t ht => ?_, fun _ hstarted hslot hnode => ?_⟩
      · rw [osTimerAdd_result h.wf h.alive hacc] at ht
        have hc := State.osTimerAddCreate_created h.wf (h.alive.createSafe args.attr .monotonic created)
        generalize s.osTimerAddCreate args created = r at hc ht
        obtain ⟨s₁, o⟩ := r
        obtain rfl : o = some t := ht
        cases hc with
        | ok hlist =>
            have hfree : (s.timer t).inuse = .free := (h.wf.freeIff t).mp (by simp [hlist])
            by_contra hentry
            have hin := (h.isSome_entry t).mp (Option.isSome_iff_ne_none.mpr hentry)
            rw [hfree] at hin
            cases hin
      · subst hstarted
        exact (osTimerAdd_isSome h.wf h.alive hacc now).mpr ⟨hslot, hnode⟩

theorem Agrees.answered {Q : Sequential} (h : Agrees Q.svc A Q.clock) : A.Answered Q where
  call := by
    intro op ret hadm hret
    obtain ⟨s', hop⟩ := h.call_answers hret
    exact ⟨⟨s', op.now.or Q.clock⟩, by simp [Sequential.step, hadm, hop]⟩
  add := by
    intro args created now hadm
    obtain ⟨hnew, hsome⟩ := h.add_answers args created now
    refine ⟨⟨(Q.svc.osTimerAdd args created now).1, some now⟩, _, ?_, hnew, hsome⟩
    simp [Sequential.step, hadm, State.operate, Op.now]

/-- After every sequential history, a pass of a service thread at an admissible clock reading ends and
calls the handlers of exactly those of its timers that the schedule of the history makes due, with
the event each was registered with; a change of period does not change what is due; and a call that the
schedule follows succeeds on every timer of the schedule. -/
theorem pass_follows_schedule {tr : List (Op × Out)} {Q : Sequential}
    (h : Steps sequential (fun _ op => op.plainFlags = true) sequential.init tr Q) :
    (∀ (th : ThreadId) (now : ClockReading), (Q.svc.thread th).existsFlag = true → Q.admits (.pass th now) →
      ∃ Q' out, Q.step (.pass th now) = some (Q', [(.pass th now, .invoked out)]) ∧
        (∀ t, t ∈ out.map Prod.fst ↔
          (Q.svc.timer t).thread = some th ∧ (Schedule.ofHistory tr).Due th now.1.toNs t) ∧
        ∀ e ∈ out, e.2 = (Q.svc.timer e.1).event) ∧
    (∀ timerid millisec ret th now t,
      (Schedule.ofHistory (tr ++ [(.settime timerid millisec, .code ret)])).Due th now t ↔
        (Schedule.ofHistory tr).Due th now t) ∧
    (Schedule.ofHistory tr).Answered Q := by
  have hagrees := history_agrees h
  refine ⟨fun th now hth hadm => ?_, fun timerid millisec ret th now t => ?_, hagrees.answered⟩
  · obtain ⟨s', out, hpass, hp⟩ := pass_passed hagrees.wf hagrees.idle th now
    refine ⟨⟨s', some now⟩, out, ?_, fun t => ?_, hp.events⟩
    · simp [Sequential.step, hadm, State.operate, hth, hpass, Op.now]
    · rw [hp.invoked_iff t]
      constructor
      · rintro ⟨hmem, hdue⟩
        obtain ⟨hin, -, hthread, -⟩ := hagrees.wf.queued th t hmem
        exact ⟨hthread, (hagrees.due hthread hin _).mp ⟨hmem, hdue⟩⟩
      · rintro ⟨hthread, hdue⟩
        have hin : (Q.svc.timer t).inuse = .inuse := by
          obtain ⟨e, _, _, hentry, -⟩ := hdue
          exact (hagrees.known t e hentry).inuse
        exact (hagrees.due hthread hin _).mpr hdue
  · have happend : Schedule.ofHistory (tr ++ [(.settime timerid millisec, .code ret)]) =
        (Schedule.ofHistory tr).observe (.settime timerid millisec, .code ret) := by
      simp [Schedule.ofHistory, List.foldl_append]
    rw [happend]
    exact Schedule.observe_settime_due _ timerid millisec ret th _ t

/-- A periodic timer started at 0 with a period of one second fires in a pass at 5 after one at 3,
although its period was changed in between; it can be started again. -/
theorem pass_follows_schedule_periodic : ∃ tr Q,
    Steps sequential (fun _ op => op.plainFlags = true) sequential.init tr Q ∧
    (∃ Q' out, Q.step (.pass 0 (atSec 5)) = some (Q', [(.pass 0 (atSec 5), .invoked out)]) ∧ 0 ∈ out.map Prod.fst) ∧
    ∃ Q', Q.step (.start (some 0) (atSec 5)) = some (Q', [(.start (some 0) (atSec 5), .code 0)]) := by
  obtain ⟨Q, tr, hrun, htest⟩ := exists_steps_of_exec (m := sequential) (s := sequential.init)
    [.add ⟨30, 1000, timerInterval, some 1, 0, true⟩ true (atSec 0), .pass 0 (atSec 3), .settime (some 0) 9000]
    (p := fun r => (r.1.svc.thread 0).existsFlag && decide (r.1.admits (.pass 0 (atSec 5))) &&
      decide ((r.1.svc.timer 0).thread = some 0) &&
      decide ((Schedule.ofHistory r.2).entry 0 = some ⟨true, 9000, some (0, 1000000000), true⟩) &&
      decide ((Schedule.ofHistory r.2).lastPass 0 = some 3000000000))
    (show (sequential.exec (fun _ op => op.plainFlags = true) _ _).any _ = true by decide +kernel)
  simp only [Bool.and_eq_true, decide_eq_true_eq] at htest
  obtain ⟨⟨⟨⟨hth, hadm⟩, hthread⟩, hentry⟩, hlast⟩ := htest
  obtain ⟨hpasses, -, hanswered⟩ := pass_follows_schedule hrun
  obtain ⟨Q', out, hstep, hinvoked, -⟩ := hpasses 0 (atSec 5) hth hadm
  have hstart : (Schedule.ofHistory tr).answer (.start (some 0) (atSec 5)) = some 0 := by
    simp [Schedule.answer, hentry]
  refine ⟨tr, Q, hrun, ⟨Q', out, hstep, (hinvoked 0).mpr ⟨hthread, _, 0, 1000000000, hentry, rfl, ?_⟩⟩,
    hanswered.call _ 0 hadm hstart⟩
  rw [if_pos rfl]
  refine ⟨4, by decide, fun prev hprev => ?_, by decide⟩
  rw [hlast] at hprev
  cases hprev
  decide

end Pc02.Timer

import Pc02.Timer.Slots
import Pc02.Timer.Sequential

/-!
# Changing the period of a timer

`osal_timer_change` stops the timer, sets its period and starts it, whatever each of the three calls
returns. If the new period is refused the timer is nevertheless started, with the period that it had.
-/

namespace Pc02.Timer

open Function Machines

def osalStatusSuccess : Int := 0

def osalStatusErrorUndefined : Int := -1

/-- `osal_timer_change`. The clock is read by the stop and again by the start. -/
def State.osalTimerChange (s : State) (timerid : TimerT) (millisec : Int) (now now' : Timespec) : State × Int :=
  let stop := s.osTimerStop timerid now
  let settime := stop.1.osTimerSettime timerid millisec
  let start := settime.1.osTimerStart timerid now'
  let ret := BitVec.ofInt 32 stop.2 ||| BitVec.ofInt 32 settime.2 ||| BitVec.ofInt 32 start.2
  (start.1, if ret = 0#32 then osalStatusSuccess else osalStatusErrorUndefined)

structure Timing where
  millisec : Int
  armed : Bool
  expirytime : Timespec
  interval : Timespec
  queued : ThreadId → Bool

namespace State

def timing (s : State) (t : TimerId) : Timing where
  millisec := (s.timer t).millisec
  armed := (s.timer t).armed
  expirytime := (s.timer t).expirytime
  interval := (s.timer t).value.interval
  queued := fun th => (s.queue th).contains t

def startTiming (s : State) (t : TimerId) (millisec : Int) (now : Timespec) : Timing where
  millisec := millisec
  armed := decide (ms2ts millisec ≠ zeroTimespec)
  expirytime :=
    if ms2ts millisec ≠ zeroTimespec then timespecAdd now (ms2ts millisec) else (s.timer t).expirytime
  interval := if (s.timer t).type = .oneshot then zeroTimespec else ms2ts millisec
  queued := fun th => decide (ms2ts millisec ≠ zeroTimespec ∧ (s.timer t).thread = some th)

variable {s : State} {t : TimerId} {th : ThreadId} {now now' : Timespec} {millisec : Int}

theorem move_timing (n : TimerNode) (d : Place) : (s.move t n d).timing t =
    ⟨n.millisec, n.armed, n.expirytime, n.value.interval, fun th => decide (d = .queue th)⟩ := by
  have hqueue (th : ThreadId) : ((s.move t n d).queue th).contains t = decide (d = .queue th) := by
    rw [Bool.eq_iff_iff, List.contains_iff_mem, mem_move_queue]
    simp
  simp only [timing, move_timer, update_self, hqueue]

theorem osTimerStart_timing (href : (s.timer t).refcount = 1) (hin : (s.timer t).inuse = .inuse)
    (hth : (s.timer t).thread = some th) (hms : 0 ≤ (s.timer t).millisec) :
    (s.osTimerStart (some t) now).1.timing t = s.startTiming t (s.timer t).millisec now ∧
      (s.osTimerStart (some t) now).2 = 0 := by
  have hvalid : s.timerValid t = true := by simp [timerValid, hin]
  have hnormal := ms2ts_normal hms
  let its : Itimerspec :=
    ⟨if (s.timer t).type = .oneshot then zeroTimespec else ms2ts (s.timer t).millisec, ms2ts (s.timer t).millisec⟩
  have hits : its.Ok := by
    simp only [Itimerspec.Ok, its]
    split
    · exact ⟨zeroTimespec_normal, le_rfl, hnormal⟩
    · exact ⟨hnormal, ms2ts_sec_nonneg hms, hnormal⟩
  have hrange := hits.range
  have hstart : s.osTimerStart (some t) now =
      ((s.timerSettime (some t) false its now).1, (s.timerSettime (some t) false its now).2.1) := by
    simp [osTimerStart, osTimerStartRead, hvalid, its]
  rw [hstart]
  by_cases hzero : ms2ts (s.timer t).millisec = zeroTimespec
  · rw [timerSettime_stop href hin hrange hzero, move_timing]
    simp [startTiming, stoppedNode, its, hzero]
  · rw [timerSettime_arm href hin hth hrange hzero, move_timing]
    simp [startTiming, armedNode, its, hzero, hth]

theorem startTiming_congr {u : State} (htype : (u.timer t).type = (s.timer t).type)
    (hthread : (u.timer t).thread = (s.timer t).thread) (hexpiry : (u.timer t).expirytime = (s.timer t).expirytime)
    (millisec : Int) (now : Timespec) : u.startTiming t millisec now = s.startTiming t millisec now := by
  simp only [startTiming, htype, hthread, hexpiry]

/-- The change of a timer in use starts it, with the new period or with the old one. -/
theorem osalTimerChange_timing (href : (s.timer t).refcount = 1) (hin : (s.timer t).inuse = .inuse)
    (hth : (s.timer t).thread = some th) (hms : 0 ≤ (s.timer t).millisec) :
    (s.osalTimerChange (some t) millisec now now').1.timing t =
        s.startTiming t (if millisec ≤ 0 then (s.timer t).millisec else millisec) now' ∧
      (s.osalTimerChange (some t) millisec now now').2 =
        if millisec ≤ 0 then osalStatusErrorUndefined else osalStatusSuccess := by
  let u := s.move t (stoppedNode (s.timer t) zeroItimerspec) .nowhere
  have hstop : s.osTimerStop (some t) now = (u, 0) := by
    simp only [osTimerStop]
    rw [timerSettime_stop href hin rfl rfl]
  have hu : u.timer t = stoppedNode (s.timer t) zeroItimerspec := by simp [u]
  have hvalid : u.timerValid t = true := by simp [timerValid, hu, stoppedNode, hin]
  by_cases hle : millisec ≤ 0
  · -- the period is refused, and the timer is started with the old one
    have hset : u.osTimerSettime (some t) millisec = (u, -1) := by simp [osTimerSettime, hle]
    obtain ⟨hsched, hret⟩ : (u.osTimerStart (some t) now').1.timing t = _ ∧ _ = _ :=
      osTimerStart_timing (by rw [hu]; exact href) (by rw [hu]; exact hin) (by rw [hu]; exact hth)
        (by rw [hu]; exact hms)
    simp only [osalTimerChange, hstop, hset, hret, if_pos hle]
    refine ⟨?_, rfl⟩
    rw [hsched, hu]
    exact startTiming_congr (by rw [hu]; rfl) (by rw [hu]; rfl) (by rw [hu]; rfl) _ _
  · let v := u.setTimer t fun n => { n with millisec := millisec }
    have hset : u.osTimerSettime (some t) millisec = (v, 0) := by simp [osTimerSettime, hle, hvalid, v]
    have hv : v.timer t = { stoppedNode (s.timer t) zeroItimerspec with millisec := millisec } := by simp [v, hu]
    obtain ⟨hsched, hret⟩ : (v.osTimerStart (some t) now').1.timing t = _ ∧ _ = _ :=
      osTimerStart_timing (by rw [hv]; exact href) (by rw [hv]; exact hin) (by rw [hv]; exact hth)
        (by rw [hv]; exact (not_le.mp hle).le)
    simp only [osalTimerChange, hstop, hset, hret, if_neg hle]
    refine ⟨?_, rfl⟩
    rw [hsched, hv]
    exact startTiming_congr (by rw [hv]; rfl) (by rw [hv]; rfl) (by rw [hv]; rfl) _ _

/-- A change that fails leaves the schedule alone. One that succeeds arms the timer with its first expiry a
period after the clock, in the queue of its thread, and again every period if it is periodic. -/
def ChangeKept (s : State) (t : TimerId) (millisec : Int) (now now' : Timespec) : Prop :=
  let r := s.osalTimerChange (some t) millisec now now'
  (r.2 ≠ osalStatusSuccess → r.1.timing t = s.timing t) ∧
  (r.2 = osalStatusSuccess → (r.1.timing t).armed = true ∧
    (r.1.timing t).expirytime.toNs = now'.toNs + millisec * 1000000 ∧
    (r.1.timing t).interval.toNs = (if (s.timer t).type = .oneshot then 0 else millisec * 1000000) ∧
    ∀ th, (r.1.timing t).queued th = true ↔ (s.timer t).thread = some th)

end State

/-- A change does what it should exactly if the new period is positive, or the timer is scheduled already as
a start would schedule it. -/
theorem changeKept_iff {tr : List Event} {S : System} (h : Steps service (fun _ _ => True) service.init tr S)
    (t : TimerId) (hlive : (S.svc.timer t).inuse = .inuse) (millisec : Int) (now now' : ClockReading) :
    S.svc.ChangeKept t millisec now now' ↔
      0 < millisec ∨ S.svc.timing t = S.svc.startTiming t (S.svc.timer t).millisec now' := by
  have hslots := run_slotsOk h
  have href := hslots.refOk t
  rw [TimerNode.RefOk, hlive] at href
  obtain ⟨th, hth⟩ := hslots.threaded t hlive
  obtain ⟨hsched, hret⟩ : (S.svc.osalTimerChange (some t) millisec now.1 now'.1).1.timing t = _ ∧ _ = _ :=
    State.osalTimerChange_timing href hlive hth (hslots.dataOk t).2.2
  rw [State.ChangeKept]
  by_cases hle : millisec ≤ 0
  · rw [if_pos hle] at hsched hret
    have hfail : osalStatusErrorUndefined ≠ osalStatusSuccess := by decide
    simp only [hsched, hret, ne_eq, hfail, not_false_eq_true, forall_const, false_implies, and_true]
    rw [or_iff_right (not_lt.mpr hle)]
    exact eq_comm
  · have hpos := not_le.mp hle
    have hne := ms2ts_ne_zero hpos
    rw [if_neg hle] at hsched hret
    simp only [hsched, hret, ne_eq, not_true_eq_false, false_implies, true_and, forall_const, hpos, true_or, iff_true]
    refine ⟨by simp [State.startTiming, hne], ?_, ?_, ?_⟩
    · simp only [State.startTiming, if_pos hne, timespecAdd_toNs, ms2ts_toNs]
    · simp only [State.startTiming]
      split
      · rfl
      · rw [ms2ts_toNs]
    · intro th
      simp [State.startTiming, hne]

/-- A timer that was added stopped gets a period of two seconds. -/
theorem changeKept_stopped : ∃ tr S, Steps service (fun _ _ => True) service.init tr S ∧
    (S.svc.timer 0).inuse = .inuse ∧ (S.svc.timer 0).armed = false ∧
    S.svc.ChangeKept 0 2000 (atSec 7) (atSec 8) := by
  obtain ⟨S, tr, hrun, htest⟩ := exists_steps_of_exec (m := service) (s := service.init)
    ((addSteps 0 timerStopped 30 5).take 3)
    (p := fun r => decide ((r.1.svc.timer 0).inuse = .inuse) && decide ((r.1.svc.timer 0).armed = false))
    (show (service.exec (fun _ _ => True) _ _).any _ = true by decide +kernel)
  simp only [Bool.and_eq_true, decide_eq_true_eq] at htest
  exact ⟨tr, S, hrun, htest.1, htest.2,
    (changeKept_iff hrun 0 htest.1 2000 (atSec 7) (atSec 8)).mpr (.inl (by decide))⟩

/-- A change to no period at all fails, and starts a timer that was stopped. -/
theorem failed_change_starts : ∃ tr S, Steps service (fun _ _ => True) service.init tr S ∧
    (S.svc.timer 0).inuse = .inuse ∧ ¬ S.svc.ChangeKept 0 0 (atSec 7) (atSec 8) := by
  obtain ⟨S, tr, hrun, htest⟩ := exists_steps_of_exec (m := service) (s := service.init)
    ((addSteps 0 timerStopped 30 5).take 3)
    (p := fun r => decide ((r.1.svc.timer 0).inuse = .inuse) && decide ((r.1.svc.timing 0).armed = false) &&
      decide ((r.1.svc.osalTimerChange (some 0) 0 (atSec 7).1 (atSec 8).1).2 = -1) &&
      decide (((r.1.svc.osalTimerChange (some 0) 0 (atSec 7).1 (atSec 8).1).1.timing 0).armed = true))
    (show (service.exec (fun _ _ => True) _ _).any _ = true by decide +kernel)
  simp only [Bool.and_eq_true, decide_eq_true_eq] at htest
  obtain ⟨⟨⟨hlive, hstopped⟩, hret⟩, harmed⟩ := htest
  refine ⟨tr, S, hrun, hlive, fun h => ?_⟩
  have hsame := h.1 (by rw [hret]; decide)
  rw [hsame, hstopped] at harmed
  cases harmed

end Pc02.Timer

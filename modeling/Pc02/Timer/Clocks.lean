import Pc02.Timer.Wakeup

/-!
# The two clocks of the service threads

Timers run on `CLOCK_MONOTONIC`, and `pthread_cond_timedwait` waits on `CLOCK_REALTIME`. `thread_func` reads
both and waits until the time the second will show when the first shows the expiry. Time passes between the
two readings, and the real-time clock may be set at any moment: while a thread computes its deadline, and
while it waits. A timer is late by as much as the real-time clock was set back since, and is never early.
-/

namespace Pc02.Timer

open Function Machines

/-- `timespec_sub`. Its result may be its second operand: each field is read before it is written. -/
def timespecSub (left right : Timespec) : Timespec :=
  let nsec := left.nsec - right.nsec
  if nsec < 0 then ⟨left.sec - right.sec - 1, nsec + nsecPerSec⟩
  else ⟨left.sec - right.sec, nsec⟩

theorem timespecSub_toNs (a b : Timespec) : (timespecSub a b).toNs = a.toNs - b.toNs := by
  by_cases h : a.nsec - b.nsec < 0
  · simp only [timespecSub, if_pos h, Timespec.toNs]
    ring
  · simp only [timespecSub, if_neg h, Timespec.toNs]
    ring

theorem timespecSub_normal {a b : Timespec} (ha : a.Normal) (hb : b.Normal) : (timespecSub a b).Normal := by
  simp only [Timespec.Normal] at ha hb ⊢
  by_cases h : a.nsec - b.nsec < 0
  · simp only [timespecSub, if_pos h]
    omega
  · simp only [timespecSub, if_neg h]
    omega

/-- What `thread_func` passes to `pthread_cond_timedwait`, from its two readings. -/
def waitAbstime (expirytime now abstime : Timespec) : Timespec := timespecAdd abstime (timespecSub expirytime now)

theorem waitAbstime_toNs (e now real : Timespec) : (waitAbstime e now real).toNs = real.toNs + (e.toNs - now.toNs) := by
  rw [waitAbstime, timespecAdd_toNs, timespecSub_toNs]

theorem waitAbstime_normal {e now real : Timespec} (he : e.Normal) (hnow : now.Normal) (hreal : real.Normal) :
    (waitAbstime e now real).Normal := timespecAdd_normal hreal (timespecSub_normal he hnow)

theorem split_normal (ns : Int) : Timespec.Normal ⟨ns / nsecPerSec, ns % nsecPerSec⟩ := by
  simp only [Timespec.Normal, nsecPerSec]
  omega

def clockGettime (ns : Int) : ClockReading := ⟨⟨ns / nsecPerSec, ns % nsecPerSec⟩, split_normal ns⟩

theorem clockGettime_toNs (ns : Int) : (clockGettime ns).1.toNs = ns := by
  simp only [clockGettime, Timespec.toNs, nsecPerSec]
  omega

structure Clocks where
  mono : Int
  real : Int
deriving DecidableEq

inductive ClockMove
  | tick (ns : Nat)
  | settime (ns : Int)
deriving DecidableEq

def Clocks.move (c : Clocks) : ClockMove → Clocks
  | .tick ns => ⟨c.mono + ns, c.real + ns⟩
  | .settime ns => ⟨c.mono, ns⟩

def Clocks.moves (c : Clocks) (ms : List ClockMove) : Clocks := ms.foldl Clocks.move c

structure Wait where
  now : ClockReading
  real : ClockReading
  abstime : Timespec

namespace Action

/-- `thread_func` reads the clock of the timers while it holds the mutex, `__timer_settime` before it takes it. -/
def reads (c : Clocks) : Action → Bool
  | .look _ now => now = clockGettime c.mono
  | .addArm _ now | .startArm _ now | .stop _ _ now => now.1.toNs ≤ c.mono
  | _ => true

def serves : Action → Option ThreadId
  | .look th _ | .finish th => some th
  | _ => none

end Action

structure Clocked where
  sys : System
  clocks : Clocks
  wait : ThreadId → Option Wait

inductive ClockedAction
  | clock (m : ClockMove)
  /-- A step of the service. If it ends in `pthread_cond_timedwait`, the clocks move before the first
  reading and between the two. -/
  | service (a : Action) (before between : List ClockMove)
  | timeout (th : ThreadId)

namespace Clocked

def init (c : Clocks) : Clocked := ⟨System.init, c, fun _ => none⟩

def after (C : Clocked) (S : System) : Clocked :=
  { C with
    sys := S
    wait := fun th =>
      match S.pc th with
      | .blocked _ => C.wait th
      | _ => none }

def beginWait (C : Clocked) (th : ThreadId) (expirytime : Timespec) (before between : List ClockMove) : Clocked :=
  { C with
    clocks := (C.clocks.moves before).moves between
    wait := update C.wait th (some
      { now := clockGettime (C.clocks.moves before).mono
        real := clockGettime ((C.clocks.moves before).moves between).real
        abstime := waitAbstime expirytime (clockGettime (C.clocks.moves before).mono)
          (clockGettime ((C.clocks.moves before).moves between).real) }) }

/-- The end of a section: `thread_func` reads the clocks if it is going to wait for an expiry. -/
def leave (C : Clocked) (a : Action) (before between : List ClockMove) : Clocked :=
  match a.serves with
  | none => C
  | some th =>
      match C.sys.pc th with
      | .blocked (some expirytime) => C.beginWait th expirytime before between
      | _ => C

def step (C : Clocked) : ClockedAction → Option (Clocked × List Event)
  | .clock m => some ({ C with clocks := C.clocks.move m }, [])
  | .service a before between =>
      if a.reads C.clocks then
        (C.sys.step a).map fun r => ((C.after r.1).leave a before between, r.2)
      else none
  | .timeout th =>
      match C.wait th with
      | none => none
      | some w =>
          if w.abstime.toNs ≤ C.clocks.real then (C.sys.step (.wake th)).map fun r => (C.after r.1, r.2)
          else none

def Returns (_ : Clocked) : ClockedAction → Prop
  | .service a _ _ => a.returns = true
  | _ => True

instance (C : Clocked) (a : ClockedAction) : Decidable (C.Returns a) :=
  match a with
  | .clock _ => .isTrue trivial
  | .service a _ _ => inferInstanceAs (Decidable (a.returns = true))
  | .timeout _ => .isTrue trivial

end Clocked

def clocked (c : Clocks) : Machine Clocked ClockedAction Event := ⟨.init c, Clocked.step⟩

section Moves

theorem Clocks.mono_le_moves (c : Clocks) (ms : List ClockMove) : c.mono ≤ (c.moves ms).mono := by
  induction ms generalizing c with
  | nil => exact le_rfl
  | cons m ms ih =>
      refine le_trans ?_ (ih (c.move m))
      cases m with
      | tick ns =>
          simp only [Clocks.move]
          omega
      | settime ns => exact le_rfl

def Clocks.ahead (c : Clocks) : Int := c.real - c.mono

def ClockMove.passes : ClockMove → Bool
  | .tick _ => true
  | .settime _ => false

theorem Clocks.ahead_moves (c : Clocks) (ms : List ClockMove) (hms : ms.all ClockMove.passes = true) :
    (c.moves ms).ahead = c.ahead := by
  induction ms generalizing c with
  | nil => rfl
  | cons m ms ih =>
      rw [List.all_cons, Bool.and_eq_true] at hms
      refine (ih (c.move m) hms.2).trans ?_
      cases m with
      | tick ns =>
          simp only [Clocks.move, Clocks.ahead]
          omega
      | settime ns => cases hms.1

variable {S S' : System} {a : Action} {ev : List Event} {th : ThreadId}

theorem settimeDone_not_popped {p : Pthread} {t u : TimerId} {r : State × Int × Option ThreadId} {ret : Ret} {reg : Nat} :
    Event.popped th t reg ∉ (S.settimeDone p u r ret).2 := by
  simp only [System.settimeDone]
  split <;> split <;> simp

theorem serve_pc_other {x : ThreadId} (S : System) (now : ClockReading) (hx : th ≠ x) :
    (S.serve x now).1.pc th = S.pc th := by
  have hserved := serve_served S x now
  generalize S.serve x now = r at hserved
  cases hserved <;> simp [hx]

/-- Only a thread that goes through its queue begins to wait or comes upon a timer. -/
theorem Stepped.pc_other (h : Stepped S a S' ev) (hret : a.returns = true) (hth : a.serves ≠ some th) :
    S'.pc th = S.pc th ∨ S'.pc th = .ready ∨
      ∃ t reg now, S.pc th = .expiring t reg now ∧ S'.pc th = .handling t reg now := by
  have hspawn {svc : State} : (S.spawn svc).pc th = S.pc th ∨ (S.spawn svc).pc th = .ready := by
    simp only [System.spawn]
    split
    · exact .inr rfl
    · exact .inl rfl
  cases h with
  | addFailed => exact hspawn.imp id .inl
  | add => exact hspawn.imp id .inl
  | @wakeup p x ret hcall =>
      simp only [System.setCall_pc, System.broadcast]
      split
      · by_cases hx : th = x
        · subst hx
          simp
        · simp [hx]
      · exact .inl rfl
  | @look x now hpc => exact .inl (serve_pc_other _ now fun hx => hth (congrArg some hx.symm))
  | @finish x t reg now hpc hcall => exact .inl (serve_pc_other _ now fun hx => hth (congrArg some hx.symm))
  | @invoke x t reg now hpc =>
      by_cases hx : th = x
      · subst hx
        exact .inr (.inr ⟨t, reg, now, hpc, by simp⟩)
      · simp [hx]
  | @wake x deadline hpc =>
      by_cases hx : th = x
      · subst hx
        simp
      · simp [hx]
  | exit => cases hret
  | _ => exact .inl (by simp [System.deleteDone])

theorem serve_pc_self (S : System) (h : S.svc.Wf) (now : ClockReading) :
    (∀ e, (S.serve th now).1.pc th = .blocked (some e) → e.Normal) ∧
    (∀ t reg m, (S.serve th now).1.pc th = .expiring t reg m → m = now) ∧
    (∀ t reg m, (S.serve th now).1.pc th ≠ .handling t reg m) ∧
    ∀ x t reg, Event.popped x t reg ∈ (S.serve th now).2 → (S.svc.timer t).expirytime.toNs ≤ now.1.toNs := by
  have hserved := serve_served S th now
  generalize S.serve th now = r at hserved
  cases hserved with
  | empty => simp
  | @early t rest hq hlt =>
      have hnormal := (h.queued th t (by simp [hq])).2.2.2
      simp [hnormal]
  | @due t rest hq hle =>
      have hnormal := (h.queued th t (by simp [hq])).2.2.2
      have hdue : (S.svc.timer t).expirytime.toNs ≤ now.1.toNs := by
        by_contra hlt
        rw [not_le, ← key_lt_iff_toNs now.2 hnormal] at hlt
        exact absurd hle (not_le.mpr hlt)
      refine ⟨by simp, ?_, by simp, ?_⟩
      · intro t' reg m hpc
        simp only [System.setPc_pc, update_self, ServicePc.expiring.injEq] at hpc
        exact hpc.2.2.symm
      · intro x t' reg hmem
        cases List.mem_singleton.mp hmem
        exact hdue

end Moves

/-- A thread waits until the time that its two readings give, and the readings that the threads work with are
not later than the clock. -/
structure Clocked.Ok (C : Clocked) : Prop where
  waits : ∀ th e, C.sys.pc th = .blocked (some e) →
    ∃ w, C.wait th = some w ∧ e.Normal ∧ w.abstime = waitAbstime e w.now w.real
  expiring : ∀ th t reg now, C.sys.pc th = .expiring t reg now → now.1.toNs ≤ C.clocks.mono
  handling : ∀ th t reg now, C.sys.pc th = .handling t reg now → now.1.toNs ≤ C.clocks.mono

namespace Clocked

variable {c : Clocks} {C C' : Clocked} {S : System} {a : Action} {before between : List ClockMove} {tr ev : List Event}
  {th : ThreadId}

theorem after_wait {d : Option Timespec} (hpc : S.pc th = .blocked d) : (C.after S).wait th = C.wait th := by
  simp [after, hpc]

theorem leave_sys : (C.leave a before between).sys = C.sys := by
  simp only [leave]
  split
  · rfl
  · split <;> rfl

theorem mono_le_leave : C.clocks.mono ≤ (C.leave a before between).clocks.mono := by
  simp only [leave]
  split
  · exact le_rfl
  · split
    · exact le_trans (Clocks.mono_le_moves _ before) (Clocks.mono_le_moves _ between)
    · exact le_rfl

theorem leave_wait_other (hth : a.serves ≠ some th) : (C.leave a before between).wait th = C.wait th := by
  simp only [leave]
  split
  · rfl
  · rename_i x hx
    have hne : th ≠ x := by
      rintro rfl
      exact hth hx
    split
    · simp [beginWait, hne]
    · rfl

theorem leave_wait_self {e : Timespec} (hth : a.serves = some th) (hpc : C.sys.pc th = .blocked (some e)) :
    ∃ w, (C.leave a before between).wait th = some w ∧ w.abstime = waitAbstime e w.now w.real := by
  simp [leave, hth, hpc, beginWait]

theorem Ok.service (h : C.Ok) (hinv : C.sys.Inv) (hret : a.returns = true)
    (hnow : a.reads C.clocks = true) (hs : Stepped C.sys a S ev) :
    ((C.after S).leave a before between).Ok := by
  have hmono : C.clocks.mono ≤ ((C.after S).leave a before between).clocks.mono :=
    mono_le_leave (C := C.after S)
  -- what a thread finds that goes through its queue
  have hserve : ∀ x, a.serves = some x → ∃ (S₀ : System) (now : ClockReading), S₀.svc.Wf ∧
      now.1.toNs ≤ C.clocks.mono ∧ S = (S₀.serve x now).1 := by
    intro x hx
    cases hs with
    | @look y now hpc =>
        cases hx
        cases of_decide_eq_true hnow
        exact ⟨C.sys, _, hinv.wf, (clockGettime_toNs _).le, rfl⟩
    | @finish y t reg now hpc hcall =>
        cases hx
        exact ⟨_, now, State.expireDone_wf hinv.wf x, h.handling x t reg now hpc, rfl⟩
    | _ => cases hx
  constructor
  · intro x e hpc
    rw [leave_sys] at hpc
    by_cases hx : a.serves = some x
    · obtain ⟨w, hw, habs⟩ : ∃ w, ((C.after S).leave a before between).wait x = some w ∧
          w.abstime = waitAbstime e w.now w.real := leave_wait_self hx hpc
      obtain ⟨S₀, now, hwf, -, rfl⟩ := hserve x hx
      exact ⟨w, hw, (serve_pc_self S₀ hwf now).1 e hpc, habs⟩
    · rw [leave_wait_other hx, after_wait (S := S) hpc]
      rcases hs.pc_other hret hx with hsame | hready | ⟨t, reg, now, -, hhandling⟩
      · exact h.waits x e (hsame.symm.trans hpc)
      · cases hready.symm.trans hpc
      · cases hhandling.symm.trans hpc
  · intro x t reg m hpc
    rw [leave_sys] at hpc
    by_cases hx : a.serves = some x
    · obtain ⟨S₀, now, hwf, hle, rfl⟩ := hserve x hx
      cases (serve_pc_self S₀ hwf now).2.1 t reg m hpc
      exact hle.trans hmono
    · rcases hs.pc_other hret hx with hsame | hready | ⟨t', reg', now, -, hhandling⟩
      · exact (h.expiring x t reg m (hsame.symm.trans hpc)).trans hmono
      · cases hready.symm.trans hpc
      · cases hhandling.symm.trans hpc
  · intro x t reg m hpc
    rw [leave_sys] at hpc
    by_cases hx : a.serves = some x
    · obtain ⟨S₀, now, hwf, -, rfl⟩ := hserve x hx
      exact absurd hpc ((serve_pc_self S₀ hwf now).2.2.1 t reg m)
    · rcases hs.pc_other hret hx with hsame | hready | ⟨t', reg', now, hexpiring, hhandling⟩
      · exact (h.handling x t reg m (hsame.symm.trans hpc)).trans hmono
      · cases hready.symm.trans hpc
      · cases hhandling.symm.trans hpc
        exact (h.expiring x t reg m hexpiring).trans hmono

theorem Ok.clock (h : C.Ok) (m : ClockMove) : { C with clocks := C.clocks.move m }.Ok := by
  have hmono : C.clocks.mono ≤ (C.clocks.move m).mono := C.clocks.mono_le_moves [m]
  constructor
  · exact h.waits
  · intro x t reg now hpc
    exact (h.expiring x t reg now hpc).trans hmono
  · intro x t reg now hpc
    exact (h.handling x t reg now hpc).trans hmono

theorem init_ok (c : Clocks) : (init c).Ok where
  waits _ _ hpc := by cases hpc
  expiring _ _ _ _ hpc := by cases hpc
  handling _ _ _ _ hpc := by cases hpc

/-- Everything a step can do. A timeout is a step of the service that reads no clock. -/
theorem step_cases {a : ClockedAction} (hret : C.Returns a) (hstep : C.step a = some (C', ev)) :
    (∃ m, a = .clock m ∧ C' = { C with clocks := C.clocks.move m } ∧ ev = []) ∨
    ∃ (b : Action) (before between : List ClockMove) (S : System), b.returns = true ∧
      b.reads C.clocks = true ∧ C.sys.step b = some (S, ev) ∧
      C' = (C.after S).leave b before between := by
  cases a with
  | clock m =>
      cases hstep
      exact .inl ⟨m, rfl, rfl, rfl⟩
  | service b before between =>
      right
      simp only [step] at hstep
      split at hstep
      case isFalse => cases hstep
      case isTrue hnow =>
        obtain ⟨r, hr, heq⟩ := Option.map_eq_some_iff.mp hstep
        cases heq
        exact ⟨b, before, between, r.1, hret, hnow, hr, rfl⟩
  | timeout th =>
      right
      simp only [step] at hstep
      split at hstep
      · cases hstep
      · split at hstep
        · obtain ⟨r, hr, heq⟩ := Option.map_eq_some_iff.mp hstep
          cases heq
          exact ⟨.wake th, [], [], r.1, rfl, rfl, hr, rfl⟩
        · cases hstep

/-- A run with clocks is a run of the service. -/
theorem run_service (hsteps : Steps (clocked c) Returns (clocked c).init tr C) :
    Steps service Timer.Returns service.init tr C.sys ∧ C.Ok := by
  apply hsteps.trace_invariant (I := fun tr C => Steps service Timer.Returns service.init tr C.sys ∧ C.Ok)
  · exact ⟨.nil, init_ok c⟩
  · rintro tr C a C' ev ⟨hrun, hok⟩ hret hstep
    rcases step_cases hret hstep with ⟨m, -, rfl, rfl⟩ | ⟨b, before, between, S, hb, hnow, hs, rfl⟩
    · rw [List.append_nil]
      exact ⟨hrun, hok.clock m⟩
    · rw [leave_sys]
      exact ⟨hrun.snoc hb hs, hok.service (run_inv hrun) hb hnow (step_stepped hs)⟩

theorem Ok.popped_due {t : TimerId} {reg : Nat} (h : C.Ok) (hinv : C.sys.Inv)
    (hnow : a.reads C.clocks = true) (hs : Stepped C.sys a S ev)
    (hmem : Event.popped th t reg ∈ ev) : (C.sys.svc.timer t).expirytime.toNs ≤ C.clocks.mono := by
  cases hs with
  | @look y now hpc =>
      cases of_decide_eq_true hnow
      exact ((serve_pc_self C.sys hinv.wf _).2.2.2 th t reg hmem).trans (clockGettime_toNs _).le
  | @finish y t' reg' now hpc hcall =>
      have hdue := (serve_pc_self { C.sys with svc := C.sys.svc.expireDone y }
        (State.expireDone_wf hinv.wf y) now).2.2.2 th t reg hmem
      exact hdue.trans (h.handling y t' reg' now hpc)
  | addArm => exact absurd hmem settimeDone_not_popped
  | startArm => exact absurd hmem settimeDone_not_popped
  | stop => exact absurd hmem settimeDone_not_popped
  | _ => simp [System.deleteDone] at hmem

/-- A wait ends when its clock shows the time that the two readings give. -/
theorem timeout_iff {w : Wait} {e : Timespec} (hinv : C.sys.Inv) (hpc : C.sys.pc th = .blocked (some e))
    (hw : C.wait th = some w) (habs : w.abstime = waitAbstime e w.now w.real) :
    (∃ C', C.step (.timeout th) = some (C', [])) ↔
      e.toNs + (w.real.1.toNs - w.now.1.toNs - C.clocks.ahead) ≤ C.clocks.mono := by
  have hwake : C.sys.step (.wake th) = some (C.sys.setPc th .ready, []) := by
    simp [System.step, hinv.wf.running, hpc]
  have htime : w.abstime.toNs ≤ C.clocks.real ↔
      e.toNs + (w.real.1.toNs - w.now.1.toNs - C.clocks.ahead) ≤ C.clocks.mono := by
    rw [habs, waitAbstime_toNs, Clocks.ahead]
    omega
  rw [← htime]
  simp [step, hw, hwake]

end Clocked

/-- Whatever the clocks do, a run is one of the service. A thread that waits for an expiry has a deadline in
normal form, and its wait ends when its clock has reached the expiry and what the real-time clock was set
back in between, which includes the time between the two readings. Unless a broadcast is due, the expiry is
not later than that of the first timer. No timer is taken from its queue before it expires. -/
theorem late_as_clock_set {c : Clocks} {tr : List Event} {C : Clocked}
    (hsteps : Steps (clocked c) Clocked.Returns (clocked c).init tr C) :
    Steps service Returns service.init tr C.sys ∧
    (∀ th e, C.sys.pc th = .blocked (some e) → ∃ w, C.wait th = some w ∧ w.abstime.Normal ∧
      ((∃ C', C.step (.timeout th) = some (C', [])) ↔
        e.toNs + (w.real.1.toNs - w.now.1.toNs - C.clocks.ahead) ≤ C.clocks.mono) ∧
      ∀ t rest, C.sys.svc.queue th = t :: rest → (∀ p ret, C.sys.call p ≠ .waking th ret) →
        e.toNs ≤ (C.sys.svc.timer t).expirytime.toNs) ∧
    ∀ a C' ev, C.Returns a → C.step a = some (C', ev) → ∀ th t reg, Event.popped th t reg ∈ ev →
      (C.sys.svc.timer t).expirytime.toNs ≤ C.clocks.mono := by
  obtain ⟨hrun, hok⟩ := Clocked.run_service hsteps
  have hinv := run_inv hrun
  refine ⟨hrun, ?_, ?_⟩
  · intro th e hpc
    obtain ⟨w, hw, hnormal, habs⟩ := hok.waits th e hpc
    refine ⟨w, hw, ?_, Clocked.timeout_iff hinv hpc hw habs, ?_⟩
    · rw [habs]
      exact waitAbstime_normal hnormal w.now.2 w.real.2
    · intro t rest hqueue hnone
      rcases run_wakes hrun th (some e) t hpc (by simp [hqueue]) with ⟨d, hd, hle⟩ | ⟨p, ret, hp⟩
      · cases hd
        have hexpiry := (hinv.wf.queued th t (by simp [hqueue])).2.2.2
        by_contra hlt
        rw [not_le, ← key_lt_iff_toNs hexpiry hnormal] at hlt
        exact absurd hle (not_le.mpr hlt)
      · exact absurd hp (hnone p ret)
  · intro a C' ev hret hstep th t reg hmem
    rcases Clocked.step_cases hret hstep with ⟨m, -, -, rfl⟩ | ⟨b, before, between, S, -, hnow, hs, -⟩
    · cases hmem
    · exact hok.popped_due hinv hnow (step_stepped hs) hmem

/-- A timer is armed for the sixth second. Its thread reads the clocks seven nanoseconds apart. -/
def waitsForSixth : List ClockedAction :=
  .clock (.tick 5000000000) :: (addSteps 0 timerOneshot 30 5).map (fun a => .service a [] []) ++
    [.service (.look 0 (atSec 5)) [] [.tick 7]]

/-- The clock is set back by three seconds while the thread waits: the timer is late. -/
theorem late_as_clock_set_back : ∃ tr C, Steps (clocked ⟨0, 90000000000⟩) Clocked.Returns (clocked ⟨0, 90000000000⟩).init
      tr C ∧ C.sys.pc 0 = .blocked (some ⟨6, 0⟩) ∧ C.clocks.mono = 8000000007 ∧
      ¬ ∃ C', C.step (.timeout 0) = some (C', []) := by
  obtain ⟨C, tr, hsteps, htest⟩ := exists_steps_of_exec (m := clocked ⟨0, 90000000000⟩)
    (s := (clocked ⟨0, 90000000000⟩).init)
    (waitsForSixth ++ [.clock (.settime 92000000007), .clock (.tick 3000000000)])
    (p := fun r => decide (r.1.sys.pc 0 = .blocked (some ⟨6, 0⟩)) &&
      decide (r.1.clocks = ⟨8000000007, 95000000007⟩) &&
      decide ((r.1.wait 0).map (fun w => (w.now.1.toNs, w.real.1.toNs)) = some (5000000000, 95000000007)))
    (show ((clocked _).exec Clocked.Returns _ _).any _ = true by decide +kernel)
  simp only [Bool.and_eq_true, decide_eq_true_eq] at htest
  obtain ⟨⟨hpc, hclocks⟩, hwait⟩ := htest
  refine ⟨tr, C, hsteps, hpc, by rw [hclocks], ?_⟩
  obtain ⟨w, hw, -, htimeout, -⟩ := (late_as_clock_set hsteps).2.1 0 ⟨6, 0⟩ hpc
  simp only [hw, Option.map_some, Option.some.injEq, Prod.mk.injEq] at hwait
  rw [htimeout, hwait.1, hwait.2, hclocks]
  decide

/-! ### Runs in which nobody sets the clock -/

namespace Clocked

def Undisturbed (_ : Clocked) : ClockedAction → Prop
  | .clock m => m.passes = true
  | .service a before between => a.returns = true ∧ before.all ClockMove.passes = true ∧
      between.all ClockMove.passes = true
  | .timeout _ => True

instance (C : Clocked) (a : ClockedAction) : Decidable (C.Undisturbed a) :=
  match a with
  | .clock m => inferInstanceAs (Decidable (m.passes = true))
  | .service a before between => inferInstanceAs (Decidable (a.returns = true ∧ before.all ClockMove.passes = true ∧
      between.all ClockMove.passes = true))
  | .timeout _ => .isTrue trivial

theorem Undisturbed.returns {C : Clocked} (a : ClockedAction) (h : C.Undisturbed a) : C.Returns a := by
  cases a with
  | service a before between => exact h.1
  | _ => trivial

/-- The clocks go on together, and a thread reads the second one after the first. -/
structure Steady (ahead : Int) (C : Clocked) : Prop where
  clocks : C.clocks.ahead = ahead
  waits : ∀ th w, C.wait th = some w → ahead ≤ w.real.1.toNs - w.now.1.toNs

variable {ahead : Int} {C C' : Clocked} {S : System} {a : Action} {before between : List ClockMove}

theorem Steady.after (h : Steady ahead C) (S : System) : Steady ahead (C.after S) where
  clocks := h.clocks
  waits := by
    intro th w hw
    simp only [Clocked.after] at hw
    split at hw
    · exact h.waits th w hw
    · cases hw

theorem Steady.beginWait {th : ThreadId} {e : Timespec} (h : Steady ahead C)
    (hbefore : before.all ClockMove.passes = true) (hbetween : between.all ClockMove.passes = true) :
    Steady ahead (C.beginWait th e before between) := by
  have hahead : ((C.clocks.moves before).moves between).ahead = ahead := by
    rw [Clocks.ahead_moves _ _ hbetween, Clocks.ahead_moves _ _ hbefore, h.clocks]
  constructor
  · exact hahead
  · intro x w hw
    by_cases hx : x = th
    · subst hx
      simp only [Clocked.beginWait, update_self, Option.some.injEq] at hw
      subst hw
      have hmono := Clocks.mono_le_moves (C.clocks.moves before) between
      simp only [clockGettime_toNs]
      rw [← hahead, Clocks.ahead]
      omega
    · simp only [Clocked.beginWait, update_of_ne hx] at hw
      exact h.waits x w hw

theorem Steady.leave (h : Steady ahead C) (hbefore : before.all ClockMove.passes = true)
    (hbetween : between.all ClockMove.passes = true) : Steady ahead (C.leave a before between) := by
  simp only [Clocked.leave]
  split
  · exact h
  · split
    · exact h.beginWait hbefore hbetween
    · exact h

theorem Steady.step {b : ClockedAction} {ev : List Event} (h : Steady ahead C) (hb : C.Undisturbed b)
    (hstep : C.step b = some (C', ev)) : Steady ahead C' := by
  cases b with
  | clock m =>
      cases hstep
      refine ⟨?_, h.waits⟩
      have hm : [m].all ClockMove.passes = true := by
        rw [List.all_cons, List.all_nil, Bool.and_true]
        exact hb
      exact (Clocks.ahead_moves C.clocks [m] hm).trans h.clocks
  | service a before between =>
      simp only [Clocked.step] at hstep
      split at hstep
      case isFalse => cases hstep
      case isTrue hnow =>
        obtain ⟨r, -, heq⟩ := Option.map_eq_some_iff.mp hstep
        cases heq
        exact (h.after r.1).leave hb.2.1 hb.2.2
  | timeout th =>
      simp only [Clocked.step] at hstep
      split at hstep
      · cases hstep
      · split at hstep
        · obtain ⟨r, -, heq⟩ := Option.map_eq_some_iff.mp hstep
          cases heq
          exact h.after r.1
        · cases hstep

end Clocked

/-- If nobody sets the clock, a wait that times out is not in vain: the expiry it was for has passed, and if
that is still the one of the first timer, the timer is taken from the queue as soon as the thread runs. -/
theorem timeout_finds_due {c : Clocks} {tr ev : List Event} {C C' : Clocked} {th : ThreadId} {e : Timespec}
    (hsteps : Steps (clocked c) Clocked.Undisturbed (clocked c).init tr C) (hpc : C.sys.pc th = .blocked (some e))
    (hstep : C.step (.timeout th) = some (C', ev)) :
    e.toNs ≤ C.clocks.mono ∧ ∀ t rest, C.sys.svc.queue th = t :: rest → (C.sys.svc.timer t).expirytime = e →
      ∃ C'', C'.step (.service (.look th (clockGettime C'.clocks.mono)) [] []) =
        some (C'', [.popped th t (C.sys.svc.timer t).event.reg]) := by
  obtain ⟨hrun, hok⟩ := Clocked.run_service (hsteps.mono fun _ a => Clocked.Undisturbed.returns a)
  have hinv := run_inv hrun
  have hsteady : Clocked.Steady c.ahead C := by
    apply hsteps.invariant (I := Clocked.Steady c.ahead)
    · intro C a C' ev h hok hstep
      exact h.step hok hstep
    · exact ⟨rfl, fun _ _ hw => by cases hw⟩
  obtain ⟨w, hw, hnormal, habs⟩ := hok.waits th e hpc
  have hwake : C.sys.step (.wake th) = some (C.sys.setPc th .ready, []) := by
    simp [System.step, hinv.wf.running, hpc]
  simp only [Clocked.step, hw, hwake, Option.map_some] at hstep
  split at hstep
  case isFalse => cases hstep
  case isTrue htime =>
    cases hstep
    have hdue : e.toNs ≤ C.clocks.mono := by
      have hgap := hsteady.waits th w hw
      have hahead := hsteady.clocks
      rw [habs, waitAbstime_toNs] at htime
      rw [Clocks.ahead] at hahead
      omega
    refine ⟨hdue, ?_⟩
    intro t rest hqueue hexpiry
    have hlate : ¬ timespecCompare (clockGettime C.clocks.mono) (C.sys.svc.timer t).expirytime < 0 := by
      rw [timespecCompare_lt_toNs (clockGettime _).2 (hexpiry ▸ hnormal), clockGettime_toNs, hexpiry]
      omega
    have hlist : (C.sys.svc.thread th).timerQueue = t :: rest := hqueue
    simp [Clocked.step, Action.reads, Clocked.after, System.step, hinv.wf.running, System.serve, hlist, hlate]

theorem timeout_finds_due_sixth : ∃ tr C C' C'', Steps (clocked ⟨0, 90000000000⟩) Clocked.Undisturbed
      (clocked ⟨0, 90000000000⟩).init tr C ∧ C.clocks.mono = 6000000007 ∧ C.step (.timeout 0) = some (C', []) ∧
      C'.step (.service (.look 0 (clockGettime C'.clocks.mono)) [] []) =
        some (C'', [.popped 0 0 (C.sys.svc.timer 0).event.reg]) := by
  obtain ⟨C, tr, hsteps, htest⟩ := exists_steps_of_exec (m := clocked ⟨0, 90000000000⟩)
    (s := (clocked ⟨0, 90000000000⟩).init) (waitsForSixth ++ [.clock (.tick 1000000000)])
    (p := fun r => decide (r.1.sys.pc 0 = .blocked (some ⟨6, 0⟩)) && decide (r.1.clocks.mono = 6000000007) &&
      decide (r.1.sys.svc.queue 0 = [0]) && decide ((r.1.sys.svc.timer 0).expirytime = ⟨6, 0⟩) &&
      (r.1.step (.timeout 0)).any (fun q : Clocked × List Event => q.2.isEmpty))
    (show ((clocked _).exec Clocked.Undisturbed _ _).any _ = true by decide +kernel)
  simp only [Bool.and_eq_true, decide_eq_true_eq] at htest
  obtain ⟨⟨⟨⟨hpc, hmono⟩, hqueue⟩, hexpiry⟩, htimeout⟩ := htest
  cases hstep : C.step (.timeout 0) with
  | none =>
      rw [hstep] at htimeout
      cases htimeout
  | some q =>
      obtain ⟨C', ev⟩ := q
      rw [hstep] at htimeout
      have hev : ev = [] := by simpa using htimeout
      subst hev
      obtain ⟨C'', hpop⟩ := (timeout_finds_due hsteps hpc hstep).2 0 [] hqueue hexpiry
      exact ⟨tr, C, C', C'', hsteps, hmono, hstep, hpop⟩

end Pc02.Timer

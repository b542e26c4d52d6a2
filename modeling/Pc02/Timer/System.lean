import Pc02.Lib.Machine
import Pc02.Timer.State

/-!
# The timer service as an interleaving of locked sections

Any number of client threads, and the handlers themselves, call the API. Each section that runs
under `__timer_mutex` is one step; what a thread does between two sections is its program counter.
The service thread splits an expiry as `thread_expire_timer` does: pop and announce the timer under
the lock, read its event and run the handler without it, relock and clear the announcement.
A clock reading is part of the action that uses it and otherwise arbitrary.
-/

namespace Pc02.Timer

inductive Ret
  | added (t : TimerId)
  | code (ret : Int)
deriving DecidableEq, Repr

inductive Call
  | idle
  /-- `os_timer_add`, after `__timer_create`. -/
  | adding (args : AddArgs) (t : TimerId)
  /-- `os_timer_add`, before `__timer_settime`. -/
  | addArming (args : AddArgs) (t : TimerId)
  /-- `os_timer_start`, before `__timer_settime`. -/
  | starting (t : TimerId) (its : Itimerspec)
  /-- `__timer_delete` in `pthread_cond_wait` for the thread `th`; `reg` is the registration that
  was valid when the wait began. -/
  | deleting (t : TimerId) (th : ThreadId) (reg : Nat)
  /-- Lock released, `__timer_thread_wakeup` still to do. -/
  | waking (th : ThreadId) (ret : Ret)
deriving DecidableEq, Repr

inductive ServicePc
  /-- The node has no thread. -/
  | absent
  /-- About to take the lock and look at the queue. -/
  | ready
  /-- In `pthread_cond_timedwait` until the deadline, or in `pthread_cond_wait`. -/
  | blocked (deadline : Option Timespec)
  /-- Lock released in `thread_expire_timer`, `timer->event` not read yet. -/
  | expiring (t : TimerId) (reg : Nat) (now : ClockReading)
  /-- In the handler. -/
  | handling (t : TimerId) (reg : Nat) (now : ClockReading)
deriving DecidableEq

inductive Event
  | returned (p : Pthread) (ret : Ret)
  /-- A delete that was called on registration `called` of slot `t`, served by `th`, released the
  slot while it held registration `acted`. -/
  | deleted (p : Pthread) (t : TimerId) (th : Option ThreadId) (called acted : Nat)
  | armed (t : TimerId) (reg : Nat)
  | popped (th : ThreadId) (t : TimerId) (reg : Nat)
  | invoked (th : ThreadId) (event : Sigevent)
deriving DecidableEq, Repr

inductive Action
  | add (p : Pthread) (args : AddArgs) (created : Bool)
  | addInit (p : Pthread)
  | addArm (p : Pthread) (now : ClockReading)
  | start (p : Pthread) (timerid : TimerT)
  | startArm (p : Pthread) (now : ClockReading)
  | stop (p : Pthread) (timerid : TimerT) (now : ClockReading)
  | settime (p : Pthread) (timerid : TimerT) (millisec : Int)
  | del (p : Pthread) (timerid : TimerT)
  | delWake (p : Pthread)
  | wakeup (p : Pthread)
  | look (th : ThreadId) (now : ClockReading)
  | invoke (th : ThreadId)
  | finish (th : ThreadId)
  | wake (th : ThreadId)
  | exit (th : ThreadId) (created : Bool)

structure System where
  svc : State
  call : Pthread → Call
  pc : ThreadId → ServicePc

namespace System

def init : System := ⟨initModule, fun _ => .idle, fun _ => .absent⟩

def setCall (S : System) (p : Pthread) (c : Call) : System :=
  { S with call := Function.update S.call p c }

def setPc (S : System) (th : ThreadId) (c : ServicePc) : System :=
  { S with pc := Function.update S.pc th c }

/-- A thread may enter an API call when it is in none; a service thread only from a handler. -/
def canCall (S : System) (p : Pthread) : Bool :=
  S.call p = .idle &&
    match p with
    | .client _ => true
    | .service th =>
        match S.pc th with
        | .handling .. => true
        | _ => false

/-- A node whose thread was just created is served from the start of `thread_func`. -/
def spawn (S : System) (svc : State) : System :=
  { S with
    svc := svc
    pc := fun th =>
      if (S.svc.thread th).existsFlag = false ∧ (svc.thread th).existsFlag = true then .ready
      else S.pc th }

/-- Leave `__timer_settime`: wake the service thread if its head changed, then return. -/
def settimeDone (S : System) (p : Pthread) (t : TimerId) (r : State × Int × Option ThreadId)
    (success : Ret) : System × List Event :=
  let ret := if r.2.1 = 0 then success else .code (-1)
  let armed := if r.2.1 = 0 ∧ (r.1.timer t).armed then [Event.armed t (r.1.timer t).event.reg] else []
  let S := { S with svc := r.1 }
  match r.2.2 with
  | some th => (S.setCall p (.waking th ret), armed)
  | none => (S.setCall p .idle, armed ++ [.returned p ret])

/-- `__timer_delete` past its wait. -/
def deleteDone (S : System) (p : Pthread) (t : TimerId) (th : Option ThreadId) (called : Nat) :
    System × List Event :=
  ({ S with svc := S.svc.timerDelete t }.setCall p .idle,
    [.deleted p t th called (S.svc.timer t).event.reg, .returned p (.code 0)])

/-- From the top of the inner loop of `thread_func` to the next point where the lock is released:
either the head is due and is popped, or the thread blocks until the head's expiry. -/
def serve (S : System) (th : ThreadId) (now : ClockReading) : System × List Event :=
  match (S.svc.thread th).timerQueue with
  | [] => (S.setPc th (.blocked none), [])
  | t :: _ =>
      let n := S.svc.timer t
      if timespecCompare now n.expirytime < 0 then (S.setPc th (.blocked (some n.expirytime)), [])
      else
        ({ S with svc := S.svc.expireTimer th t now }.setPc th (.expiring t n.event.reg now),
          [.popped th t n.event.reg])

/-- `pthread_cond_broadcast` on the condition variable of a thread node, as its service thread
sees it. Waiting deletes check their condition again at any time. -/
def broadcast (S : System) (th : ThreadId) : System :=
  match S.pc th with
  | .blocked _ => S.setPc th .ready
  | _ => S

section Fields

variable (S : System) (p : Pthread) (th : ThreadId) (svc : State)

@[simp] theorem setCall_svc (c) : (S.setCall p c).svc = S.svc := rfl
@[simp] theorem setCall_pc (c) : (S.setCall p c).pc = S.pc := rfl
@[simp] theorem setCall_call (c) : (S.setCall p c).call = Function.update S.call p c := rfl
@[simp] theorem setPc_svc (c) : (S.setPc th c).svc = S.svc := rfl
@[simp] theorem setPc_call (c) : (S.setPc th c).call = S.call := rfl
@[simp] theorem setPc_pc (c) : (S.setPc th c).pc = Function.update S.pc th c := rfl
@[simp] theorem spawn_svc : (S.spawn svc).svc = svc := rfl
@[simp] theorem spawn_call : (S.spawn svc).call = S.call := rfl

@[simp] theorem broadcast_svc : (S.broadcast th).svc = S.svc := by
  simp only [broadcast]
  split <;> rfl

@[simp] theorem broadcast_call : (S.broadcast th).call = S.call := by
  simp only [broadcast]
  split <;> rfl

@[simp] theorem settimeDone_svc (t : TimerId) (r : State × Int × Option ThreadId) (ret : Ret) :
    (S.settimeDone p t r ret).1.svc = r.1 := by
  simp only [settimeDone]
  split <;> rfl

@[simp] theorem settimeDone_pc (t : TimerId) (r : State × Int × Option ThreadId) (ret : Ret) :
    (S.settimeDone p t r ret).1.pc = S.pc := by
  simp only [settimeDone]
  split <;> rfl

end Fields

def step (S : System) (a : Action) : Option (System × List Event) :=
  if S.svc.aborted then none else
  match a with
  | .add p args created =>
      if S.canCall p then
        if args.accepted then
          match S.svc.osTimerAddCreate args created with
          | (svc, none) => some (S.spawn svc, [.returned p (.code (-1))])
          | (svc, some t) => some ((S.spawn svc).setCall p (.adding args t), [])
        else some (S, [.returned p (.code (-1))])
      else none
  | .addInit p =>
      match S.call p with
      | .adding args t =>
          match S.svc.osTimerAddInit args t with
          | (_, false) => some (S.setCall p .idle, [.returned p (.code (-1))])
          | (svc, true) => some ({ S with svc := svc }.setCall p (.addArming args t), [])
      | _ => none
  | .addArm p now =>
      match S.call p with
      | .addArming args t =>
          some (S.settimeDone p t (S.svc.osTimerAddArm args t now) (.added t))
      | _ => none
  | .start p timerid =>
      if S.canCall p then
        match S.svc.osTimerStartRead timerid with
        | none => some (S, [.returned p (.code (-1))])
        | some (t, its) => some (S.setCall p (.starting t its), [])
      else none
  | .startArm p now =>
      match S.call p with
      | .starting t its =>
          some (S.settimeDone p t (S.svc.timerSettime (some t) false its now) (.code 0))
      | _ => none
  | .stop p timerid now =>
      if S.canCall p then
        match timerid with
        | none => some (S, [.returned p (.code (-1))])
        | some t =>
            some (S.settimeDone p t (S.svc.timerSettime (some t) false zeroItimerspec now) (.code 0))
      else none
  | .settime p timerid millisec =>
      if S.canCall p then
        let r := S.svc.osTimerSettime timerid millisec
        some ({ S with svc := r.1 }, [.returned p (.code r.2)])
      else none
  | .del p timerid =>
      if S.canCall p then
        match timerid with
        | none => some (S, [.returned p (.code (-1))])
        | some t =>
            let n := S.svc.timer t
            if S.svc.timerValid t then
              match (if n.armed then n.thread else none) with
              | some th =>
                  if S.svc.deleteMustWait t th p then
                    some (S.setCall p (.deleting t th n.event.reg), [])
                  else some (S.deleteDone p t n.thread n.event.reg)
              | none => some (S.deleteDone p t n.thread n.event.reg)
            else some (S, [.returned p (.code (-1))])
      else none
  | .delWake p =>
      match S.call p with
      | .deleting t th reg =>
          if S.svc.deleteMustWait t th p then some (S, [])
          else some (S.deleteDone p t (some th) reg)
      | _ => none
  | .wakeup p =>
      match S.call p with
      | .waking th ret => some ((S.broadcast th).setCall p .idle, [.returned p ret])
      | _ => none
  | .look th now =>
      match S.pc th with
      | .ready => some (S.serve th now)
      | _ => none
  | .invoke th =>
      match S.pc th with
      | .expiring t reg now =>
          some (S.setPc th (.handling t reg now), [.invoked th (S.svc.timer t).event])
      | _ => none
  | .finish th =>
      match S.pc th with
      | .handling _ _ now =>
          if S.call (.service th) = .idle then
            some ({ S with svc := S.svc.expireDone th }.serve th now)
          else none
      | _ => none
  | .wake th =>
      match S.pc th with
      | .blocked _ => some (S.setPc th .ready, [])
      | _ => none
  | .exit th created =>
      match S.pc th with
      | .handling .. =>
          let r := S.svc.threadCleanup th created
          some (({ S with svc := r.1 }.setCall (.service th) .idle).setPc th
            (if r.2 then .ready else .absent), [])
      | _ => none

end System

/-- Everything a step can do, and what it has checked when it goes on. -/
inductive Stepped (S : System) : Action → System → List Event → Prop
  | addRefused {p : Pthread} {args : AddArgs} {created : Bool} : S.canCall p = true →
      Stepped S (.add p args created) S [.returned p (.code (-1))]
  | addFailed {p : Pthread} {args : AddArgs} {created : Bool} {svc : State} : S.canCall p = true →
      args.accepted = true → S.svc.osTimerAddCreate args created = (svc, none) →
      Stepped S (.add p args created) (S.spawn svc) [.returned p (.code (-1))]
  | add {p : Pthread} {args : AddArgs} {created : Bool} {svc : State} {t : TimerId} : S.canCall p = true →
      args.accepted = true → S.svc.osTimerAddCreate args created = (svc, some t) →
      Stepped S (.add p args created) ((S.spawn svc).setCall p (.adding args t)) []
  | addInitFailed {p : Pthread} {args : AddArgs} {t : TimerId} : S.call p = .adding args t →
      Stepped S (.addInit p) (S.setCall p .idle) [.returned p (.code (-1))]
  | addInit {p : Pthread} {args : AddArgs} {t : TimerId} : S.call p = .adding args t → S.svc.timerValid t = true →
      Stepped S (.addInit p) ({ S with svc := S.svc.setTimer t fun n =>
        { n with type := args.type, millisec := args.millisec } }.setCall p (.addArming args t)) []
  | addArm {p : Pthread} {now : ClockReading} {args : AddArgs} {t : TimerId} : S.call p = .addArming args t →
      Stepped S (.addArm p now) (S.settimeDone p t (S.svc.osTimerAddArm args t now) (.added t)).1
        (S.settimeDone p t (S.svc.osTimerAddArm args t now) (.added t)).2
  | startRefused {p : Pthread} {timerid : TimerT} : S.canCall p = true →
      Stepped S (.start p timerid) S [.returned p (.code (-1))]
  | start {p : Pthread} {timerid : TimerT} {t : TimerId} {its : Itimerspec} : S.canCall p = true →
      S.svc.osTimerStartRead timerid = some (t, its) → Stepped S (.start p timerid) (S.setCall p (.starting t its)) []
  | startArm {p : Pthread} {now : ClockReading} {t : TimerId} {its : Itimerspec} : S.call p = .starting t its →
      Stepped S (.startArm p now) (S.settimeDone p t (S.svc.timerSettime (some t) false its now) (.code 0)).1
        (S.settimeDone p t (S.svc.timerSettime (some t) false its now) (.code 0)).2
  | stopRefused {p : Pthread} {timerid : TimerT} {now : ClockReading} : S.canCall p = true →
      Stepped S (.stop p timerid now) S [.returned p (.code (-1))]
  | stop {p : Pthread} {t : TimerId} {now : ClockReading} : S.canCall p = true →
      Stepped S (.stop p (some t) now)
        (S.settimeDone p t (S.svc.timerSettime (some t) false zeroItimerspec now) (.code 0)).1
        (S.settimeDone p t (S.svc.timerSettime (some t) false zeroItimerspec now) (.code 0)).2
  | settimeRefused {p : Pthread} {timerid : TimerT} {millisec : Int} : S.canCall p = true →
      Stepped S (.settime p timerid millisec) S [.returned p (.code (-1))]
  | settime {p : Pthread} {t : TimerId} {millisec : Int} : S.canCall p = true → 0 < millisec →
      S.svc.timerValid t = true →
      Stepped S (.settime p (some t) millisec)
        { S with svc := S.svc.setTimer t fun n => { n with millisec := millisec } } [.returned p (.code 0)]
  | delRefused {p : Pthread} {timerid : TimerT} : S.canCall p = true →
      Stepped S (.del p timerid) S [.returned p (.code (-1))]
  | delWaits {p : Pthread} {t : TimerId} {th : ThreadId} : S.canCall p = true →
      (S.svc.timer t).inuse = .inuse → (S.svc.timer t).armed = true → (S.svc.timer t).thread = some th →
      S.svc.deleteMustWait t th p = true →
      Stepped S (.del p (some t)) (S.setCall p (.deleting t th (S.svc.timer t).event.reg)) []
  | del {p : Pthread} {t : TimerId} : S.canCall p = true → (S.svc.timer t).inuse = .inuse →
      (∀ th, (S.svc.timer t).armed = true → (S.svc.timer t).thread = some th →
        S.svc.deleteMustWait t th p = false) →
      Stepped S (.del p (some t)) (S.deleteDone p t (S.svc.timer t).thread (S.svc.timer t).event.reg).1
        (S.deleteDone p t (S.svc.timer t).thread (S.svc.timer t).event.reg).2
  | delStillWaits {p : Pthread} {t : TimerId} {th : ThreadId} {reg : Nat} : S.call p = .deleting t th reg →
      S.svc.deleteMustWait t th p = true → Stepped S (.delWake p) S []
  | delWake {p : Pthread} {t : TimerId} {th : ThreadId} {reg : Nat} : S.call p = .deleting t th reg →
      S.svc.deleteMustWait t th p = false →
      Stepped S (.delWake p) (S.deleteDone p t (some th) reg).1 (S.deleteDone p t (some th) reg).2
  | wakeup {p : Pthread} {th : ThreadId} {ret : Ret} : S.call p = .waking th ret →
      Stepped S (.wakeup p) ((S.broadcast th).setCall p .idle) [.returned p ret]
  | look {th : ThreadId} {now : ClockReading} : S.pc th = .ready →
      Stepped S (.look th now) (S.serve th now).1 (S.serve th now).2
  | invoke {th : ThreadId} {t : TimerId} {reg : Nat} {now : ClockReading} : S.pc th = .expiring t reg now →
      Stepped S (.invoke th) (S.setPc th (.handling t reg now)) [.invoked th (S.svc.timer t).event]
  | finish {th : ThreadId} {t : TimerId} {reg : Nat} {now : ClockReading} : S.pc th = .handling t reg now →
      S.call (.service th) = .idle →
      Stepped S (.finish th) ({ S with svc := S.svc.expireDone th }.serve th now).1
        ({ S with svc := S.svc.expireDone th }.serve th now).2
  | wake {th : ThreadId} {deadline : Option Timespec} : S.pc th = .blocked deadline →
      Stepped S (.wake th) (S.setPc th .ready) []
  | exit {th : ThreadId} {created : Bool} {c : ServicePc} :
      Stepped S (.exit th created) (({ S with svc := (S.svc.threadCleanup th created).1 }.setCall
        (.service th) .idle).setPc th c) []

section Inversion

variable {S S' : System} {p : Pthread} {a : Action} {ev : List Event}

theorem System.step_running (hstep : S.step a = some (S', ev)) : S.svc.aborted = false := by
  cases hab : S.svc.aborted with
  | false => rfl
  | true => simp [System.step, hab] at hstep

theorem add_stepped {args : AddArgs} {created : Bool} (hstep : S.step (.add p args created) = some (S', ev)) :
    Stepped S (.add p args created) S' ev := by
  simp only [System.step, System.step_running hstep, Bool.false_eq_true, if_false] at hstep
  split at hstep
  case isFalse => cases hstep
  case isTrue hp =>
    split at hstep
    · rename_i hacc
      split at hstep
      · rename_i svc hres
        cases hstep
        exact .addFailed hp hacc hres
      · rename_i svc t hres
        cases hstep
        exact .add hp hacc hres
    · cases hstep
      exact .addRefused hp

theorem settime_stepped {timerid : TimerT} {millisec : Int} (hstep : S.step (.settime p timerid millisec) = some (S', ev)) :
    Stepped S (.settime p timerid millisec) S' ev := by
  simp only [System.step, System.step_running hstep, Bool.false_eq_true, if_false, State.osTimerSettime] at hstep
  split at hstep
  case isFalse => cases hstep
  case isTrue hp =>
    cases hstep
    split
    · exact .settimeRefused hp
    · rename_i hms
      split
      · exact .settimeRefused hp
      · split
        · rename_i hvalid
          exact .settime hp (not_le.mp hms) hvalid
        · exact .settimeRefused hp

theorem del_stepped {timerid : TimerT} (hstep : S.step (.del p timerid) = some (S', ev)) :
    Stepped S (.del p timerid) S' ev := by
  simp only [System.step, System.step_running hstep, Bool.false_eq_true, if_false] at hstep
  split at hstep
  case isFalse => cases hstep
  case isTrue hp =>
    split at hstep
    · cases hstep
      exact .delRefused hp
    · rename_i t
      cases hvalid : S.svc.timerValid t with
      | false =>
          simp only [hvalid, Bool.false_eq_true, if_false] at hstep
          cases hstep
          exact .delRefused hp
      | true =>
          have hin : (S.svc.timer t).inuse = .inuse := by simpa [State.timerValid] using hvalid
          simp only [hvalid, if_true] at hstep
          split at hstep
          · rename_i th hth
            have harmed : (S.svc.timer t).armed = true ∧ (S.svc.timer t).thread = some th := by
              cases hb : (S.svc.timer t).armed <;> simp_all
            split at hstep
            · rename_i hwait
              cases hstep
              exact .delWaits hp hin harmed.1 harmed.2 hwait
            · rename_i hwait
              cases hstep
              refine .del hp hin fun th' _ hth' => ?_
              obtain rfl : th = th' := Option.some.inj (harmed.2.symm.trans hth')
              simpa using hwait
          · rename_i hnone
            cases hstep
            refine .del hp hin fun th' harmed hth' => ?_
            simp [harmed, hth'] at hnone

/-- A step does one of these things. -/
theorem step_stepped (hstep : S.step a = some (S', ev)) : Stepped S a S' ev := by
  have hrun := System.step_running hstep
  cases a with
  | add p args created => exact add_stepped hstep
  | settime p timerid millisec => exact settime_stepped hstep
  | del p timerid => exact del_stepped hstep
  | addInit p =>
      simp only [System.step, hrun, Bool.false_eq_true, if_false, State.osTimerAddInit] at hstep
      split at hstep
      case h_2 => cases hstep
      case h_1 args t hcall =>
        cases hvalid : S.svc.timerValid t with
        | false =>
            simp only [hvalid, Bool.false_eq_true, if_false] at hstep
            cases hstep
            exact .addInitFailed hcall
        | true =>
            simp only [hvalid, if_true] at hstep
            cases hstep
            exact .addInit hcall hvalid
  | addArm p now =>
      simp only [System.step, hrun, Bool.false_eq_true, if_false] at hstep
      split at hstep
      case h_2 => cases hstep
      case h_1 args t hcall =>
        obtain ⟨rfl, rfl⟩ := Prod.mk.inj (Option.some.inj hstep)
        exact .addArm hcall
  | start p timerid =>
      simp only [System.step, hrun, Bool.false_eq_true, if_false] at hstep
      split at hstep
      case isFalse => cases hstep
      case isTrue hp =>
        split at hstep
        · cases hstep
          exact .startRefused hp
        · rename_i t its hread
          cases hstep
          exact .start hp hread
  | startArm p now =>
      simp only [System.step, hrun, Bool.false_eq_true, if_false] at hstep
      split at hstep
      case h_2 => cases hstep
      case h_1 t its hcall =>
        obtain ⟨rfl, rfl⟩ := Prod.mk.inj (Option.some.inj hstep)
        exact .startArm hcall
  | stop p timerid now =>
      simp only [System.step, hrun, Bool.false_eq_true, if_false] at hstep
      split at hstep
      case isFalse => cases hstep
      case isTrue hp =>
        split at hstep
        · cases hstep
          exact .stopRefused hp
        · obtain ⟨rfl, rfl⟩ := Prod.mk.inj (Option.some.inj hstep)
          exact .stop hp
  | delWake p =>
      simp only [System.step, hrun, Bool.false_eq_true, if_false] at hstep
      split at hstep
      case h_2 => cases hstep
      case h_1 t th reg hcall =>
        split at hstep
        · rename_i hwait
          cases hstep
          exact .delStillWaits hcall hwait
        · rename_i hwait
          cases hstep
          exact .delWake hcall (by simpa using hwait)
  | wakeup p =>
      simp only [System.step, hrun, Bool.false_eq_true, if_false] at hstep
      split at hstep
      case h_2 => cases hstep
      case h_1 th ret hcall =>
        cases hstep
        exact .wakeup hcall
  | look th now =>
      simp only [System.step, hrun, Bool.false_eq_true, if_false] at hstep
      split at hstep
      case h_2 => cases hstep
      case h_1 hpc =>
        obtain ⟨rfl, rfl⟩ := Prod.mk.inj (Option.some.inj hstep)
        exact .look hpc
  | invoke th =>
      simp only [System.step, hrun, Bool.false_eq_true, if_false] at hstep
      split at hstep
      case h_2 => cases hstep
      case h_1 t reg now hpc =>
        cases hstep
        exact .invoke hpc
  | finish th =>
      simp only [System.step, hrun, Bool.false_eq_true, if_false] at hstep
      split at hstep
      case h_2 => cases hstep
      case h_1 t reg now hpc =>
        split at hstep
        · rename_i hcall
          obtain ⟨rfl, rfl⟩ := Prod.mk.inj (Option.some.inj hstep)
          exact .finish hpc hcall
        · cases hstep
  | wake th =>
      simp only [System.step, hrun, Bool.false_eq_true, if_false] at hstep
      split at hstep
      case h_2 => cases hstep
      case h_1 deadline hpc =>
        cases hstep
        exact .wake hpc
  | exit th created =>
      simp only [System.step, hrun, Bool.false_eq_true, if_false] at hstep
      split at hstep
      case h_2 => cases hstep
      case h_1 =>
        cases hstep
        exact .exit

end Inversion

def service : Machines.Machine System Action Event := ⟨System.init, System.step⟩

def atSec (sec : Int) : ClockReading := ⟨⟨sec, 0⟩, by simp [Timespec.Normal, nsecPerSec]⟩

def addSteps (client : Nat) (flag : BitVec 32) (prio sec : Int) : List Action :=
  [.add (.client client) ⟨prio, 1000, flag, some 1, 0, true⟩ true, .addInit (.client client),
    .addArm (.client client) (atSec sec), .wakeup (.client client)]

/-- Handlers return normally: no service thread is terminated. -/
def Action.returns : Action → Bool
  | .exit .. => false
  | _ => true

end Pc02.Timer

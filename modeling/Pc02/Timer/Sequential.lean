import Pc02.Lib.Machine
import Pc02.Timer.Invariant

/-!
# The timer API called from one thread

Whole calls, made of their locked sections in order, and whole passes of `thread_func`: one reading
of the clock, then the inner loop until the head is not due. Handlers make no timer calls.
-/

namespace Pc02.Timer

open Machines

namespace State

def osTimerAdd (s : State) (args : AddArgs) (created : Bool) (now : Timespec) : State × Option TimerId :=
  if args.accepted then
    match s.osTimerAddCreate args created with
    | (s, none) => (s, none)
    | (s, some t) =>
        match s.osTimerAddInit args t with
        | (s, false) => (s, none)
        | (s, true) =>
            let r := s.osTimerAddArm args t now
            (r.1, if r.2.1 = 0 then some t else none)
  else (s, none)

def osTimerStart (s : State) (timerid : TimerT) (now : Timespec) : State × Int :=
  match s.osTimerStartRead timerid with
  | none => (s, -1)
  | some (t, its) =>
      let r := s.timerSettime (some t) false its now
      (r.1, r.2.1)

def osTimerReset (s : State) (timerid : TimerT) (now : Timespec) : State × Int :=
  s.osTimerStart timerid now

def osTimerStop (s : State) (timerid : TimerT) (now : Timespec) : State × Int :=
  let r := s.timerSettime timerid false zeroItimerspec now
  (r.1, r.2.1)

/-- `os_timer_del`, or `none` where it would wait for a handler. -/
def osTimerDel (s : State) (self : Pthread) (timerid : TimerT) : Option (State × Int) :=
  match timerid with
  | none => some (s, -1)
  | some t =>
      if s.timerValid t then
        match (if (s.timer t).armed then (s.timer t).thread else none) with
        | some th => if s.deleteMustWait t th self then none else some (s.timerDelete t, 0)
        | none => some (s.timerDelete t, 0)
      else some (s, -1)

/-- The inner loop of `thread_func` at clock reading `now`, with the events it passes to handlers.
The fuel only bounds the recursion: `none` says that it ran out. -/
def expireLoop (th : ThreadId) (now : Timespec) : Nat → State → Option (State × List (TimerId × Sigevent))
  | 0, _ => none
  | fuel + 1, s =>
      match (s.thread th).timerQueue with
      | [] => some (s, [])
      | t :: _ =>
          if timespecCompare now (s.timer t).expirytime < 0 then some (s, [])
          else
            let s := s.expireTimer th t now
            match expireLoop th now fuel (s.expireDone th) with
            | none => none
            | some (s', invoked) => some (s', (t, (s.timer t).event) :: invoked)

def pass (s : State) (th : ThreadId) (now : Timespec) : Option (State × List (TimerId × Sigevent)) :=
  s.expireLoop th now (2 * (s.thread th).timerQueue.length + 1)

end State

inductive Op
  | add (args : AddArgs) (created : Bool) (now : ClockReading)
  | start (timerid : TimerT) (now : ClockReading)
  | reset (timerid : TimerT) (now : ClockReading)
  | stop (timerid : TimerT) (now : ClockReading)
  | settime (timerid : TimerT) (millisec : Int)
  | del (timerid : TimerT)
  | pass (th : ThreadId) (now : ClockReading)

inductive Out
  | added (t : Option TimerId)
  | code (ret : Int)
  | invoked (events : List (TimerId × Sigevent))

def Op.now : Op → Option ClockReading
  | .add _ _ now => some now
  | .start _ now => some now
  | .reset _ now => some now
  | .stop _ now => some now
  | .settime .. => none
  | .del _ => none
  | .pass _ now => some now

structure Sequential where
  svc : State
  clock : Option ClockReading

/-- Readings of the clock do not decrease. -/
def Sequential.admits (Q : Sequential) (op : Op) : Prop :=
  ∀ last ∈ Q.clock, ∀ now ∈ op.now, ¬ timespecCompare now.1 last.1 < 0

instance (Q : Sequential) (op : Op) : Decidable (Q.admits op) :=
  inferInstanceAs (Decidable (∀ last ∈ Q.clock, ∀ now ∈ op.now, ¬ timespecCompare now.1 last.1 < 0))

def State.operate (s : State) : Op → Option (State × Out)
  | .add args created now =>
      let r := s.osTimerAdd args created now
      some (r.1, .added r.2)
  | .start timerid now =>
      let r := s.osTimerStart timerid now
      some (r.1, .code r.2)
  | .reset timerid now =>
      let r := s.osTimerReset timerid now
      some (r.1, .code r.2)
  | .stop timerid now =>
      let r := s.osTimerStop timerid now
      some (r.1, .code r.2)
  | .settime timerid millisec =>
      let r := s.osTimerSettime timerid millisec
      some (r.1, .code r.2)
  | .del timerid => (s.osTimerDel (.client 0) timerid).map fun r => (r.1, .code r.2)
  | .pass th now =>
      if (s.thread th).existsFlag then (s.pass th now).map fun r => (r.1, .invoked r.2) else none

def Sequential.step (Q : Sequential) (op : Op) : Option (Sequential × List (Op × Out)) :=
  if Q.admits op then
    (Q.svc.operate op).map fun r => (⟨r.1, op.now.or Q.clock⟩, [(op, r.2)])
  else none

def sequential : Machine Sequential Op (Op × Out) := ⟨⟨initModule, none⟩, Sequential.step⟩

end Pc02.Timer

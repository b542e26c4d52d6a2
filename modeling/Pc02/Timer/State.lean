import Mathlib.Logic.Function.Basic
import Mathlib.Data.List.FinRange
import Pc02.Timer.Timespec

/-!
# The timer module: data and locked sections

Every function below is the body of one function of the timer module, run with `__timer_mutex`
held. The intrusive lists are sequences of node numbers: unlinking a node takes it out of whatever
list holds it. A failed `assert` aborts the process.
-/

namespace Pc02.Timer

abbrev timerMax : Nat := 256

abbrev threadMaxnodes : Nat := 16

instance : NeZero timerMax := ⟨by decide⟩

instance : NeZero threadMaxnodes := ⟨by decide⟩

abbrev TimerId := Fin timerMax

abbrev ThreadId := Fin threadMaxnodes

/-- `timer_t`: `none` is the null id. -/
abbrev TimerT := Option TimerId

/-- The threads of the process: clients, and the thread that serves a thread node. -/
inductive Pthread
  | client (n : Nat)
  | service (th : ThreadId)
deriving DecidableEq, Repr

inductive ClockId
  | realtime
  | monotonic
deriving DecidableEq, Repr

inductive SchedPolicy
  | other
  | rr
deriving DecidableEq, Repr

/-- The scheduling part of `pthread_attr_t`, the only part the module compares. -/
structure Attr where
  policy : SchedPolicy
  priority : Int
deriving DecidableEq, Repr

def pthreadAttrInit : Attr := ⟨.other, 0⟩

/-- `pthread_attr_setschedparam` refuses a priority outside the range of the policy and then
leaves the attribute as it was. -/
def pthreadAttrSetschedparam (attr : Attr) (priority : Int) : Attr :=
  match attr.policy with
  | .other => if priority = 0 then { attr with priority := priority } else attr
  | .rr => if 1 ≤ priority ∧ priority ≤ 99 then { attr with priority := priority } else attr

/-- `struct sigevent` as `os_timer_add` fills it in. The field `reg` is no part of the source: it
numbers the call of `__timer_create` that stored the event. -/
structure Sigevent where
  function : Nat
  value : Nat
  reg : Nat
deriving DecidableEq, Repr

inductive Inuse
  | free
  | inuse
  | deleted
deriving DecidableEq, Repr

/-- `timer->type`: zero in static storage until `os_timer_add` sets it. -/
inductive TimerType
  | zero
  | oneshot
  | interval
deriving DecidableEq, Repr

structure TimerNode where
  event : Sigevent
  clock : ClockId
  type : TimerType
  millisec : Int
  value : Itimerspec
  expirytime : Timespec
  attr : Attr
  armed : Bool
  inuse : Inuse
  thread : Option ThreadId
  refcount : Int
  overrunCount : Nat
deriving DecidableEq, Repr

structure ThreadNode where
  attr : Attr
  id : Option Pthread
  existsFlag : Bool
  timerQueue : List TimerId
  currentTimer : Option TimerId
  clockId : ClockId
deriving DecidableEq, Repr

/-- The static data of the module. `nextReg` numbers the calls of `__timer_create`, `aborted`
records a failed assertion. -/
@[ext]
structure State where
  timer : TimerId → TimerNode
  thread : ThreadId → ThreadNode
  timerFreeList : List TimerId
  threadFreeList : List ThreadId
  threadActiveList : List ThreadId
  nextReg : Nat
  aborted : Bool

def zeroTimerNode : TimerNode :=
  ⟨⟨0, 0, 0⟩, .realtime, .zero, 0, zeroItimerspec, zeroTimespec, ⟨.other, 0⟩, false, .free, none, 0, 0⟩

def zeroThreadNode : ThreadNode := ⟨⟨.other, 0⟩, none, false, [], none, .realtime⟩

/-- `init_module`. Registrations are numbered from one, so that zero is nobody's number. -/
def initModule : State where
  timer := fun _ => zeroTimerNode
  thread := fun _ => zeroThreadNode
  timerFreeList := List.finRange timerMax
  threadFreeList := List.finRange threadMaxnodes
  threadActiveList := []
  nextReg := 1
  aborted := false

namespace State

def setTimer (s : State) (t : TimerId) (f : TimerNode → TimerNode) : State :=
  { s with timer := Function.update s.timer t (f (s.timer t)) }

def setThread (s : State) (th : ThreadId) (f : ThreadNode → ThreadNode) : State :=
  { s with thread := Function.update s.thread th (f (s.thread th)) }

def assert (s : State) (c : Bool) : State := { s with aborted := s.aborted || !c }

/-- `list_unlink_ip (&timer->links)`: a no-op on a node that is on no list. -/
def listUnlinkIp (s : State) (t : TimerId) : State :=
  { s with
    timerFreeList := s.timerFreeList.filter (· ≠ t)
    thread := fun th => { s.thread th with timerQueue := (s.thread th).timerQueue.filter (· ≠ t) } }

/-- The loop of `__timer_thread_queue_timer`: walk to the first timer that expires later, and
remember whether that was the first one. -/
def queueTimerLoop (expirytime : TimerId → Timespec) (insert : TimerId) :
    List TimerId → Bool → List TimerId × Bool
  | [], athead => ([insert], athead)
  | timer :: iter, athead =>
      if timespecCompare (expirytime insert) (expirytime timer) < 0 then
        (insert :: timer :: iter, athead)
      else
        let rest := queueTimerLoop expirytime insert iter false
        (timer :: rest.1, rest.2)

def timerThreadQueueTimer (s : State) (th : ThreadId) (t : TimerId) : State × Bool :=
  let r := queueTimerLoop (fun u => (s.timer u).expirytime) t (s.thread th).timerQueue true
  (s.setThread th fun n => { n with timerQueue := r.1 }, r.2)

def timerAlloc (s : State) : Option (State × TimerId) :=
  match s.timerFreeList with
  | [] => none
  | t :: _ => some ((s.listUnlinkIp t).setTimer t fun n => { n with inuse := .inuse, refcount := 1 }, t)

def timerDealloc (s : State) (t : TimerId) : State :=
  let s := s.assert ((s.timer t).refcount = 0)
  let s := s.listUnlinkIp t
  let s := s.setTimer t fun n => { n with thread := none, inuse := .free }
  { s with timerFreeList := s.timerFreeList ++ [t] }

def timerValid (s : State) (t : TimerId) : Bool := (s.timer t).inuse = .inuse

def timerAddref (s : State) (t : TimerId) : State :=
  s.setTimer t fun n => { n with refcount := n.refcount + 1 }

def timerDelref (s : State) (t : TimerId) : State :=
  let s := s.setTimer t fun n => { n with refcount := n.refcount - 1 }
  if (s.timer t).refcount = 0 then s.timerDealloc t else s

def threadInit (s : State) (th : ThreadId) (attr : Attr) (clock : ClockId) : State :=
  s.setThread th fun n =>
    { n with attr := attr, existsFlag := false, timerQueue := [], currentTimer := none, clockId := clock }

def timerThreadAlloc (s : State) (attr : Attr) (clock : ClockId) : Option (State × ThreadId) :=
  match s.threadFreeList with
  | [] => none
  | th :: rest =>
      let s := { s with threadFreeList := rest }
      let s := s.threadInit th attr clock
      some ({ s with threadActiveList := s.threadActiveList ++ [th] }, th)

/-- `__timer_thread_dealloc`, with the assertion of `thread_deinit`. -/
def timerThreadDealloc (s : State) (th : ThreadId) : State :=
  let s := s.assert (s.thread th).timerQueue.isEmpty
  { s with
    threadActiveList := s.threadActiveList.filter (· ≠ th)
    threadFreeList := s.threadFreeList.filter (· ≠ th) ++ [th] }

/-- `__timer_thread_start`: `created` is the outcome of `pthread_create`. -/
def timerThreadStart (s : State) (th : ThreadId) (created : Bool) : State × Bool :=
  let s := s.assert (!(s.thread th).existsFlag)
  if created then
    (s.setThread th fun n => { n with existsFlag := true, id := some (.service th) }, true)
  else
    (s.setThread th fun n => { n with existsFlag := false }, false)

def threadAttrCompare (left right : Attr) : Bool :=
  left.policy = right.policy ∧ left.priority = right.priority

def timerThreadFindMatching (s : State) (attr : Attr) (clock : ClockId) : Option ThreadId :=
  s.threadActiveList.find? fun th =>
    threadAttrCompare attr (s.thread th).attr && decide (clock = (s.thread th).clockId)

/-- The `unlock_bail` label of `__timer_create`: the timer is released twice in a row. -/
def createBail (s : State) (newtimer : TimerId) (thread : Option ThreadId) : State :=
  let s := match thread with
    | some th => s.timerThreadDealloc th
    | none => s
  (s.timerDelref newtimer).timerDealloc newtimer

def timerThreadGet (s : State) (attr : Attr) (clock : ClockId) : Option (State × ThreadId) :=
  match s.timerThreadFindMatching attr clock with
  | some th => some (s, th)
  | none => s.timerThreadAlloc attr clock

def timerThreadEnsure (s : State) (th : ThreadId) (created : Bool) : State × Bool :=
  if (s.thread th).existsFlag then (s, true) else s.timerThreadStart th created

/-- `__timer_create` stores the event; the call is given its number here. -/
def createEvent (s : State) (newtimer : TimerId) (function value : Nat) (attr : Attr) : State :=
  { s with nextReg := s.nextReg + 1 }.setTimer newtimer fun n =>
    { n with event := ⟨function, value, s.nextReg⟩, attr := attr }

/-- `__timer_create` from the search for a thread to its end. -/
def createThread (s : State) (newtimer : TimerId) (clock : ClockId) (attr : Attr) (created : Bool) :
    State × Option TimerId :=
  match s.timerThreadGet attr clock with
  | none => (s.createBail newtimer none, none)
  | some (s, thread) =>
      match s.timerThreadEnsure thread created with
      | (s, false) => (s.createBail newtimer (some thread), none)
      | (s, true) =>
          (s.setTimer newtimer fun n =>
            { n with clock := clock, armed := false, thread := some thread }, some newtimer)

/-- The locked section of `__timer_create` for `SIGEV_THREAD`, the only notification its one
caller asks for. -/
def timerCreate (s : State) (clock : ClockId) (function value : Nat) (attr : Attr)
    (created : Bool) : State × Option TimerId :=
  match s.timerAlloc with
  | none => (s, none)
  | some (s, newtimer) => (s.createEvent newtimer function value attr).createThread newtimer clock attr created

/-- What `__timer_delete` does once it has waited: mark, unlink and drop the reference. -/
def timerDelete (s : State) (t : TimerId) : State :=
  let s := s.setTimer t fun n => { n with inuse := .deleted }
  let s := s.listUnlinkIp t
  s.timerDelref t

def settimeRange (value : Itimerspec) : Bool :=
  ¬ (value.interval.nsec < 0 ∨ value.interval.nsec ≥ nsecPerSec ∨
    value.value.nsec < 0 ∨ value.value.nsec ≥ nsecPerSec)

/-- The rearming part of `__timer_settime` for a valid timer; the result names the thread to wake
up after the lock is released. -/
def settimeArm (s : State) (t : TimerId) (abstime : Bool) (value : Itimerspec) (now : Timespec) :
    State × Option ThreadId :=
  let s := s.setTimer t fun n => { n with value := value }
  let s := s.listUnlinkIp t
  let s := s.setTimer t fun n => { n with armed := false }
  if value.value.sec ≠ 0 ∨ value.value.nsec ≠ 0 then
    let s := s.setTimer t fun n =>
      { n with expirytime := if abstime then value.value else timespecAdd now value.value }
    match (s.timer t).thread with
    | none => (s.setTimer t fun n => { n with armed := true }, none)
    | some th =>
        let r := s.timerThreadQueueTimer th t
        (r.1.setTimer t fun n => { n with armed := true }, if r.2 then some th else none)
  else (s, none)

/-- `__timer_settime` with `ovalue == NULL`, as all its callers have it. The clock reading `now`
was taken before the lock. -/
def timerSettime (s : State) (timerid : TimerT) (abstime : Bool) (value : Itimerspec)
    (now : Timespec) : State × Int × Option ThreadId :=
  match timerid with
  | none => (s, -1, none)
  | some t =>
      if settimeRange value then
        let s := s.timerAddref t
        if s.timerValid t then
          let r := s.settimeArm t abstime value now
          (r.1.timerDelref t, 0, r.2)
        else (s.timerDelref t, -1, none)
      else (s, -1, none)

/-- The `while` condition of `__timer_delete`. -/
def deleteMustWait (s : State) (t : TimerId) (th : ThreadId) (self : Pthread) : Bool :=
  (s.thread th).currentTimer = some t ∧ (s.thread th).id ≠ some self

/-- Step (1) of an expiry in `thread_func`: unlink the due head, requeue it if it is periodic and
announce it as the current timer. -/
def expireTimer (s : State) (self : ThreadId) (t : TimerId) (now : Timespec) : State :=
  let s := s.listUnlinkIp t
  let interval := (s.timer t).value.interval
  let s :=
    if interval.sec ≠ 0 ∨ interval.nsec ≠ 0 then
      let next := catchUp now interval (s.timer t).expirytime
      let s := s.setTimer t fun n => { n with expirytime := next.1, overrunCount := next.2 }
      (s.timerThreadQueueTimer self t).1
    else s
  s.setThread self fun n => { n with currentTimer := some t }

/-- Step (3) of an expiry: the handler has returned. -/
def expireDone (s : State) (self : ThreadId) : State :=
  s.setThread self fun n => { n with currentTimer := none }

/-- `thread_cleanup`; the flag tells whether a replacement thread runs. -/
def threadCleanup (s : State) (th : ThreadId) (created : Bool) : State × Bool :=
  let s := s.setThread th fun n => { n with existsFlag := false, currentTimer := none }
  if (s.thread th).timerQueue.isEmpty then (s.timerThreadDealloc th, false)
  else s.timerThreadStart th created

end State

def timerAbstime : BitVec 32 := 1#32

def timerOneshot : BitVec 32 := timerAbstime <<< 1

def timerInterval : BitVec 32 := timerAbstime <<< 2

def timerStopped : BitVec 32 := timerAbstime <<< 3

def hasFlag (flag mask : BitVec 32) : Bool := flag &&& mask ≠ 0#32

/-- The arguments of `os_timer_add`; `handler` and `timerid` may be null pointers. -/
structure AddArgs where
  prio : Int
  millisec : Int
  flag : BitVec 32
  handler : Option Nat
  arg : Nat
  timerid : Bool
deriving DecidableEq, Repr

namespace AddArgs

def accepted (a : AddArgs) : Bool := ¬ (a.millisec ≤ 0 ∨ a.handler = none ∨ a.timerid = false)

def attr (a : AddArgs) : Attr :=
  pthreadAttrSetschedparam { pthreadAttrInit with policy := .rr } a.prio

def type (a : AddArgs) : TimerType := if hasFlag a.flag timerOneshot then .oneshot else .interval

def its (a : AddArgs) : Itimerspec :=
  let value := if hasFlag a.flag timerStopped then zeroTimespec else ms2ts a.millisec
  ⟨if hasFlag a.flag timerOneshot then zeroTimespec else value, value⟩

end AddArgs

namespace State

/-- First locked section of `os_timer_add`. -/
def osTimerAddCreate (s : State) (a : AddArgs) (created : Bool) : State × Option TimerId :=
  s.timerCreate .monotonic (a.handler.getD 0) a.arg a.attr created

/-- Second locked section of `os_timer_add`: `false` when the timer is no longer valid. -/
def osTimerAddInit (s : State) (a : AddArgs) (t : TimerId) : State × Bool :=
  if s.timerValid t then
    (s.setTimer t fun n => { n with type := a.type, millisec := a.millisec }, true)
  else (s, false)

/-- The `__timer_settime` call of `os_timer_add`. -/
def osTimerAddArm (s : State) (a : AddArgs) (t : TimerId) (now : Timespec) :
    State × Int × Option ThreadId :=
  s.timerSettime (some t) (hasFlag a.flag timerAbstime) a.its now

/-- First locked section of `os_timer_start`: the `itimerspec` to arm with. -/
def osTimerStartRead (s : State) (timerid : TimerT) : Option (TimerId × Itimerspec) :=
  match timerid with
  | none => none
  | some t =>
      if s.timerValid t then
        let value := ms2ts (s.timer t).millisec
        some (t, ⟨if (s.timer t).type = .oneshot then zeroTimespec else value, value⟩)
      else none

/-- The locked section of `os_timer_settime`. -/
def osTimerSettime (s : State) (timerid : TimerT) (millisec : Int) : State × Int :=
  if millisec ≤ 0 then (s, -1)
  else
    match timerid with
    | none => (s, -1)
    | some t =>
        if s.timerValid t then (s.setTimer t fun n => { n with millisec := millisec }, 0)
        else (s, -1)

end State

end Pc02.Timer

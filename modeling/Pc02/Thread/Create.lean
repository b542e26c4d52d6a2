import Mathlib.Logic.Function.Basic
import Pc02.Lib.Machine

/-!
# Threads of the program

`osal_task_create` allocates the block for the handle, and `pthread_create_internel` hands a second block
to the new thread, with the routine, its argument and a copy of the name. If the thread is started it frees
both before it runs the routine; if it is not, the thread that wanted to start it does. Here any number of
threads create tasks while the new ones begin, every call of the system may fail, and no block is freed
twice or used after it is freed. What is not freed are the attributes of a thread that was started, and
the handle of one that was not.
-/

namespace Pc02.Thread

open Function Machines

/-- What `osal_task_create` and `osal_task_create_joinable` are called with. -/
structure Args where
  name : Option (List UInt8)
  startRoutine : Nat
  arg : Nat
  stackSize : Int
  prio : Int
  joinable : Bool
deriving DecidableEq

/-- `pthread_attr_t`, with the policy `SCHED_RR` and `PTHREAD_EXPLICIT_SCHED`. -/
structure Attr where
  stacksize : Option Int
  detached : Bool
  schedPriority : Int
deriving DecidableEq

structure ThreadInfo where
  name : Option Nat
  prio : Int
  startRoutine : Nat
  arg : Nat
deriving DecidableEq

/-- What a block is for. The attributes count as a block that `pthread_attr_destroy` frees. The handle
is written when the thread is started. -/
inductive Cell
  | task (thread : Option Nat)
  | attr (attr : Attr)
  | info (info : ThreadInfo)
  | name (name : List UInt8)
deriving DecidableEq

inductive AttrCall
  | init
  | setstacksize
  | setdetachstate
  | setinheritsched
  | setschedpolicy
  | setschedparam
deriving DecidableEq

def pthreadStackMin : Int := 16384

namespace Args

def localStackSize (args : Args) : Int := if args.stackSize < pthreadStackMin then pthreadStackMin else args.stackSize

def attr (args : Args) : Attr where
  stacksize := if args.stackSize ≠ 0 then some args.localStackSize else none
  detached := !args.joinable
  schedPriority := args.prio

def info (args : Args) : ThreadInfo where
  name := none
  prio := args.prio
  startRoutine := args.startRoutine
  arg := args.arg

/-- The name for the new thread. The flag tells that `strdup` has failed. -/
def given (args : Args) (failed : Bool) : Option (List UInt8) := if failed then none else args.name

def calls (args : Args) : AttrCall → Bool
  | .setstacksize => args.stackSize ≠ 0
  | _ => true

end Args

def taskCommLen : Nat := 16

/-- "tk_". -/
def tkNamePrefix : List UInt8 := [0x74, 0x6B, 0x5F]

/-- The name that `os_setprocparam` gives the thread in a program `exe`. -/
def osSetprocparam (exe : List UInt8) : Option (List UInt8) → List UInt8
  | some (c :: cs) => (c :: cs).take (taskCommLen - 1)
  | _ => (tkNamePrefix ++ exe.take (taskCommLen - 1)).take (taskCommLen - 1)

/-- Where a thread is: elsewhere in the program, in `osal_task_create`, or in `start_routine_wrapper`. -/
inductive Pc
  | user
  | created (args : Args) (task : Nat)
  | attributed (args : Args) (task attr : Nat)
  | informed (args : Args) (task attr info : Nat)
  | named (args : Args) (task attr info : Nat) (failed : Bool)
  | refused (task info : Nat)
  | unnamed (task info : Nat)
  | started (arg : Nat)
  | copied (arg : Nat) (info : ThreadInfo)
  | titled (arg : Nat) (info : ThreadInfo)
  | freed (arg : Nat) (info : ThreadInfo)
deriving DecidableEq

inductive Event
  | failed (p : Nat) (task : Option Nat)
  | started (p task attr child : Nat) (a : Attr) (args : Args) (failed : Bool)
  | titled (child : Nat) (comm : List UInt8)
  | runs (child startRoutine arg : Nat)
  | deleted (p : Nat) (task : Option Nat)
  | fault (p : Nat)
deriving DecidableEq

inductive Action
  | create (p : Nat) (args : Args) (ok : Bool)
  | attr (p : Nat) (fails : Option AttrCall)
  | go (p : Nat) (ok : Bool)
  | del (p : Nat) (task : Option Nat)

abbrev Heap : Type := Nat → Option Cell

namespace Heap

def write (h : Heap) (b : Nat) (c : Cell) : Heap := update h b (some c)

def free (h : Heap) (b : Nat) : Option Heap := (h b).map fun _ => update h b none

def info (h : Heap) (b : Nat) : Option ThreadInfo :=
  match h b with
  | some (.info i) => some i
  | _ => none

def name (h : Heap) (b : Nat) : Option (List UInt8) :=
  match h b with
  | some (.name s) => some s
  | _ => none

def isHandle (h : Heap) (b : Nat) : Bool :=
  match h b with
  | some (.task (some _)) => true
  | _ => false

/-- The first half of `free_thread_info`. -/
def freeName (h : Heap) (b : Nat) : Option Heap :=
  (h.info b).bind fun i =>
    match i.name with
    | none => some h
    | some n => (h.free n).map fun h' => h'.write b (.info { i with name := none })

end Heap

structure Tasks where
  heap : Heap
  next : Nat
  pc : Nat → Pc
  threads : Nat

namespace Tasks

def jump (P : Tasks) (p : Nat) (pc : Pc) : Tasks := { P with pc := update P.pc p pc }

def malloc (P : Tasks) (c : Cell) : Tasks := { P with heap := P.heap.write P.next c, next := P.next + 1 }

def access (P : Tasks) (p : Nat) (h : Option Heap) (k : Tasks → Tasks × List Event) : Tasks × List Event :=
  match h with
  | none => (P.jump p .user, [.fault p])
  | some h => k { P with heap := h }

def fail (P : Tasks) (p task : Nat) : Tasks × List Event := (P.jump p .user, [.failed p (some task)])

/-- `pthread_create`. What the thread that called it does until it returns concerns no other thread. -/
def start (P : Tasks) (p : Nat) (args : Args) (task attr info : Nat) (failed : Bool) (a : Attr) : Tasks × List Event :=
  ({ heap := P.heap.write task (.task (some P.threads))
     next := P.next
     pc := update (update P.pc p .user) P.threads (.started info)
     threads := P.threads + 1 }, [.started p task attr P.threads a args failed])

def go (exe : List UInt8) (P : Tasks) (p : Nat) (ok : Bool) : Option (Tasks × List Event) :=
  match P.pc p with
  | .attributed args task attr =>
      if ok then some ((P.malloc (.info args.info)).jump p (.informed args task attr P.next), [])
      else some (P.access p (P.heap.free attr) fun P => P.fail p task)
  | .informed args task attr info =>
      match args.name with
      | some s =>
          if ok then
            some (P.access p ((P.heap.info info).map fun i => P.heap.write info (.info { i with name := some P.next }))
              fun P => ((P.malloc (.name s)).jump p (.named args task attr info false), []))
          else some (P.jump p (.named args task attr info true), [])
      | none => some (P.jump p (.named args task attr info false), [])
  | .named args task attr info failed =>
      match P.heap attr with
      | some (.attr a) =>
          if ok then some (P.start p args task attr info failed a)
          else some (P.access p (P.heap.free attr) fun P => (P.jump p (.refused task info), []))
      | _ => some (P.jump p .user, [.fault p])
  | .refused task info => some (P.access p (P.heap.freeName info) fun P => (P.jump p (.unnamed task info), []))
  | .unnamed task info => some (P.access p (P.heap.free info) fun P => P.fail p task)
  | .started arg =>
      match P.heap.info arg with
      | some info => some (P.jump p (.copied arg info), [])
      | none => some (P.jump p .user, [.fault p])
  | .copied arg info =>
      match info.name with
      | none => some (P.jump p (.titled arg info), [.titled p (osSetprocparam exe none)])
      | some n =>
          match P.heap.name n with
          | some s => some (P.jump p (.titled arg info), [.titled p (osSetprocparam exe (some s))])
          | none => some (P.jump p .user, [.fault p])
  | .titled arg info => some (P.access p (P.heap.freeName arg) fun P => (P.jump p (.freed arg info), []))
  | .freed arg info =>
      some (P.access p (P.heap.free arg) fun P => (P.jump p .user, [.runs p info.startRoutine info.arg]))
  | _ => none

def step (exe : List UInt8) (P : Tasks) : Action → Option (Tasks × List Event)
  | .create p args ok =>
      if p < P.threads ∧ P.pc p = .user then
        if ok then some ((P.malloc (.task none)).jump p (.created args P.next), [])
        else some (P, [.failed p none])
      else none
  | .attr p fails =>
      match P.pc p with
      | .created args task =>
          match fails with
          | none => some ((P.malloc (.attr args.attr)).jump p (.attributed args task P.next), [])
          | some c => if args.calls c then some (P.fail p task) else none
      | _ => none
  | .go p ok => P.go exe p ok
  | .del p task =>
      if p < P.threads ∧ P.pc p = .user then
        match task with
        | none => some (P, [.deleted p none])
        | some b => some (P.access p (P.heap.free b) fun P => (P, [.deleted p (some b)]))
      else none

def init (threads : Nat) : Tasks := ⟨fun _ => none, 0, fun _ => .user, threads⟩

/-- Only handles are deleted, and each of them once. -/
def Disciplined (P : Tasks) : Action → Prop
  | .del _ (some b) => P.heap.isHandle b
  | _ => True

instance (P : Tasks) (a : Action) : Decidable (P.Disciplined a) :=
  match a with
  | .create .. => .isTrue trivial
  | .attr .. => .isTrue trivial
  | .go .. => .isTrue trivial
  | .del _ none => .isTrue trivial
  | .del _ (some b) => inferInstanceAs (Decidable (P.heap.isHandle b = true))

def Quiet (P : Tasks) : Prop := ∀ p, P.pc p = .user

end Tasks

def tasks (exe : List UInt8) (threads : Nat) : Machine Tasks Action Event := ⟨.init threads, Tasks.step exe⟩

/-! ### What a run leaves behind -/

namespace Event

def handle : Event → Option Nat
  | .started _ task _ _ _ _ _ => some task
  | _ => none

def freed : Event → Option Nat
  | .deleted _ task => task
  | _ => none

def lost : Event → Option Nat
  | .failed _ task => task
  | .started _ _ attr _ _ _ _ => some attr
  | _ => none

def spawned : Event → Option (Nat × Nat × Nat)
  | .started _ _ _ child _ args _ => some (child, args.startRoutine, args.arg)
  | _ => none

def ran : Event → Option (Nat × Nat × Nat)
  | .runs child startRoutine arg => some (child, startRoutine, arg)
  | _ => none

end Event

/-- The blocks that nobody works on are the handles that were not deleted and those that were lost. -/
def Left (tr : List Event) (b : Nat) : Prop :=
  (b ∈ tr.filterMap Event.handle ∧ b ∉ tr.filterMap Event.freed) ∨ b ∈ tr.filterMap Event.lost

end Pc02.Thread

import Pc02.Timer.Links
import Pc02.Timer.Sections

/-!
# The timer module in memory

The locked sections once more, now on memory: the lists are links inside the nodes, a search walks from
node to node, and nothing knows which list a node is on. A function has no result when it follows a null
pointer, when it takes a list head for a timer or a thread, when a walk does not come to an end, and when
an assertion fails. `Stores` says which state of the module, with sequences for lists, the memory holds.
-/

namespace Pc02.Timer

open Pc02.Lib

/-- `struct thread_node` without its place in a list and its queue, which are links. -/
structure ThreadFields where
  attr : Attr
  id : Option Pthread
  existsFlag : Bool
  currentTimer : Option TimerId
  clockId : ClockId
deriving DecidableEq, Repr

def ThreadNode.fields (n : ThreadNode) : ThreadFields := ⟨n.attr, n.id, n.existsFlag, n.currentTimer, n.clockId⟩

/-- The static data of the module. `nextReg` numbers the calls of `__timer_create`. -/
structure Memory where
  links : TimerLinks
  timer : TimerId → TimerNode
  thread : ThreadId → ThreadFields
  nextReg : Nat

def zeroMemory : Memory where
  links := zeroLinks
  timer := fun _ => zeroTimerNode
  thread := fun _ => zeroThreadNode.fields
  nextReg := 1

namespace Memory

variable (m : Memory)

def setTimer (t : TimerId) (f : TimerNode → TimerNode) : Memory :=
  { m with timer := Function.update m.timer t (f (m.timer t)) }

def setThread (th : ThreadId) (f : ThreadFields → ThreadFields) : Memory :=
  { m with thread := Function.update m.thread th (f (m.thread th)) }

def initModule : Option Memory :=
  (Linked.initModule m.links).map fun links =>
    { m with links := links, timer := fun t => { m.timer t with inuse := .free } }

def listUnlinkIp (t : TimerId) : Option Memory :=
  (m.links.listUnlinkIp (.timer t)).map fun links => { m with links := links }

def timerThreadQueueTimer (th : ThreadId) (t : TimerId) : Option (Memory × Bool) :=
  (Linked.timerThreadQueueTimer m.links (fun u => (m.timer u).expirytime) th t).map fun r =>
    ({ m with links := r.1 }, r.2)

def timerAlloc : Option (Memory × TimerT) :=
  (Linked.timerAlloc m.links).map fun r =>
    match r.2 with
    | none => ({ m with links := r.1 }, none)
    | some t => ({ m with links := r.1 }.setTimer t fun n => { n with inuse := .inuse, refcount := 1 }, some t)

def timerDealloc (t : TimerId) : Option Memory :=
  if (m.timer t).refcount = 0 then
    (Linked.timerDealloc m.links t).map fun links =>
      { m with links := links }.setTimer t fun n => { n with thread := none, inuse := .free }
  else none

def timerValid (t : TimerId) : Bool := (m.timer t).inuse = .inuse

def timerAddref (t : TimerId) : Memory := m.setTimer t fun n => { n with refcount := n.refcount + 1 }

def timerDelref (t : TimerId) : Option Memory :=
  let m := m.setTimer t fun n => { n with refcount := n.refcount - 1 }
  if (m.timer t).refcount = 0 then m.timerDealloc t else some m

/-- `thread_init`, which leaves the id of the thread alone; its `list_init` is in `__timer_thread_alloc`. -/
def threadInit (th : ThreadId) (attr : Attr) (clock : ClockId) : Memory :=
  m.setThread th fun n => { n with attr := attr, existsFlag := false, currentTimer := none, clockId := clock }

def timerThreadAlloc (attr : Attr) (clock : ClockId) : Option (Memory × Option ThreadId) :=
  (Linked.timerThreadAlloc m.links).map fun r =>
    match r.2 with
    | none => ({ m with links := r.1 }, none)
    | some th => ({ m with links := r.1 }.threadInit th attr clock, some th)

/-- `__timer_thread_dealloc`, with the assertion of `thread_deinit`. -/
def timerThreadDealloc (th : ThreadId) : Option Memory :=
  if m.links.listIsempty (.queue th) then
    (Linked.timerThreadDealloc m.links th).map fun links => { m with links := links }
  else none

/-- `__timer_thread_start`: `created` is the outcome of `pthread_create`. -/
def timerThreadStart (th : ThreadId) (created : Bool) : Option (Memory × Bool) :=
  if (m.thread th).existsFlag then none
  else if created then
    some (m.setThread th fun n => { n with existsFlag := true, id := some (.service th) }, true)
  else some (m.setThread th fun n => { n with existsFlag := false }, false)

def findMatchingLoop (desired : ThreadId → Bool) : Nat → LinkNode → Option (Option ThreadId)
  | 0, _ => none
  | rounds + 1, iter =>
      if iter = .threadActiveList then some none
      else
        (threadLinks2ptr iter).bind fun candidate =>
          if desired candidate then some (some candidate)
          else (m.links.listNext iter).bind fun iter => findMatchingLoop desired rounds iter

/-- The list holds no node twice, so one round for each node and one for the sentinel are enough. -/
def timerThreadFindMatching (attr : Attr) (clock : ClockId) : Option (Option ThreadId) :=
  (m.links.listFirst .threadActiveList).bind fun iter =>
    m.findMatchingLoop (fun th => State.threadAttrCompare attr (m.thread th).attr && decide (clock = (m.thread th).clockId))
      (threadMaxnodes + 1) iter

/-- The `unlock_bail` label of `__timer_create`. -/
def createBail (newtimer : TimerId) (thread : Option ThreadId) : Option Memory := do
  let m ← match thread with
    | some th => m.timerThreadDealloc th
    | none => some m
  let m ← m.timerDelref newtimer
  m.timerDealloc newtimer

def timerThreadGet (attr : Attr) (clock : ClockId) : Option (Memory × Option ThreadId) := do
  match ← m.timerThreadFindMatching attr clock with
  | some th => some (m, some th)
  | none => m.timerThreadAlloc attr clock

def timerThreadEnsure (th : ThreadId) (created : Bool) : Option (Memory × Bool) :=
  if (m.thread th).existsFlag then some (m, true) else m.timerThreadStart th created

def createEvent (newtimer : TimerId) (function value : Nat) (attr : Attr) : Memory :=
  { m with nextReg := m.nextReg + 1 }.setTimer newtimer fun n =>
    { n with event := ⟨function, value, m.nextReg⟩, attr := attr }

abbrev CreateResult := Memory × TimerT × Option ThreadId

def createThread (newtimer : TimerId) (clock : ClockId) (attr : Attr) (created : Bool) : Option CreateResult := do
  match ← m.timerThreadGet attr clock with
  | (m, none) => (m.createBail newtimer none).map fun m => (m, none, none)
  | (m, some thread) =>
      let started := if (m.thread thread).existsFlag then none else some thread
      match ← m.timerThreadEnsure thread created with
      | (m, false) => (m.createBail newtimer (some thread)).map fun m => (m, none, none)
      | (m, true) =>
          some (m.setTimer newtimer fun n => { n with clock := clock, armed := false, thread := some thread },
            some newtimer, started)

def timerCreate (clock : ClockId) (function value : Nat) (attr : Attr) (created : Bool) : Option CreateResult := do
  match ← m.timerAlloc with
  | (m, none) => some (m, none, none)
  | (m, some newtimer) => (m.createEvent newtimer function value attr).createThread newtimer clock attr created

/-- What `__timer_delete` does once it has waited. -/
def timerDelete (t : TimerId) : Option Memory := do
  let m ← (m.setTimer t fun n => { n with inuse := .deleted }).listUnlinkIp t
  m.timerDelref t

def settimeArm (t : TimerId) (abstime : Bool) (value : Itimerspec) (now : Timespec) :
    Option (Memory × Option ThreadId) := do
  let m ← (m.setTimer t fun n => { n with value := value }).listUnlinkIp t
  let m := m.setTimer t fun n => { n with armed := false }
  if value.value.sec ≠ 0 ∨ value.value.nsec ≠ 0 then
    let m := m.setTimer t fun n =>
      { n with expirytime := if abstime then value.value else timespecAdd now value.value }
    match (m.timer t).thread with
    | none => some (m.setTimer t fun n => { n with armed := true }, none)
    | some th => do
        let r ← m.timerThreadQueueTimer th t
        some (r.1.setTimer t fun n => { n with armed := true }, if r.2 then some th else none)
  else some (m, none)

def timerSettime (timerid : TimerT) (abstime : Bool) (value : Itimerspec) (now : Timespec) :
    Option (Memory × Int × Option ThreadId) :=
  match timerid with
  | none => some (m, -1, none)
  | some t =>
      if State.settimeRange value then
        let m := m.timerAddref t
        if m.timerValid t then
          (m.settimeArm t abstime value now).bind fun r => (r.1.timerDelref t).map fun m => (m, 0, r.2)
        else (m.timerDelref t).map fun m => (m, -1, none)
      else some (m, -1, none)

def deleteMustWait (t : TimerId) (th : ThreadId) (self : Pthread) : Bool :=
  (m.thread th).currentTimer = some t ∧ (m.thread th).id ≠ some self

def expireTimer (self : ThreadId) (t : TimerId) (now : Timespec) : Option Memory := do
  let m ← m.listUnlinkIp t
  let interval := (m.timer t).value.interval
  let m ←
    if interval.sec ≠ 0 ∨ interval.nsec ≠ 0 then
      let next := catchUp now interval (m.timer t).expirytime
      let m := m.setTimer t fun n => { n with expirytime := next.1, overrunCount := next.2 }
      (m.timerThreadQueueTimer self t).map fun r => r.1
    else some m
  some (m.setThread self fun n => { n with currentTimer := some t })

def expireDone (self : ThreadId) : Memory := m.setThread self fun n => { n with currentTimer := none }

def threadCleanup (th : ThreadId) (created : Bool) : Option (Memory × Bool) :=
  let m := m.setThread th fun n => { n with existsFlag := false, currentTimer := none }
  if m.links.listIsempty (.queue th) then (m.timerThreadDealloc th).map fun m => (m, false)
  else m.timerThreadStart th created

def osTimerAddCreate (a : AddArgs) (created : Bool) : Option CreateResult :=
  m.timerCreate .monotonic (a.handler.getD 0) a.arg a.attr created

def osTimerAddInit (a : AddArgs) (t : TimerId) : Memory × Bool :=
  if m.timerValid t then (m.setTimer t fun n => { n with type := a.type, millisec := a.millisec }, true)
  else (m, false)

def osTimerAddArm (a : AddArgs) (t : TimerId) (now : Timespec) : Option (Memory × Int × Option ThreadId) :=
  m.timerSettime (some t) (hasFlag a.flag timerAbstime) a.its now

def osTimerStartRead (timerid : TimerT) : Option (TimerId × Itimerspec) :=
  match timerid with
  | none => none
  | some t =>
      if m.timerValid t then
        let value := ms2ts (m.timer t).millisec
        some (t, ⟨if (m.timer t).type = .oneshot then zeroTimespec else value, value⟩)
      else none

def osTimerSettime (timerid : TimerT) (millisec : Int) : Memory × Int :=
  if millisec ≤ 0 then (m, -1)
  else
    match timerid with
    | none => (m, -1)
    | some t =>
        if m.timerValid t then (m.setTimer t fun n => { n with millisec := millisec }, 0) else (m, -1)

end Memory

/-- The memory holds the state: the links are those of the sequences and the fields are the same. No thread
runs for a node that is on the free list. -/
structure Stores (m : Memory) (s : State) : Prop where
  lists : Represents m.links s
  timer : m.timer = s.timer
  thread : ∀ th, m.thread th = (s.thread th).fields
  nextReg : m.nextReg = s.nextReg
  stopped : ∀ th ∈ s.threadFreeList, (s.thread th).existsFlag = false

theorem Represents.listIsempty {h : TimerLinks} {s : State} {th : ThreadId} (hrep : Represents h s)
    (hth : th ∈ s.threadActiveList) : h.listIsempty (.queue th) = (s.thread th).timerQueue.isEmpty := by
  have hfirst := (hrep.rings.ring _ _ (.queue th hth)).first
  rw [Links.listIsempty, hfirst]
  cases (s.thread th).timerQueue with
  | nil => simp
  | cons t rest => simp

theorem Memory.findMatchingLoop_eq (m : Memory) (desired : ThreadId → Bool) {ths : List ThreadId} {rounds : Nat}
    (hpath : Path m.links.next (ths.map .thread ++ [.threadActiveList])) (hrounds : ths.length < rounds) :
    m.findMatchingLoop desired rounds ((ths.map .thread).headD .threadActiveList) = some (ths.find? desired) := by
  induction ths generalizing rounds with
  | nil =>
      obtain ⟨rounds, rfl⟩ := Nat.exists_eq_add_of_lt hrounds
      simp [Memory.findMatchingLoop]
  | cons th ths ih =>
      obtain ⟨rounds, rfl⟩ : ∃ n, rounds = n + 1 := ⟨rounds - 1, by omega⟩
      rw [List.map_cons, List.headD_cons, Memory.findMatchingLoop, if_neg (by simp), threadLinks2ptr, Option.bind_some]
      cases hdesired : desired th with
      | true => simp [hdesired]
      | false =>
          have hnext : m.links.next (.thread th) = some ((ths.map .thread).headD .threadActiveList) := by
            cases ths with
            | nil => exact (path_cons_cons.mp hpath).1
            | cons th' ths => exact (path_cons_cons.mp hpath).1
          rw [if_neg Bool.false_ne_true, Links.listNext, hnext, Option.bind_some,
            ih hpath.tail (Nat.lt_of_succ_lt_succ hrounds), List.find?_cons_of_neg (by simp [hdesired])]

/-- At most one thread has been created, and for a node that had none. -/
structure Started (s s' : State) (started : Option ThreadId) : Prop where
  runs : ∀ th, (s'.thread th).existsFlag = true ↔ (s.thread th).existsFlag = true ∨ started = some th
  fresh : ∀ th, started = some th → (s.thread th).existsFlag = false

theorem Started.same {s s' : State} (h : ∀ th, (s'.thread th).existsFlag = (s.thread th).existsFlag) :
    Started s s' none where
  runs := by simp [h]
  fresh := by simp

/-! ### Assertions that held -/

namespace State

variable {s : State} {t : TimerId} {th : ThreadId}

theorem running_of_timerDealloc (hrun : (s.timerDealloc t).aborted = false) : s.aborted = false := by
  have hboth : s.aborted = false ∧ (s.timer t).refcount = 0 := by
    simpa [timerDealloc, assert] using hrun
  exact hboth.1

theorem running_of_timerDelref (hrun : (s.timerDelref t).aborted = false) : s.aborted = false := by
  rw [timerDelref] at hrun
  split at hrun
  · have hset := running_of_timerDealloc hrun
    exact hset
  · exact hrun

theorem queue_of_createBail (hrun : (s.createBail t (some th)).aborted = false) : (s.thread th).timerQueue = [] := by
  have hdealloc := running_of_timerDelref (running_of_timerDealloc hrun)
  have hboth : s.aborted = false ∧ (s.thread th).timerQueue = [] := by
    simpa [timerThreadDealloc, assert] using hdealloc
  exact hboth.2

theorem timerDelref_refcount (href : (s.timer t).refcount = 1) : ((s.timerDelref t).timer t).refcount = 0 := by
  simp [timerDelref, timerDealloc, assert, href]

theorem timerDelref_existsFlag (s : State) (t : TimerId) (x : ThreadId) :
    ((s.timerDelref t).thread x).existsFlag = (s.thread x).existsFlag := by
  rw [timerDelref]
  split <;> rfl

theorem createBail_existsFlag (s : State) (t : TimerId) (thread : Option ThreadId) (x : ThreadId) :
    ((s.createBail t thread).thread x).existsFlag = (s.thread x).existsFlag := by
  cases thread with
  | none => exact s.timerDelref_existsFlag t x
  | some th => exact (s.timerThreadDealloc th).timerDelref_existsFlag t x

end State

/-! ### The sections keep it -/

namespace Stores

variable {m m' : Memory} {s : State} {t : TimerId} {th : ThreadId}

theorem setTimer (h : Stores m s) (t : TimerId) (f : TimerNode → TimerNode) :
    Stores (m.setTimer t f) (s.setTimer t f) where
  lists := h.lists.setTimer t f
  timer := by
    rw [Memory.setTimer, State.setTimer, h.timer]
  thread := h.thread
  nextReg := h.nextReg
  stopped := h.stopped

theorem setThread (h : Stores m s) {f : ThreadNode → ThreadNode} {g : ThreadFields → ThreadFields}
    (hqueue : ∀ n, (f n).timerQueue = n.timerQueue) (hfields : ∀ n, (f n).fields = g n.fields)
    (hstopped : th ∈ s.threadFreeList → (f (s.thread th)).existsFlag = false) :
    Stores (m.setThread th g) (s.setThread th f) where
  lists := by
    have hqueues : ∀ x, ((s.setThread th f).thread x).timerQueue = (s.thread x).timerQueue := by
      intro x
      by_cases hx : x = th
      · subst hx
        simp [State.setThread, hqueue]
      · simp [State.setThread, hx]
    exact h.lists.congr rfl rfl rfl hqueues
  timer := h.timer
  thread := by
    intro x
    by_cases hx : x = th
    · subst hx
      simp [Memory.setThread, State.setThread, h.thread, hfields]
    · simp [Memory.setThread, State.setThread, hx, h.thread]
  nextReg := h.nextReg
  stopped := by
    intro x hfree
    by_cases hx : x = th
    · subst hx
      simpa [State.setThread] using hstopped hfree
    · simpa [State.setThread, hx] using h.stopped x hfree

theorem assert (h : Stores m s) (c : Bool) : Stores m (s.assert c) :=
  ⟨h.lists.assert c, h.timer, h.thread, h.nextReg, h.stopped⟩

theorem relink {s' : State} {links : TimerLinks} (h : Stores m s) (hlists : Represents links s')
    (htimer : s'.timer = s.timer) (hthread : ∀ th, (s'.thread th).fields = (s.thread th).fields)
    (hreg : s'.nextReg = s.nextReg) (hfree : s'.threadFreeList = s.threadFreeList) :
    Stores { m with links := links } s' where
  lists := hlists
  timer := h.timer.trans htimer.symm
  thread := fun th => (h.thread th).trans (hthread th).symm
  nextReg := h.nextReg.trans hreg.symm
  stopped := by
    intro th hth
    have hflag : (s'.thread th).existsFlag = (s.thread th).existsFlag :=
      congrArg ThreadFields.existsFlag (hthread th)
    rw [hflag]
    exact h.stopped th (hfree ▸ hth)

theorem listUnlinkIp (h : Stores m s) (t : TimerId) :
    ∃ m', m.listUnlinkIp t = some m' ∧ Stores m' (s.listUnlinkIp t) := by
  obtain ⟨links, hrun, hrep⟩ := h.lists.listUnlinkIp t
  refine ⟨{ m with links := links }, ?_, h.relink hrep rfl (fun _ => rfl) rfl rfl⟩
  rw [Memory.listUnlinkIp, hrun, Option.map_some]

theorem timerAlloc (h : Stores m s) :
    (s.timerAlloc = none ∧ m.timerAlloc = some (m, none)) ∨
    ∃ s' t m', s.timerAlloc = some (s', t) ∧ m.timerAlloc = some (m', some t) ∧ Stores m' s' := by
  rcases h.lists.timerAlloc with ⟨hnone, hlinks⟩ | ⟨s', t, links, hsome, hlinks, hrep⟩
  · exact .inl ⟨hnone, by rw [Memory.timerAlloc, hlinks, Option.map_some]⟩
  · refine .inr ⟨s', t, _, hsome, by rw [Memory.timerAlloc, hlinks, Option.map_some], ?_⟩
    obtain ⟨rest, hfree, hs'⟩ : ∃ rest, s.timerFreeList = t :: rest ∧
        s' = (s.listUnlinkIp t).setTimer t fun n => { n with inuse := .inuse, refcount := 1 } := by
      rw [State.timerAlloc] at hsome
      split at hsome
      · cases hsome
      · rename_i u rest hfree
        obtain ⟨rfl, rfl⟩ : _ = s' ∧ u = t := by simpa using hsome
        exact ⟨rest, hfree, rfl⟩
    subst hs'
    have hunlinked : Represents links (s.listUnlinkIp t) := hrep.congr rfl rfl rfl fun _ => rfl
    exact (h.relink hunlinked rfl (fun _ => rfl) rfl rfl).setTimer t _

theorem timerDealloc (h : Stores m s) (href : (s.timer t).refcount = 0) :
    ∃ m', m.timerDealloc t = some m' ∧ Stores m' (s.timerDealloc t) := by
  obtain ⟨links, hlinks, hrep⟩ := h.lists.timerDealloc t
  have hzero : (m.timer t).refcount = 0 := by rw [h.timer, href]
  rw [Memory.timerDealloc, if_pos hzero, hlinks, Option.map_some]
  refine ⟨_, rfl, hrep, ?_, h.thread, h.nextReg, h.stopped⟩
  rw [Memory.setTimer, h.timer]
  rfl

theorem timerDelref (h : Stores m s) (t : TimerId) :
    ∃ m', m.timerDelref t = some m' ∧ Stores m' (s.timerDelref t) := by
  have hset := h.setTimer t fun n => { n with refcount := n.refcount - 1 }
  rw [Memory.timerDelref, State.timerDelref]
  simp only [hset.timer]
  split
  · rename_i hzero
    exact hset.timerDealloc hzero
  · exact ⟨_, rfl, hset⟩

theorem timerThreadAlloc (h : Stores m s) (attr : Attr) (clock : ClockId) :
    (s.timerThreadAlloc attr clock = none ∧ m.timerThreadAlloc attr clock = some (m, none)) ∨
    ∃ s' th m', s.timerThreadAlloc attr clock = some (s', th) ∧
      m.timerThreadAlloc attr clock = some (m', some th) ∧ Stores m' s' := by
  rcases h.lists.timerThreadAlloc attr clock with ⟨hnone, hlinks⟩ | ⟨s', th, links, hsome, hlinks, hrep⟩
  · exact .inl ⟨hnone, by rw [Memory.timerThreadAlloc, hlinks, Option.map_some]⟩
  · refine .inr ⟨s', th, _, hsome, by rw [Memory.timerThreadAlloc, hlinks, Option.map_some], ?_⟩
    obtain ⟨rest, hfree, rfl⟩ := State.timerThreadAlloc_eq_some hsome
    refine ⟨hrep, h.timer, ?_, h.nextReg, ?_⟩
    · intro x
      by_cases hx : x = th
      · subst hx
        simp [Memory.threadInit, Memory.setThread, State.threadInit, State.setThread, h.thread, ThreadNode.fields]
      · simp [Memory.threadInit, Memory.setThread, State.threadInit, State.setThread, h.thread, hx]
    · intro x hx
      have hold := h.stopped x (hfree ▸ List.mem_cons_of_mem _ hx)
      by_cases hxth : x = th
      · subst hxth
        simp [State.threadInit, State.setThread]
      · simpa [State.threadInit, State.setThread, hxth] using hold

theorem timerThreadDealloc (h : Stores m s) (hth : th ∈ s.threadActiveList) (hempty : (s.thread th).timerQueue = [])
    (hflag : (s.thread th).existsFlag = false) :
    ∃ m', m.timerThreadDealloc th = some m' ∧ Stores m' (s.timerThreadDealloc th) := by
  have hisempty : m.links.listIsempty (.queue th) = true := by
    rw [h.lists.listIsempty hth, hempty, List.isEmpty_nil]
  obtain ⟨links, hlinks, hrep⟩ := h.lists.timerThreadDealloc hisempty
  rw [Memory.timerThreadDealloc, if_pos hisempty, hlinks, Option.map_some]
  refine ⟨_, rfl, hrep, h.timer, h.thread, h.nextReg, ?_⟩
  intro x hx
  rcases List.mem_append.mp hx with hold | hnew
  · exact h.stopped x (List.mem_of_mem_filter hold)
  · rw [List.mem_singleton.mp hnew]
    exact hflag

theorem timerThreadStart (h : Stores m s) (hth : th ∈ s.threadActiveList) (hflag : (s.thread th).existsFlag = false)
    (created : Bool) :
    ∃ m', m.timerThreadStart th created = some (m', (s.timerThreadStart th created).2) ∧
      Stores m' (s.timerThreadStart th created).1 := by
  have hnotFree : th ∉ s.threadFreeList := fun hfree => h.lists.thread_notMem hfree hth
  have hmflag : ¬ (m.thread th).existsFlag = true := by
    rw [h.thread, ThreadNode.fields, hflag]
    exact Bool.false_ne_true
  have hassert := h.assert (!(s.thread th).existsFlag)
  rw [Memory.timerThreadStart, if_neg hmflag, State.timerThreadStart]
  cases created with
  | true =>
      rw [if_pos rfl, if_pos rfl]
      refine ⟨_, rfl, ?_⟩
      dsimp only
      apply hassert.setThread
      · exact fun _ => rfl
      · exact fun _ => rfl
      · exact fun hfree => absurd hfree hnotFree
  | false =>
      rw [if_neg Bool.false_ne_true, if_neg Bool.false_ne_true]
      refine ⟨_, rfl, ?_⟩
      dsimp only
      apply hassert.setThread
      · exact fun _ => rfl
      · exact fun _ => rfl
      · exact fun _ => rfl

theorem timerThreadFindMatching (h : Stores m s) (attr : Attr) (clock : ClockId) :
    m.timerThreadFindMatching attr clock = some (s.timerThreadFindMatching attr clock) := by
  have hring := h.lists.rings.ring _ _ .threadActive
  have hrounds : s.threadActiveList.length < threadMaxnodes + 1 := by
    have hnodup := List.Nodup.of_map _ (List.nodup_cons.mp hring.distinct).2
    have hlength := hnodup.length_le_card
    rw [Fintype.card_fin] at hlength
    exact Nat.lt_succ_of_le hlength
  have hsame : (fun th => State.threadAttrCompare attr (m.thread th).attr && decide (clock = (m.thread th).clockId)) =
      fun th => State.threadAttrCompare attr (s.thread th).attr && decide (clock = (s.thread th).clockId) := by
    funext th
    rw [h.thread]
    rfl
  rw [Memory.timerThreadFindMatching, Links.listFirst, hring.first, Option.bind_some, hsame,
    m.findMatchingLoop_eq _ hring.forward.tail hrounds, State.timerThreadFindMatching]

theorem timerThreadQueueTimer (h : Stores m s) (hth : th ∈ s.threadActiveList) (hself : m.links.SelfLinked (.timer t)) :
    ∃ m', m.timerThreadQueueTimer th t = some (m', (s.timerThreadQueueTimer th t).2) ∧
      Stores m' (s.timerThreadQueueTimer th t).1 := by
  obtain ⟨links, hlinks, hrep⟩ := h.lists.timerThreadQueueTimer hth hself
  rw [← h.timer] at hlinks
  rw [Memory.timerThreadQueueTimer, hlinks, Option.map_some]
  refine ⟨_, rfl, h.relink hrep rfl (fun x => ?_) rfl rfl⟩
  by_cases hx : x = th
  · subst hx
    simp [State.timerThreadQueueTimer, State.setThread, ThreadNode.fields]
  · simp [State.timerThreadQueueTimer, State.setThread, hx]

theorem createBail_none (h : Stores m s) (href : (s.timer t).refcount = 1) :
    ∃ m', m.createBail t none = some m' ∧ Stores m' (s.createBail t none) := by
  obtain ⟨m₁, hdelref, h₁⟩ := h.timerDelref t
  obtain ⟨m₂, hdealloc, h₂⟩ := h₁.timerDealloc (State.timerDelref_refcount href)
  refine ⟨m₂, ?_, h₂⟩
  simp only [Memory.createBail, Option.bind_eq_bind, Option.bind_some, hdelref, hdealloc]

theorem createBail_some (h : Stores m s) (href : (s.timer t).refcount = 1) (hth : th ∈ s.threadActiveList)
    (hempty : (s.thread th).timerQueue = []) (hflag : (s.thread th).existsFlag = false) :
    ∃ m', m.createBail t (some th) = some m' ∧ Stores m' (s.createBail t (some th)) := by
  obtain ⟨m₁, hthread, h₁⟩ := h.timerThreadDealloc hth hempty hflag
  obtain ⟨m₂, hdelref, h₂⟩ := h₁.timerDelref t
  obtain ⟨m₃, hdealloc, h₃⟩ := h₂.timerDealloc (State.timerDelref_refcount (s := s.timerThreadDealloc th) href)
  refine ⟨m₃, ?_, h₃⟩
  simp only [Memory.createBail, Option.bind_eq_bind, Option.bind_some, hthread, hdelref, hdealloc]

theorem timerThreadGet (h : Stores m s) (attr : Attr) (clock : ClockId) :
    (s.timerThreadGet attr clock = none ∧ m.timerThreadGet attr clock = some (m, none)) ∨
    ∃ s' th m', s.timerThreadGet attr clock = some (s', th) ∧ m.timerThreadGet attr clock = some (m', some th) ∧
      Stores m' s' ∧ th ∈ s'.threadActiveList ∧ s'.timer = s.timer ∧
      ∀ x, (s'.thread x).existsFlag = (s.thread x).existsFlag := by
  have hfind := h.timerThreadFindMatching attr clock
  rw [Memory.timerThreadGet, hfind, State.timerThreadGet]
  cases hmatch : s.timerThreadFindMatching attr clock with
  | some th => exact .inr ⟨s, th, m, rfl, rfl, h, List.mem_of_find?_eq_some hmatch, rfl, fun _ => rfl⟩
  | none =>
      rcases h.timerThreadAlloc attr clock with hnone | ⟨s', th, m', hsome, hmem, h'⟩
      · exact .inl hnone
      · refine .inr ⟨s', th, m', hsome, hmem, h', ?_⟩
        obtain ⟨rest, hfree, rfl⟩ := State.timerThreadAlloc_eq_some hsome
        refine ⟨by simp, rfl, fun x => ?_⟩
        by_cases hx : x = th
        · subst hx
          simp [State.threadInit, h.stopped x (hfree ▸ List.mem_cons_self)]
        · simp [State.threadInit, hx]

theorem createThread (h : Stores m s) (href : (s.timer t).refcount = 1) {clock : ClockId} {attr : Attr} {created : Bool}
    (hrun : (s.createThread t clock attr created).1.aborted = false) :
    ∃ m' started, m.createThread t clock attr created = some (m', (s.createThread t clock attr created).2, started) ∧
      Stores m' (s.createThread t clock attr created).1 ∧ Started s (s.createThread t clock attr created).1 started := by
  rcases h.timerThreadGet attr clock with ⟨hnone, hmem⟩ | ⟨u, th, m₁, hsome, hmem, h₁, hth, htimer, hflags⟩
  · -- No thread is available.
    obtain ⟨m', hbail, h'⟩ := h.createBail_none href
    simp only [Memory.createThread, State.createThread, hnone, hmem, Option.bind_eq_bind, Option.bind_some, hbail,
      Option.map_some]
    exact ⟨m', none, rfl, h', .same (s.createBail_existsFlag t none)⟩
  · rw [← htimer] at href
    have hflag : (m₁.thread th).existsFlag = (u.thread th).existsFlag := by rw [h₁.thread, ThreadNode.fields]
    simp only [State.createThread, hsome] at hrun
    simp only [Memory.createThread, State.createThread, hsome, hmem, Option.bind_eq_bind, Option.bind_some, hflag]
    cases hexists : (u.thread th).existsFlag with
    | true =>
        have hensure : u.timerThreadEnsure th created = (u, true) := by rw [State.timerThreadEnsure, if_pos hexists]
        have hmensure : m₁.timerThreadEnsure th created = some (m₁, true) := by
          rw [Memory.timerThreadEnsure, if_pos (hflag.trans hexists)]
        simp only [hensure, hmensure, Option.bind_some, if_true]
        exact ⟨_, none, rfl, h₁.setTimer t _, .same hflags⟩
    | false =>
        have hmexists : ¬ (m₁.thread th).existsFlag = true := by simp [hflag, hexists]
        have hensure : u.timerThreadEnsure th created = u.timerThreadStart th created := by
          rw [State.timerThreadEnsure, if_neg (by simp [hexists])]
        have hmensure : m₁.timerThreadEnsure th created = m₁.timerThreadStart th created := by
          rw [Memory.timerThreadEnsure, if_neg hmexists]
        obtain ⟨m₂, hstart, h₂⟩ := h₁.timerThreadStart hth hexists created
        simp only [hensure] at hrun
        simp only [hensure, hmensure, hstart, Option.bind_some]
        cases created with
        | true =>
            refine ⟨_, some th, rfl, h₂.setTimer t _, fun x => ?_, fun x hx => ?_⟩
            · by_cases hx : x = th
              · subst hx
                simp [State.timerThreadStart, State.assert]
              · simp [State.timerThreadStart, State.assert, hx, Ne.symm hx, hflags]
            · rw [← Option.some.inj hx, ← hflags, hexists]
        | false =>
            have hempty := State.queue_of_createBail hrun
            obtain ⟨m', hbail, h'⟩ := h₂.createBail_some href hth hempty (by simp [State.timerThreadStart])
            refine ⟨m', none, ?_, h', .same fun x => ?_⟩
            · simp only [State.timerThreadStart, Bool.false_eq_true, if_false] at hbail ⊢
              rw [hbail, Option.map_some]
            · simp only [State.timerThreadStart, Bool.false_eq_true, if_false]
              rw [State.createBail_existsFlag, ← hflags]
              by_cases hx : x = th
              · subst hx
                simp [hexists]
              · simp [State.assert, hx]

theorem createEvent (h : Stores m s) (t : TimerId) (function value : Nat) (attr : Attr) :
    Stores (m.createEvent t function value attr) (s.createEvent t function value attr) := by
  have hbump : Stores { m with nextReg := m.nextReg + 1 } { s with nextReg := s.nextReg + 1 } :=
    ⟨h.lists.congr rfl rfl rfl fun _ => rfl, h.timer, h.thread, congrArg (· + 1) h.nextReg, h.stopped⟩
  have hset := hbump.setTimer t fun n => { n with event := ⟨function, value, s.nextReg⟩, attr := attr }
  rw [Memory.createEvent, h.nextReg]
  rw [h.nextReg] at hset
  exact hset

theorem timerCreate (h : Stores m s) {clock : ClockId} {function value : Nat} {attr : Attr} {created : Bool}
    (hrun : (s.timerCreate clock function value attr created).1.aborted = false) :
    ∃ m' started, m.timerCreate clock function value attr created =
        some (m', (s.timerCreate clock function value attr created).2, started) ∧
      Stores m' (s.timerCreate clock function value attr created).1 ∧
      Started s (s.timerCreate clock function value attr created).1 started := by
  rcases h.timerAlloc with ⟨hnone, hmem⟩ | ⟨u, t, m₁, hsome, hmem, h₁⟩
  · simp only [Memory.timerCreate, State.timerCreate, hnone, hmem, Option.bind_eq_bind, Option.bind_some]
    exact ⟨m, none, rfl, h, .same fun _ => rfl⟩
  · simp only [State.timerCreate, hsome] at hrun
    simp only [Memory.timerCreate, State.timerCreate, hsome, hmem, Option.bind_eq_bind, Option.bind_some]
    obtain ⟨href, hthread⟩ : (u.timer t).refcount = 1 ∧ ∀ x, (u.thread x).existsFlag = (s.thread x).existsFlag := by
      rw [State.timerAlloc] at hsome
      split at hsome
      · cases hsome
      · obtain ⟨rfl, rfl⟩ := Prod.mk.inj (Option.some.inj hsome)
        exact ⟨by simp, fun _ => rfl⟩
    have hevent := h₁.createEvent t function value attr
    obtain ⟨m', started, hcreate, h', hstarted⟩ := hevent.createThread (by simpa [State.createEvent] using href) hrun
    refine ⟨m', started, hcreate, h', fun x => ?_, fun x hx => ?_⟩
    · rw [hstarted.runs, ← hthread]
      rfl
    · rw [← hthread]
      exact hstarted.fresh x hx

theorem selfLinked (h : Stores m s) (hfree : t ∉ s.timerFreeList) (hqueue : ∀ th, t ∉ (s.thread th).timerQueue) :
    m.links.SelfLinked (.timer t) :=
  ring_nil_iff.mp (h.lists.rings.ring _ _ (.unlinked t hfree fun th _ => hqueue th))

theorem timerDelete (h : Stores m s) (t : TimerId) :
    ∃ m', m.timerDelete t = some m' ∧ Stores m' (s.timerDelete t) := by
  obtain ⟨m₁, hunlink, h₁⟩ := (h.setTimer t fun n => { n with inuse := .deleted }).listUnlinkIp t
  obtain ⟨m₂, hdelref, h₂⟩ := h₁.timerDelref t
  refine ⟨m₂, ?_, h₂⟩
  simp only [Memory.timerDelete, Option.bind_eq_bind, hunlink, Option.bind_some, hdelref]

theorem settimeArm (h : Stores m s) (hactive : ∀ th, (s.timer t).thread = some th → th ∈ s.threadActiveList)
    (abstime : Bool) (value : Itimerspec) (now : Timespec) :
    ∃ m', m.settimeArm t abstime value now = some (m', (s.settimeArm t abstime value now).2) ∧
      Stores m' (s.settimeArm t abstime value now).1 := by
  obtain ⟨m₁, hunlink, h₁⟩ := (h.setTimer t fun n => { n with value := value }).listUnlinkIp t
  have h₂ := h₁.setTimer t fun n => { n with armed := false }
  simp only [Memory.settimeArm, State.settimeArm, Option.bind_eq_bind, hunlink, Option.bind_some]
  split
  · have h₃ := h₂.setTimer t fun n =>
      { n with expirytime := if abstime then value.value else timespecAdd now value.value }
    simp only [h₃.timer]
    cases hthread : (s.timer t).thread with
    | none =>
        simp only [State.setTimer_timer, State.listUnlinkIp_timer, Function.update_self, hthread]
        exact ⟨_, rfl, h₃.setTimer t _⟩
    | some th =>
        have hself := h₃.selfLinked (t := t) (by simp [State.listUnlinkIp]) (by simp [State.listUnlinkIp])
        obtain ⟨m₄, hqueue, h₄⟩ := h₃.timerThreadQueueTimer (hactive th hthread) hself
        simp only [State.setTimer_timer, State.listUnlinkIp_timer, Function.update_self, hthread]
        simp only [hqueue, Option.bind_some]
        exact ⟨_, rfl, h₄.setTimer t _⟩
  · exact ⟨_, rfl, h₂⟩

theorem timerValid (h : Stores m s) (t : TimerId) : m.timerValid t = s.timerValid t := by
  rw [Memory.timerValid, h.timer, State.timerValid]

theorem timerSettime (h : Stores m s)
    (hactive : ∀ th, (s.timer t).inuse = .inuse → (s.timer t).thread = some th → th ∈ s.threadActiveList)
    (abstime : Bool) (value : Itimerspec) (now : Timespec) :
    ∃ m', m.timerSettime (some t) abstime value now = some (m', (s.timerSettime (some t) abstime value now).2) ∧
      Stores m' (s.timerSettime (some t) abstime value now).1 := by
  have haddref : Stores (m.timerAddref t) (s.timerAddref t) := h.setTimer t _
  simp only [Memory.timerSettime, State.timerSettime, haddref.timerValid]
  split
  · split
    · rename_i hvalid
      have hin : (s.timer t).inuse = .inuse := by simpa [State.timerValid, State.timerAddref] using hvalid
      have hth : ∀ th, ((s.timerAddref t).timer t).thread = some th → th ∈ (s.timerAddref t).threadActiveList := by
        intro th hth
        exact hactive th hin (by simpa [State.timerAddref] using hth)
      obtain ⟨m₁, harm, h₁⟩ := haddref.settimeArm hth abstime value now
      obtain ⟨m₂, hdelref, h₂⟩ := h₁.timerDelref t
      refine ⟨m₂, ?_, h₂⟩
      rw [harm, Option.bind_some, hdelref, Option.map_some]
    · obtain ⟨m₁, hdelref, h₁⟩ := haddref.timerDelref t
      refine ⟨m₁, ?_, h₁⟩
      rw [hdelref, Option.map_some]
  · exact ⟨m, rfl, h⟩

theorem deleteMustWait (h : Stores m s) (t : TimerId) (th : ThreadId) (self : Pthread) :
    m.deleteMustWait t th self = s.deleteMustWait t th self := by
  rw [Memory.deleteMustWait, State.deleteMustWait, h.thread]
  rfl

theorem setCurrent (h : Stores m s) (hth : th ∈ s.threadActiveList) (current : Option TimerId) :
    Stores (m.setThread th fun n => { n with currentTimer := current })
      (s.setThread th fun n => { n with currentTimer := current }) := by
  apply h.setThread
  · exact fun _ => rfl
  · exact fun _ => rfl
  · exact fun hfree => absurd hth (h.lists.thread_notMem hfree)

theorem expireTimer (h : Stores m s) (hth : th ∈ s.threadActiveList) (t : TimerId) (now : Timespec) :
    ∃ m', m.expireTimer th t now = some m' ∧ Stores m' (s.expireTimer th t now) := by
  obtain ⟨m₁, hunlink, h₁⟩ := h.listUnlinkIp t
  simp only [Memory.expireTimer, State.expireTimer, Option.bind_eq_bind, hunlink, Option.bind_some, h₁.timer]
  split
  · -- A periodic timer is queued again.
    have h₂ := h₁.setTimer t fun n =>
      { n with
        expirytime := (catchUp now ((s.listUnlinkIp t).timer t).value.interval ((s.listUnlinkIp t).timer t).expirytime).1
        overrunCount :=
          (catchUp now ((s.listUnlinkIp t).timer t).value.interval ((s.listUnlinkIp t).timer t).expirytime).2 }
    have hself := h₂.selfLinked (t := t) (by simp [State.listUnlinkIp]) (by simp [State.listUnlinkIp])
    obtain ⟨m₃, hqueue, h₃⟩ := h₂.timerThreadQueueTimer hth hself
    rw [hqueue, Option.map_some, Option.bind_some]
    exact ⟨_, rfl, h₃.setCurrent hth _⟩
  · exact ⟨_, rfl, h₁.setCurrent hth _⟩

theorem threadCleanup (h : Stores m s) (hth : th ∈ s.threadActiveList) (created : Bool) :
    ∃ m', m.threadCleanup th created = some (m', (s.threadCleanup th created).2) ∧
      Stores m' (s.threadCleanup th created).1 := by
  have h₁ : Stores (m.setThread th fun n => { n with existsFlag := false, currentTimer := none })
      (s.setThread th fun n => { n with existsFlag := false, currentTimer := none }) := by
    apply h.setThread
    · exact fun _ => rfl
    · exact fun _ => rfl
    · exact fun _ => rfl
  have hempty := h₁.lists.listIsempty hth
  simp only [Memory.threadCleanup, State.threadCleanup, hempty]
  split
  · rename_i hnil
    obtain ⟨m₂, hdealloc, h₂⟩ := h₁.timerThreadDealloc hth (List.isEmpty_iff.mp hnil) (by simp)
    rw [hdealloc, Option.map_some]
    exact ⟨m₂, rfl, h₂⟩
  · exact h₁.timerThreadStart hth (by simp) created

theorem osTimerAddInit (h : Stores m s) (a : AddArgs) (t : TimerId) :
    Stores (m.osTimerAddInit a t).1 (s.osTimerAddInit a t).1 ∧ (m.osTimerAddInit a t).2 = (s.osTimerAddInit a t).2 := by
  rw [Memory.osTimerAddInit, State.osTimerAddInit, h.timerValid]
  split
  · constructor
    · dsimp only
      apply h.setTimer
    · rfl
  · exact ⟨h, rfl⟩

theorem osTimerStartRead (h : Stores m s) (timerid : TimerT) : m.osTimerStartRead timerid = s.osTimerStartRead timerid := by
  cases timerid with
  | none => rfl
  | some t => simp only [Memory.osTimerStartRead, State.osTimerStartRead, h.timerValid, h.timer]

theorem osTimerSettime (h : Stores m s) (timerid : TimerT) (millisec : Int) :
    Stores (m.osTimerSettime timerid millisec).1 (s.osTimerSettime timerid millisec).1 ∧
      (m.osTimerSettime timerid millisec).2 = (s.osTimerSettime timerid millisec).2 := by
  simp only [Memory.osTimerSettime, State.osTimerSettime]
  split
  · exact ⟨h, rfl⟩
  · cases timerid with
    | none => exact ⟨h, rfl⟩
    | some t =>
        simp only [h.timerValid]
        split
        · constructor
          · dsimp only
            apply h.setTimer
          · rfl
        · exact ⟨h, rfl⟩

end Stores

/-- Static storage, once `init_module` has run, is the initial state. -/
theorem stores_init : ∃ m, zeroMemory.initModule = some m ∧ Stores m initModule := by
  obtain ⟨links, hrun, hrep⟩ := represents_init zeroLinks
  refine ⟨_, by rw [Memory.initModule, zeroMemory, hrun, Option.map_some], hrep, rfl, fun _ => rfl, rfl, fun _ _ => rfl⟩

end Pc02.Timer

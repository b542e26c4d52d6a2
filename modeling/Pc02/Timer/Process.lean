import Pc02.Lib.Lockstep
import Pc02.Timer.Death
import Pc02.Timer.Memory

/-!
# The timer service in memory

The interleaving of locked sections again, with the module's data in memory. The machine `process` and
the machine `service`, whose lists are sequences, go in lockstep: in every run that gives a thread node
back only while no timer in use belongs to it, the same actions are possible and every call, every
expiry and every handler is answered the same. In particular no null pointer is followed, every walk along
a list ends and no assertion fails.
-/

namespace Pc02.Timer

open Machines

structure Process where
  mem : Memory
  call : Pthread → Call
  pc : ThreadId → ServicePc

namespace Process

def setCall (P : Process) (p : Pthread) (c : Call) : Process := { P with call := Function.update P.call p c }

def setPc (P : Process) (th : ThreadId) (c : ServicePc) : Process := { P with pc := Function.update P.pc th c }

def canCall (P : Process) (p : Pthread) : Bool :=
  P.call p = .idle &&
    match p with
    | .client _ => true
    | .service th =>
        match P.pc th with
        | .handling .. => true
        | _ => false

def spawn (P : Process) (mem : Memory) (started : Option ThreadId) : Process :=
  { P with
    mem := mem
    pc := fun th => if started = some th then .ready else P.pc th }

def settimeDone (P : Process) (p : Pthread) (t : TimerId) (r : Memory × Int × Option ThreadId) (success : Ret) :
    Process × List Event :=
  let ret := if r.2.1 = 0 then success else .code (-1)
  let armed := if r.2.1 = 0 ∧ (r.1.timer t).armed then [Event.armed t (r.1.timer t).event.reg] else []
  let P := { P with mem := r.1 }
  match r.2.2 with
  | some th => (P.setCall p (.waking th ret), armed)
  | none => (P.setCall p .idle, armed ++ [.returned p ret])

def deleteDone (P : Process) (p : Pthread) (t : TimerId) (th : Option ThreadId) (called : Nat) :
    Option (Process × List Event) :=
  (P.mem.timerDelete t).map fun mem => ({ P with mem := mem }.setCall p .idle,
    [.deleted p t th called (P.mem.timer t).event.reg, .returned p (.code 0)])

def serve (P : Process) (th : ThreadId) (now : ClockReading) : Option (Process × List Event) :=
  (P.mem.links.listFirst (.queue th)).bind fun first =>
    if first = .queue th then some (P.setPc th (.blocked none), [])
    else
      (timerLinks2ptr first).bind fun t =>
        let n := P.mem.timer t
        if timespecCompare now n.expirytime < 0 then some (P.setPc th (.blocked (some n.expirytime)), [])
        else
          (P.mem.expireTimer th t now).map fun mem =>
            ({ P with mem := mem }.setPc th (.expiring t n.event.reg now), [.popped th t n.event.reg])

def broadcast (P : Process) (th : ThreadId) : Process :=
  match P.pc th with
  | .blocked _ => P.setPc th .ready
  | _ => P

def step (P : Process) (a : Action) : Option (Process × List Event) :=
  match a with
  | .add p args created =>
      if P.canCall p then
        if args.accepted then
          (P.mem.osTimerAddCreate args created).map fun r =>
            match r.2.1 with
            | none => (P.spawn r.1 r.2.2, [.returned p (.code (-1))])
            | some t => ((P.spawn r.1 r.2.2).setCall p (.adding args t), [])
        else some (P, [.returned p (.code (-1))])
      else none
  | .addInit p =>
      match P.call p with
      | .adding args t =>
          match P.mem.osTimerAddInit args t with
          | (_, false) => some (P.setCall p .idle, [.returned p (.code (-1))])
          | (mem, true) => some ({ P with mem := mem }.setCall p (.addArming args t), [])
      | _ => none
  | .addArm p now =>
      match P.call p with
      | .addArming args t => (P.mem.osTimerAddArm args t now).map fun r => P.settimeDone p t r (.added t)
      | _ => none
  | .start p timerid =>
      if P.canCall p then
        match P.mem.osTimerStartRead timerid with
        | none => some (P, [.returned p (.code (-1))])
        | some (t, its) => some (P.setCall p (.starting t its), [])
      else none
  | .startArm p now =>
      match P.call p with
      | .starting t its => (P.mem.timerSettime (some t) false its now).map fun r => P.settimeDone p t r (.code 0)
      | _ => none
  | .stop p timerid now =>
      if P.canCall p then
        match timerid with
        | none => some (P, [.returned p (.code (-1))])
        | some t =>
            (P.mem.timerSettime (some t) false zeroItimerspec now).map fun r => P.settimeDone p t r (.code 0)
      else none
  | .settime p timerid millisec =>
      if P.canCall p then
        let r := P.mem.osTimerSettime timerid millisec
        some ({ P with mem := r.1 }, [.returned p (.code r.2)])
      else none
  | .del p timerid =>
      if P.canCall p then
        match timerid with
        | none => some (P, [.returned p (.code (-1))])
        | some t =>
            let n := P.mem.timer t
            if P.mem.timerValid t then
              match (if n.armed then n.thread else none) with
              | some th =>
                  if P.mem.deleteMustWait t th p then some (P.setCall p (.deleting t th n.event.reg), [])
                  else P.deleteDone p t n.thread n.event.reg
              | none => P.deleteDone p t n.thread n.event.reg
            else some (P, [.returned p (.code (-1))])
      else none
  | .delWake p =>
      match P.call p with
      | .deleting t th reg =>
          if P.mem.deleteMustWait t th p then some (P, []) else P.deleteDone p t (some th) reg
      | _ => none
  | .wakeup p =>
      match P.call p with
      | .waking th ret => some ((P.broadcast th).setCall p .idle, [.returned p ret])
      | _ => none
  | .look th now =>
      match P.pc th with
      | .ready => P.serve th now
      | _ => none
  | .invoke th =>
      match P.pc th with
      | .expiring t reg now => some (P.setPc th (.handling t reg now), [.invoked th (P.mem.timer t).event])
      | _ => none
  | .finish th =>
      match P.pc th with
      | .handling _ _ now =>
          if P.call (.service th) = .idle then { P with mem := P.mem.expireDone th }.serve th now else none
      | _ => none
  | .wake th =>
      match P.pc th with
      | .blocked _ => some (P.setPc th .ready, [])
      | _ => none
  | .exit th created =>
      match P.pc th with
      | .handling .. =>
          (P.mem.threadCleanup th created).map fun r =>
            (({ P with mem := r.1 }.setCall (.service th) .idle).setPc th (if r.2 then .ready else .absent), [])
      | _ => none

end Process

/-- The process from the memory that `init_module` left. -/
def process (mem : Memory) : Machine Process Action Event := ⟨⟨mem, fun _ => .idle, fun _ => .absent⟩, Process.step⟩

/-- The memory holds the data of the module and every thread is where it is in the other model. A node that
is served has its thread. -/
structure Refines (P : Process) (S : System) : Prop where
  stores : Stores P.mem S.svc
  call : P.call = S.call
  pc : P.pc = S.pc
  serving : ∀ th, S.pc th ≠ .absent → (S.svc.thread th).existsFlag = true

namespace Refines

variable {P : Process} {S : System} {p : Pthread} {t : TimerId} {th : ThreadId}

theorem active (h : Refines P S) (hpc : S.pc th ≠ .absent) : th ∈ S.svc.threadActiveList := by
  rcases h.stores.lists.placed th with hfree | hactive
  · have hstopped := h.stores.stopped th hfree
    rw [h.serving th hpc] at hstopped
    cases hstopped
  · exact hactive

theorem setCall (h : Refines P S) (p : Pthread) (c : Call) : Refines (P.setCall p c) (S.setCall p c) where
  stores := h.stores
  call := by rw [Process.setCall, System.setCall_call, h.call]
  pc := h.pc
  serving := h.serving

theorem setPc (h : Refines P S) (th : ThreadId) {c : ServicePc}
    (hc : c ≠ .absent → (S.svc.thread th).existsFlag = true) : Refines (P.setPc th c) (S.setPc th c) where
  stores := h.stores
  call := h.call
  pc := by rw [Process.setPc, System.setPc_pc, h.pc]
  serving := by
    intro x hx
    by_cases hxth : x = th
    · subst hxth
      rw [System.setPc_pc, Function.update_self] at hx
      exact hc hx
    · rw [System.setPc_pc, Function.update_of_ne hxth] at hx
      exact h.serving x hx

theorem setSvc (h : Refines P S) {mem : Memory} {svc : State} (hstores : Stores mem svc)
    (hsame : ∀ th, (svc.thread th).existsFlag = (S.svc.thread th).existsFlag) :
    Refines { P with mem := mem } { S with svc := svc } where
  stores := hstores
  call := h.call
  pc := h.pc
  serving := by
    intro x hx
    rw [hsame]
    exact h.serving x hx

theorem canCall (h : Refines P S) (p : Pthread) : P.canCall p = S.canCall p := by
  unfold Process.canCall
  rw [h.call, h.pc]
  rfl

theorem spawn (h : Refines P S) {mem : Memory} {svc : State} {started : Option ThreadId} (hstores : Stores mem svc)
    (hstarted : Started S.svc svc started) : Refines (P.spawn mem started) (S.spawn svc) where
  stores := hstores
  call := h.call
  pc := by
    funext th
    have hiff : started = some th ↔ (S.svc.thread th).existsFlag = false ∧ (svc.thread th).existsFlag = true := by
      constructor
      · intro hth
        exact ⟨hstarted.fresh th hth, (hstarted.runs th).mpr (.inr hth)⟩
      · rintro ⟨hold, hnew⟩
        rcases (hstarted.runs th).mp hnew with hran | hth
        · rw [hold] at hran
          cases hran
        · exact hth
    simp only [Process.spawn, System.spawn, hiff, h.pc]
  serving := by
    intro th hth
    apply (hstarted.runs th).mpr
    by_cases hnew : (S.svc.thread th).existsFlag = false ∧ (svc.thread th).existsFlag = true
    · exact (hstarted.runs th).mp hnew.2
    · simp only [System.spawn, if_neg hnew] at hth
      exact .inl (h.serving th hth)

theorem settimeDone (h : Refines P S) {mem : Memory} {r : State × Int × Option ThreadId} (hstores : Stores mem r.1)
    (hsame : ∀ th, (r.1.thread th).existsFlag = (S.svc.thread th).existsFlag) (p : Pthread) (t : TimerId) (success : Ret) :
    Matched Refines (P.settimeDone p t (mem, r.2) success) (S.settimeDone p t r success) := by
  have hset := h.setSvc hstores hsame
  simp only [Process.settimeDone, System.settimeDone, hstores.timer]
  cases r.2.2 with
  | none => exact ⟨hset.setCall p _, rfl⟩
  | some th => exact ⟨hset.setCall p _, rfl⟩

theorem timerSettime (h : Refines P S) (hinv : S.Inv) {its : Itimerspec} (hits : its.Ok) (p : Pthread) (t : TimerId)
    (abstime : Bool) (now : ClockReading) (success : Ret) :
    Option.Rel (Matched Refines)
      ((P.mem.timerSettime (some t) abstime its now).map fun r => P.settimeDone p t r success)
      (some (S.settimeDone p t (S.svc.timerSettime (some t) abstime its now) success)) := by
  have hactive : ∀ th, (S.svc.timer t).inuse = .inuse → (S.svc.timer t).thread = some th →
      th ∈ S.svc.threadActiveList := by
    intro th hin hth
    obtain ⟨th', hactive, hth'⟩ := hinv.wf.placed t hin
    obtain rfl : th = th' := Option.some.inj (hth.symm.trans hth')
    exact hactive
  obtain ⟨mem, hrun, hstores⟩ := h.stores.timerSettime hactive abstime its now
  have hsame := (State.timerSettime_settimed hinv.wf hits t abstime now).sameThreads
  rw [hrun, Option.map_some]
  exact .some (h.settimeDone hstores hsame.existsFlag p t success)

theorem deleteDone (h : Refines P S) (hinv : S.Inv) (p : Pthread) (t : TimerId) (th : Option ThreadId) (called : Nat) :
    Option.Rel (Matched Refines) (P.deleteDone p t th called) (some (S.deleteDone p t th called)) := by
  obtain ⟨mem, hrun, hstores⟩ := h.stores.timerDelete t
  have hsame := (State.timerDelete_deleted hinv.wf t).sameThreads
  rw [Process.deleteDone, hrun, Option.map_some, System.deleteDone, h.stores.timer]
  exact .some ⟨(h.setSvc hstores hsame.existsFlag).setCall p .idle, rfl⟩

theorem serve (h : Refines P S) (hpc : S.pc th ≠ .absent) (now : ClockReading) :
    Option.Rel (Matched Refines) (P.serve th now) (some (S.serve th now)) := by
  have hactive := h.active hpc
  have hflag := h.serving th hpc
  have hfirst := (h.stores.lists.rings.ring _ _ (.queue th hactive)).first
  rw [Process.serve, Pc02.Lib.Links.listFirst, hfirst, Option.bind_some, System.serve]
  cases hqueue : (S.svc.thread th).timerQueue with
  | nil =>
      rw [List.map_nil, List.headD_nil, if_pos rfl]
      exact .some ⟨h.setPc th fun _ => hflag, rfl⟩
  | cons t rest =>
      rw [List.map_cons, List.headD_cons, if_neg (by simp), timerLinks2ptr, Option.bind_some]
      simp only [h.stores.timer]
      split
      · exact .some ⟨h.setPc th fun _ => hflag, rfl⟩
      · obtain ⟨mem, hrun, hstores⟩ := h.stores.expireTimer hactive t now
        have hsame : ∀ x, ((S.svc.expireTimer th t now).thread x).existsFlag = (S.svc.thread x).existsFlag := by
          intro x
          rw [State.expireTimer_eq_move]
          by_cases hx : x = th
          · subst hx
            simp
          · simp [hx]
        rw [hrun, Option.map_some]
        exact .some ⟨(h.setSvc hstores hsame).setPc th fun _ => (hsame th).trans hflag, rfl⟩

theorem broadcast (h : Refines P S) (th : ThreadId) : Refines (P.broadcast th) (S.broadcast th) := by
  simp only [Process.broadcast, System.broadcast, h.pc]
  cases hpc : S.pc th with
  | blocked deadline => exact h.setPc th fun _ => h.serving th (by simp [hpc])
  | _ => exact h

theorem add (h : Refines P S) (hinv : S.Inv) {args : AddArgs} {created : Bool} (hsafe : (Action.add p args created).Safe S) :
    Option.Rel (Matched Refines) (P.step (.add p args created)) (S.step (.add p args created)) := by
  simp only [Process.step, System.step, hinv.wf.running, h.canCall, Bool.false_eq_true, if_false]
  split
  · split
    · have hcreated := State.osTimerAddCreate_created hinv.wf hsafe
      have hwf : (S.svc.osTimerAddCreate args created).1.Wf := State.Created.wf hinv.wf hsafe hcreated
      obtain ⟨mem, started, hrun, hstores, hstarted⟩ := h.stores.timerCreate hwf.running
      rw [Memory.osTimerAddCreate, hrun, Option.map_some]
      have hspawn := h.spawn hstores hstarted
      rw [State.osTimerAddCreate]
      cases hres : S.svc.timerCreate .monotonic (args.handler.getD 0) args.arg args.attr created with
      | mk svc newtimer =>
          rw [hres] at hspawn
          cases newtimer with
          | none => exact .some ⟨hspawn, rfl⟩
          | some t => exact .some ⟨hspawn.setCall p _, rfl⟩
    · exact .some ⟨h, rfl⟩
  · exact .none

theorem del (h : Refines P S) (hinv : S.Inv) (timerid : TimerT) :
    Option.Rel (Matched Refines) (P.step (.del p timerid)) (S.step (.del p timerid)) := by
  simp only [Process.step, System.step, hinv.wf.running, h.canCall, Bool.false_eq_true, if_false, h.stores.timer,
    h.stores.timerValid, h.stores.deleteMustWait]
  split
  · cases timerid with
    | none => exact .some ⟨h, rfl⟩
    | some t =>
        dsimp only
        split
        · cases (if (S.svc.timer t).armed then (S.svc.timer t).thread else none) with
          | none => exact h.deleteDone hinv p t _ _
          | some th =>
              dsimp only
              split
              · exact .some ⟨h.setCall p _, rfl⟩
              · exact h.deleteDone hinv p t _ _
        · exact .some ⟨h, rfl⟩
  · exact .none

/-- The thread of a node runs after `thread_cleanup` if a replacement was created; the other nodes keep theirs. -/
theorem threadCleanup_existsFlag (s : State) (th x : ThreadId) (created : Bool) :
    ((s.threadCleanup th created).1.thread x).existsFlag =
      if x = th then (s.threadCleanup th created).2 else (s.thread x).existsFlag := by
  simp only [State.threadCleanup]
  by_cases hx : x = th
  · subst hx
    split
    · simp [State.timerThreadDealloc, State.assert]
    · cases created <;> simp [State.timerThreadStart]
  · split
    · simp [State.timerThreadDealloc, State.assert, hx]
    · cases created <;> simp [State.timerThreadStart, State.assert, hx]

theorem exit (h : Refines P S) (hinv : S.Inv) (created : Bool) :
    Option.Rel (Matched Refines) (P.step (.exit th created)) (S.step (.exit th created)) := by
  simp only [Process.step, System.step, hinv.wf.running, Bool.false_eq_true, if_false, h.pc]
  cases hpc : S.pc th with
  | handling t reg now =>
      have hactive : th ∈ S.svc.threadActiveList := h.active (by simp [hpc])
      obtain ⟨mem, hrun, hstores⟩ := h.stores.threadCleanup hactive created
      rw [hrun, Option.map_some]
      refine .some ⟨⟨hstores, ?_, ?_, fun x hx => ?_⟩, rfl⟩
      · simp [Process.setCall, Process.setPc, h.call]
      · simp [Process.setCall, Process.setPc]
      · have hflag := threadCleanup_existsFlag S.svc th x created
        by_cases hxth : x = th
        · subst hxth
          cases hstarted : (S.svc.threadCleanup x created).2 with
          | true => simpa [hstarted] using hflag
          | false => simp [hstarted] at hx
        · rw [if_neg hxth] at hflag
          simp only [System.setPc_pc, System.setCall_pc, Function.update_of_ne hxth] at hx
          exact hflag.trans (h.serving x hx)
  | _ => exact .none

/-- Every action that may be taken is possible in memory too, and is answered the same. -/
theorem step (h : Refines P S) (hinv : S.Inv) {a : Action} (hsafe : a.Safe S) :
    Option.Rel (Matched Refines) (P.step a) (S.step a) := by
  have hrun := hinv.wf.running
  cases a with
  | add p args created => exact h.add hinv hsafe
  | del p timerid => exact h.del hinv timerid
  | exit th created => exact h.exit hinv created
  | addInit p =>
      simp only [Process.step, System.step, hrun, Bool.false_eq_true, if_false, h.call]
      cases hcall : S.call p with
      | adding args t =>
          obtain ⟨hstores, hvalid⟩ := h.stores.osTimerAddInit args t
          have hsame : ∀ x, ((S.svc.osTimerAddInit args t).1.thread x).existsFlag = (S.svc.thread x).existsFlag := by
            intro x
            rw [State.osTimerAddInit]
            split <;> rfl
          have hset := h.setSvc hstores hsame
          rw [h.call] at hset
          cases hmem : P.mem.osTimerAddInit args t with
          | mk mem ok =>
              cases hsvc : S.svc.osTimerAddInit args t with
              | mk svc ok' =>
                  rw [hmem, hsvc] at hvalid hset
                  obtain rfl : ok = ok' := hvalid
                  cases ok with
                  | false => simpa [hmem, hsvc] using Option.Rel.some ⟨h.setCall p _, rfl⟩
                  | true => simpa [hmem, hsvc] using Option.Rel.some ⟨hset.setCall p _, rfl⟩
      | _ => exact .none
  | addArm p now =>
      simp only [Process.step, System.step, hrun, Bool.false_eq_true, if_false, h.call]
      cases hcall : S.call p with
      | addArming args t =>
          have hpos : 0 < args.millisec := by
            have hok := hinv.calls p
            rwa [hcall] at hok
          exact h.timerSettime hinv (AddArgs.its_ok hpos) p t _ now _
      | _ => exact .none
  | start p timerid =>
      simp only [Process.step, System.step, hrun, Bool.false_eq_true, if_false, h.canCall, h.stores.osTimerStartRead]
      split
      · cases S.svc.osTimerStartRead timerid with
        | none => exact .some ⟨h, rfl⟩
        | some r => exact .some ⟨h.setCall p _, rfl⟩
      · exact .none
  | startArm p now =>
      simp only [Process.step, System.step, hrun, Bool.false_eq_true, if_false, h.call]
      cases hcall : S.call p with
      | starting t its =>
          have hits : its.Ok := by
            have hok := hinv.calls p
            rwa [hcall] at hok
          exact h.timerSettime hinv hits p t _ now _
      | _ => exact .none
  | stop p timerid now =>
      simp only [Process.step, System.step, hrun, Bool.false_eq_true, if_false, h.canCall]
      split
      · cases timerid with
        | none => exact .some ⟨h, rfl⟩
        | some t => exact h.timerSettime hinv zeroItimerspec_ok p t _ now _
      · exact .none
  | settime p timerid millisec =>
      simp only [Process.step, System.step, hrun, Bool.false_eq_true, if_false, h.canCall]
      split
      · obtain ⟨hstores, hret⟩ := h.stores.osTimerSettime timerid millisec
        have hsame : ∀ x, ((S.svc.osTimerSettime timerid millisec).1.thread x).existsFlag =
            (S.svc.thread x).existsFlag := by
          intro x
          simp only [State.osTimerSettime]
          split
          · rfl
          · cases timerid with
            | none => rfl
            | some t =>
                dsimp only
                split <;> rfl
        rw [hret]
        exact .some ⟨h.setSvc hstores hsame, rfl⟩
      · exact .none
  | delWake p =>
      simp only [Process.step, System.step, hrun, Bool.false_eq_true, if_false, h.call, h.stores.deleteMustWait]
      cases hcall : S.call p with
      | deleting t th reg =>
          dsimp only
          split
          · exact .some ⟨h, rfl⟩
          · exact h.deleteDone hinv p t _ _
      | _ => exact .none
  | wakeup p =>
      simp only [Process.step, System.step, hrun, Bool.false_eq_true, if_false, h.call]
      cases hcall : S.call p with
      | waking th ret => exact .some ⟨(h.broadcast th).setCall p _, rfl⟩
      | _ => exact .none
  | look th now =>
      simp only [Process.step, System.step, hrun, Bool.false_eq_true, if_false, h.pc]
      cases hpc : S.pc th with
      | ready =>
          have hserved : S.pc th ≠ .absent := by simp [hpc]
          exact h.serve hserved now
      | _ => exact .none
  | invoke th =>
      simp only [Process.step, System.step, hrun, Bool.false_eq_true, if_false, h.pc, h.stores.timer]
      cases hpc : S.pc th with
      | expiring t reg now =>
          have hflag := h.serving th (by simp [hpc])
          exact .some ⟨h.setPc th fun _ => hflag, rfl⟩
      | _ => exact .none
  | finish th =>
      simp only [Process.step, System.step, hrun, Bool.false_eq_true, if_false, h.pc, h.call]
      cases hpc : S.pc th with
      | handling t reg now =>
          dsimp only
          split
          · have hserved : S.pc th ≠ .absent := by simp [hpc]
            have hsame : ∀ x, ((S.svc.expireDone th).thread x).existsFlag = (S.svc.thread x).existsFlag := by
              intro x
              by_cases hx : x = th
              · subst hx
                simp [State.expireDone]
              · simp [State.expireDone, hx]
            have hdone : Stores (P.mem.expireDone th) (S.svc.expireDone th) :=
              h.stores.setCurrent (h.active hserved) none
            have hset := h.setSvc hdone hsame
            rw [h.call, h.pc] at hset
            exact hset.serve hserved now
          · exact .none
      | _ => exact .none
  | wake th =>
      simp only [Process.step, System.step, hrun, Bool.false_eq_true, if_false, h.pc]
      cases hpc : S.pc th with
      | blocked deadline =>
          have hflag := h.serving th (by simp [hpc])
          exact .some ⟨h.setPc th fun _ => hflag, rfl⟩
      | _ => exact .none

end Refines

theorem refines_init {mem : Memory} (h : Stores mem initModule) : Refines (process mem).init service.init :=
  ⟨h, rfl, rfl, fun _ hpc => absurd rfl hpc⟩

theorem process_lockstep (mem : Memory) {ok : System → Action → Prop} {I : System → Prop}
    (hinv : ∀ S, I S → S.Inv) (hsafe : ∀ S a, I S → ok S a → a.Safe S)
    (hstep : ∀ S a S' ev, I S → ok S a → S.step a = some (S', ev) → I S') :
    Lockstep (process mem) service ok fun P S => Refines P S ∧ I S := by
  intro P S a hrel hok
  have hmatch := hrel.1.step (hinv S hrel.2) (hsafe S a hrel.2 hok)
  change Option.Rel _ (P.step a) (S.step a)
  cases hsvc : S.step a with
  | none =>
      cases hmem : P.step a with
      | none => exact .none
      | some r =>
          rw [hsvc, hmem] at hmatch
          cases hmatch
  | some r' =>
      cases hmem : P.step a with
      | none =>
          rw [hsvc, hmem] at hmatch
          cases hmatch
      | some r =>
          rw [hsvc, hmem] at hmatch
          cases hmatch with
          | some hres => exact .some ⟨⟨hres.1, hstep S a r'.1 r'.2 hrel.2 hok hsvc⟩, hres.2⟩

/-- The module in memory, from static storage on: every interleaving of calls, expiries and handlers, in which
threads may also be terminated, is one of the process, answered the same; the lists then are rings with the
members that the sequences have, and each action is possible in memory exactly when it is in the other model. -/
theorem process_refines : ∃ mem, zeroMemory.initModule = some mem ∧ ∀ tr S,
    Steps service (fun S a => a.Safe S) service.init tr S →
    ∃ P, Steps (process mem) (fun _ _ => True) (process mem).init tr P ∧ Refines P S ∧
      ∀ a, a.Safe S → Option.Rel (Matched Refines) (P.step a) (S.step a) := by
  obtain ⟨mem, hinit, hstores⟩ := stores_init
  refine ⟨mem, hinit, fun tr S hsteps => ?_⟩
  have hlock : Lockstep (process mem) service (fun S a => a.Safe S) fun P S => Refines P S ∧ S.Inv :=
    process_lockstep mem (fun _ hinv => hinv) (fun _ _ _ hsafe => hsafe) fun _ _ _ _ hinv hsafe hstep =>
      step_inv hinv hsafe hstep
  obtain ⟨P, hrun, hrel, hinv⟩ : ∃ P, Steps (process mem) (fun _ _ => True) (process mem).init tr P ∧
      Refines P S ∧ S.Inv :=
    hlock.steps (fun _ _ _ _ _ => trivial) ⟨refines_init hstores, init_inv⟩ hsteps
  exact ⟨P, hrun, hrel, fun a hsafe => hrel.step hinv hsafe⟩

def expireOnce : List Action := addSteps 0 0#32 5 0 ++ [.look 0 (atSec 10), .invoke 0, .finish 0]

theorem process_refines_expireOnce : ∃ mem tr S P, zeroMemory.initModule = some mem ∧
    Steps service (fun S a => a.Safe S) service.init tr S ∧ .invoked 0 ⟨1, 0, 1⟩ ∈ tr ∧
    Steps (process mem) (fun _ _ => True) (process mem).init tr P ∧ Refines P S := by
  obtain ⟨mem, hinit, hrefines⟩ := process_refines
  have hany : (service.exec (fun S a => a.Safe S) service.init expireOnce).any
      fun r => decide (Event.invoked 0 ⟨1, 0, 1⟩ ∈ r.2) := by decide +kernel
  obtain ⟨S, tr, hsteps, htest⟩ := exists_steps_of_exec expireOnce hany
  obtain ⟨P, hrun, hrel, -⟩ := hrefines tr S hsteps
  exact ⟨mem, tr, S, P, hinit, hsteps, of_decide_eq_true htest, hrun, hrel⟩

/-! ### What the memory looks like -/

/-- The lists as a reader of the memory finds them. -/
structure Memory.Sound (m : Memory) : Prop where
  free : ∃ ts : List TimerId, Lib.Ring m.links .timerFreeList (ts.map .timer) ∧ ∀ t, t ∈ ts ↔ (m.timer t).inuse = .free
  threads : ∃ idle busy : List ThreadId, Lib.Ring m.links .threadFreeList (idle.map .thread) ∧
    Lib.Ring m.links .threadActiveList (busy.map .thread) ∧ ∀ th, (th ∈ idle ↔ (m.thread th).existsFlag = false) ∧
      (th ∈ busy ↔ (m.thread th).existsFlag = true)
  queue : ∀ th, (m.thread th).existsFlag = true → ∃ ts : List TimerId,
    Lib.Ring m.links (.queue th) (ts.map .timer) ∧
    ts.Pairwise (fun t u => timespecCompare (m.timer t).expirytime (m.timer u).expirytime ≤ 0) ∧
    ∀ t ∈ ts, (m.timer t).inuse = .inuse ∧ (m.timer t).armed = true ∧ (m.timer t).thread = some th
  unlinked : ∀ t, (m.timer t).inuse ≠ .free → (m.timer t).armed = false → m.links.SelfLinked (.timer t)

theorem Refines.sound {P : Process} {S : System} (h : Refines P S) (hinv : S.Inv) (halive : S.svc.Alive) :
    P.mem.Sound where
  free := by
    refine ⟨S.svc.timerFreeList, h.stores.lists.rings.ring _ _ .timerFree, fun t => ?_⟩
    rw [h.stores.timer]
    exact hinv.wf.freeIff t
  threads := by
    refine ⟨S.svc.threadFreeList, S.svc.threadActiveList, h.stores.lists.rings.ring _ _ .threadFree,
      h.stores.lists.rings.ring _ _ .threadActive, fun th => ?_⟩
    rw [h.stores.thread, ThreadNode.fields]
    rcases h.stores.lists.placed th with hfree | hactive
    · have hflag := h.stores.stopped th hfree
      have hnot := h.stores.lists.thread_notMem hfree
      simp [hfree, hnot, hflag]
    · have hflag := halive th hactive
      have hnot : th ∉ S.svc.threadFreeList := fun hfree => h.stores.lists.thread_notMem hfree hactive
      simp [hactive, hnot, hflag]
  queue := by
    intro th hflag
    rw [h.stores.thread, ThreadNode.fields] at hflag
    have hactive : th ∈ S.svc.threadActiveList := by
      rcases h.stores.lists.placed th with hfree | hactive
      · rw [h.stores.stopped th hfree] at hflag
        cases hflag
      · exact hactive
    refine ⟨S.svc.queue th, h.stores.lists.rings.ring _ _ (.queue th hactive), ?_, fun t ht => ?_⟩
    · rw [h.stores.timer]
      exact (hinv.wf.sorted th).imp fun hle => (timespecCompare_le _ _).mpr hle
    · rw [h.stores.timer]
      obtain ⟨hin, harmed, hthread, -⟩ := hinv.wf.queued th t ht
      exact ⟨hin, harmed, hthread⟩
  unlinked := by
    intro t hin harmed
    rw [h.stores.timer] at hin harmed
    apply h.stores.selfLinked
    · rw [hinv.wf.freeIff]
      exact hin
    · intro th hmem
      have harmed' := (hinv.wf.queued th t hmem).2.1
      rw [harmed] at harmed'
      cases harmed'

/-- While handlers return, the memory is sound after every run of the process, whatever the calls and however
they interleave, and the run is one that the other model has. -/
theorem process_sound : ∃ mem, zeroMemory.initModule = some mem ∧ ∀ tr P,
    Steps (process mem) (fun _ a => a.returns = true) (process mem).init tr P →
    P.mem.Sound ∧ ∃ S, Steps service Returns service.init tr S ∧ Refines P S := by
  obtain ⟨mem, hinit, hstores⟩ := stores_init
  refine ⟨mem, hinit, fun tr P hsteps => ?_⟩
  have hlock : Lockstep (process mem) service Returns fun P S => Refines P S ∧ S.Inv ∧ S.svc.Alive := by
    apply process_lockstep
    · exact fun _ hI => hI.1
    · exact fun _ _ hI hret => hI.2.safe hret
    · intro S a S' ev hI hret hstep
      have htrans := step_trans hI.1 (hI.2.safe hret) hret hstep
      exact ⟨htrans.inv hI.1, htrans.alive hI.1 hI.2⟩
  obtain ⟨S, hrun, hrel, hinv, halive⟩ := hlock.steps_back (fun _ _ _ _ hret => hret)
    ⟨refines_init hstores, init_inv, fun _ hth => by cases hth⟩ hsteps
  exact ⟨hrel.sound hinv halive, S, hrun, hrel⟩

theorem process_sound_expireOnce : ∃ mem tr P, zeroMemory.initModule = some mem ∧
    Steps (process mem) (fun _ a => a.returns = true) (process mem).init tr P ∧ .invoked 0 ⟨1, 0, 1⟩ ∈ tr ∧
    P.mem.links.next (.queue 0) = some (.timer 0) ∧ P.mem.Sound := by
  obtain ⟨mem, hinit, hsound⟩ := process_sound
  have hany : (zeroMemory.initModule.any fun mem =>
      ((process mem).exec (fun _ a => a.returns = true) (process mem).init expireOnce).any fun r =>
        decide (Event.invoked 0 ⟨1, 0, 1⟩ ∈ r.2 ∧ r.1.mem.links.next (.queue 0) = some (.timer 0))) = true := by
    decide +kernel
  rw [hinit, Option.any_some] at hany
  obtain ⟨P, tr, hsteps, htest⟩ := exists_steps_of_exec expireOnce hany
  obtain ⟨hinvoked, hqueue⟩ := of_decide_eq_true htest
  exact ⟨mem, tr, P, hinit, hsteps, hinvoked, hqueue, (hsound tr P hsteps).1⟩

end Pc02.Timer

import Pc02.Timer.Invariant

/-!
# What a step does to the slots

Every step rewrites the node of at most one slot, in one of a few ways. Unlike the representation
invariant this holds in every run, also when threads are terminated and a thread node is given back
while timers belong to it. What follows from it about a timer holds in every run as well.
-/

namespace Pc02.Timer

open Function Machines

namespace State

structure Keeps (s s' : State) : Prop where
  timer : s'.timer = s.timer
  queue : ∀ th u, u ∈ s'.queue th → u ∈ s.queue th

/-- One node is rewritten, and its timer is in no queue but the one of its new place. -/
structure Rewrites (s s' : State) (t : TimerId) (n : TimerNode) (d : Place) : Prop where
  timer : s'.timer = update s.timer t n
  queue : ∀ th u, u ∈ s'.queue th → (u = t ∧ d = .queue th) ∨ (u ≠ t ∧ u ∈ s.queue th)

variable {s s' s'' : State} {t : TimerId} {n : TimerNode} {d : Place} {th : ThreadId}

theorem Keeps.refl (s : State) : Keeps s s := ⟨rfl, fun _ _ => id⟩

theorem Keeps.of_eq (htimer : s'.timer = s.timer) (hqueue : ∀ th, s'.queue th = s.queue th) : Keeps s s' :=
  ⟨htimer, fun th _ hu => hqueue th ▸ hu⟩

theorem Keeps.trans (h : Keeps s s') (h' : Keeps s' s'') : Keeps s s'' :=
  ⟨h'.timer.trans h.timer, fun th u hu => h.queue th u (h'.queue th u hu)⟩

theorem Rewrites.move (s : State) (t : TimerId) (n : TimerNode) (d : Place) : Rewrites s (s.move t n d) t n d :=
  ⟨move_timer s t n d, fun th u hu => (s.mem_move_queue t u th n d).mp hu⟩

theorem Rewrites.keeps (h : Rewrites s s' t n d) (h' : Keeps s' s'') : Rewrites s s'' t n d :=
  ⟨h'.timer.trans h.timer, fun th u hu => h.queue th u (h'.queue th u hu)⟩

theorem Keeps.rewrites (h : Keeps s s') (h' : Rewrites s' s'' t n d) : Rewrites s s'' t n d := by
  refine ⟨by rw [h'.timer, h.timer], fun th u hu => ?_⟩
  rcases h'.queue th u hu with hu | ⟨hne, hu⟩
  · exact .inl hu
  · exact .inr ⟨hne, h.queue th u hu⟩

theorem Rewrites.setTimer (h : Rewrites s s' t n d) (f : TimerNode → TimerNode) :
    Rewrites s (s'.setTimer t f) t (f n) d := by
  refine ⟨?_, h.queue⟩
  rw [setTimer_timer, h.timer, update_self, update_idem]

theorem Rewrites.dealloc (h : Rewrites s s' t n d) :
    Rewrites s (s'.timerDealloc t) t { n with thread := none, inuse := .free } .free := by
  refine ⟨?_, fun th u hu => ?_⟩
  · have hold : s'.timer t = n := by rw [h.timer, update_self]
    have hnew : (s'.timerDealloc t).timer = update s'.timer t { s'.timer t with thread := none, inuse := .free } := rfl
    rw [hnew, hold, h.timer, update_idem]
  · obtain ⟨hu, hne⟩ := List.mem_filter.mp hu
    have hne : u ≠ t := by simpa using hne
    rcases h.queue th u hu with ⟨heq, -⟩ | hold
    · exact absurd heq hne
    · exact .inr hold

theorem Rewrites.bail (h : Rewrites s s' t n d) (href : n.refcount = 1) :
    Rewrites s ((s'.timerDelref t).timerDealloc t) t (freedNode n) .free := by
  have hlast := h.setTimer fun n => { n with refcount := n.refcount - 1 }
  have hzero : ((s'.setTimer t fun n => { n with refcount := n.refcount - 1 }).timer t).refcount = 0 := by
    rw [hlast.timer, update_self]
    simp [href]
  have hnode : freedNode n = { ({ n with refcount := n.refcount - 1 } : TimerNode) with
      thread := none, inuse := .free } := by simp [freedNode, href]
  rw [hnode]
  simp only [timerDelref, hzero, if_true]
  exact hlast.dealloc.dealloc

theorem timerThreadGet_keeps {attr : Attr} {clock : ClockId} (hget : s.timerThreadGet attr clock = some (s', th)) :
    Keeps s s' := by
  rcases timerThreadGet_eq_some hget with ⟨-, rfl⟩ | ⟨-, halloc⟩
  · exact .refl _
  · obtain ⟨rest, -, rfl⟩ := timerThreadAlloc_eq_some halloc
    refine ⟨rfl, fun x u hu => ?_⟩
    by_cases hx : x = th
    · subst hx
      simp [State.queue, threadInit] at hu
    · simpa [State.queue, threadInit, hx] using hu

theorem setThread_keeps (s : State) (th : ThreadId) {f : ThreadNode → ThreadNode}
    (hf : (f (s.thread th)).timerQueue = (s.thread th).timerQueue) : Keeps s (s.setThread th f) :=
  Keeps.of_eq rfl (queue_setThread hf)

theorem timerThreadStart_keeps (s : State) (th : ThreadId) (created : Bool) :
    Keeps s (s.timerThreadStart th created).1 := by
  have hassert : Keeps s (s.assert (!(s.thread th).existsFlag)) := .of_eq rfl fun _ => rfl
  cases created with
  | false =>
      simp only [timerThreadStart, Bool.false_eq_true, if_false]
      exact hassert.trans (setThread_keeps _ th rfl)
  | true =>
      simp only [timerThreadStart, if_true]
      exact hassert.trans (setThread_keeps _ th rfl)

theorem timerThreadEnsure_keeps (s : State) (th : ThreadId) (created : Bool) :
    Keeps s (s.timerThreadEnsure th created).1 := by
  rw [timerThreadEnsure]
  split
  · exact .refl s
  · exact timerThreadStart_keeps s th created

theorem timerThreadDealloc_keeps (s : State) (th : ThreadId) : Keeps s (s.timerThreadDealloc th) :=
  .of_eq rfl fun _ => rfl

theorem threadCleanup_keeps (s : State) (th : ThreadId) (created : Bool) :
    Keeps s (s.threadCleanup th created).1 := by
  have hclear : Keeps s (s.setThread th fun n => { n with existsFlag := false, currentTimer := none }) :=
    setThread_keeps s th rfl
  simp only [threadCleanup]
  split
  · exact hclear.trans (timerThreadDealloc_keeps _ th)
  · exact hclear.trans (timerThreadStart_keeps _ th created)

/-- What `__timer_create` does to the slots: nothing, or it takes one and gives it back, or it takes one. -/
theorem timerCreate_rewrites (s : State) (clock : ClockId) (function value : Nat) (attr : Attr) (created : Bool) :
    s.timerCreate clock function value attr created = (s, none) ∨
    (∃ t event, (s.timerCreate clock function value attr created).2 = none ∧
      Rewrites s (s.timerCreate clock function value attr created).1 t
        (freedNode (pendingNode (s.timer t) event attr)) .free) ∨
    ∃ t event th, (s.timerCreate clock function value attr created).2 = some t ∧
      Rewrites s (s.timerCreate clock function value attr created).1 t
        (createdNode (s.timer t) event attr clock th) .nowhere := by
  cases hfree : s.timerFreeList with
  | nil =>
      left
      simp [timerCreate, timerAlloc, hfree]
  | cons t rest =>
      right
      let event : Sigevent := ⟨function, value, s.nextReg⟩
      have hpending : ((s.listUnlinkIp t).setTimer t fun n =>
            { n with inuse := .inuse, refcount := 1 }).createEvent t function value attr =
          (s.move t (pendingNode (s.timer t) event attr) .nowhere).bump := by
        simp [createEvent, move, bump, setTimer, listUnlinkIp, pendingNode, event]
      have htaken : Rewrites s (s.move t (pendingNode (s.timer t) event attr) .nowhere).bump t
          (pendingNode (s.timer t) event attr) .nowhere :=
        (Rewrites.move s t _ _).keeps (.of_eq rfl fun _ => rfl)
      simp only [timerCreate, timerAlloc, hfree, hpending, createThread]
      generalize (s.move t (pendingNode (s.timer t) event attr) .nowhere).bump = u at htaken
      cases hget : u.timerThreadGet attr clock with
      | none => exact .inl ⟨t, event, rfl, htaken.bail rfl⟩
      | some r =>
          obtain ⟨v, th⟩ := r
          have hgot := htaken.keeps (timerThreadGet_keeps hget)
          have hstarted := hgot.keeps (timerThreadEnsure_keeps v th created)
          cases hens : v.timerThreadEnsure th created with
          | mk w ok =>
              rw [hens] at hstarted
              dsimp only
              rw [hens]
              cases ok with
              | false =>
                  exact .inl ⟨t, event, rfl, (hstarted.keeps (timerThreadDealloc_keeps w th)).bail rfl⟩
              | true =>
                  have hplaced := hstarted.setTimer fun n =>
                    { n with clock := clock, armed := false, thread := some th }
                  exact .inr ⟨t, event, th, rfl, hplaced⟩

end State

/-- The timer that an action starts, and the instant its first period begins at. With `TIMER_ABSTIME` the
first expiry is counted from the origin of the clock. -/
def System.started (S : System) : Action → Option (TimerId × Int)
  | .addArm p now =>
      match S.call p with
      | .addArming args t => some (t, if hasFlag args.flag timerAbstime then 0 else now.1.toNs)
      | _ => none
  | .startArm p now =>
      match S.call p with
      | .starting t _ => some (t, now.1.toNs)
      | _ => none
  | _ => none

/-- An `itimerspec` of the module: the first expiry is a period away, and the interval is this period or
there is none. -/
def Itimerspec.Regular (v : Itimerspec) : Prop := v.Ok ∧ (v.interval = zeroTimespec ∨ v.interval = v.value)

def Call.Regular : Call → Prop
  | .adding args _ => 0 < args.millisec
  | .addArming args _ => 0 < args.millisec
  | .starting _ its => its.Regular
  | _ => True

structure System.SlotsOk (S : System) : Prop where
  refOk : ∀ t, (S.svc.timer t).RefOk
  dataOk : ∀ t, (S.svc.timer t).DataOk
  threaded : ∀ t, (S.svc.timer t).inuse = .inuse → ∃ th, (S.svc.timer t).thread = some th
  queued : ∀ th t, t ∈ S.svc.queue th → (S.svc.timer t).inuse = .inuse ∧ (S.svc.timer t).armed = true ∧
    (S.svc.timer t).expirytime.Normal
  calls : ∀ p, (S.call p).Regular

/-- What a step does to the slots, if `started` is what it starts. -/
inductive Touched (s : State) (started : Option (TimerId × Int)) : State → Prop
  | keeps {s' : State} : State.Keeps s s' → (∀ t i, started = some (t, i) → (s.timer t).inuse ≠ .inuse) →
      Touched s started s'
  | data {t : TimerId} {type : TimerType} {millisec : Int} : started = none → 0 ≤ millisec →
      Touched s started (s.setTimer t fun n => { n with type := type, millisec := millisec })
  | created {s' : State} {t : TimerId} {event : Sigevent} {attr : Attr} {clock : ClockId} {th : ThreadId} :
      started = none → State.Rewrites s s' t (State.createdNode (s.timer t) event attr clock th) .nowhere →
      Touched s started s'
  | freed {s' : State} {t : TimerId} {n : TimerNode} : (∀ u i, started = some (u, i) → u = t) → n.DataOk →
      State.Rewrites s s' t (State.freedNode n) .free → Touched s started s'
  | lost {s' : State} {t : TimerId} : started = none → (s.timer t).inuse ≠ .inuse →
      State.Rewrites s s' t { s.timer t with inuse := .deleted, refcount := (s.timer t).refcount - 1 } .nowhere →
      Touched s started s'
  | stopped {s' : State} {t : TimerId} {its : Itimerspec} : (∀ u i, started = some (u, i) → u = t) →
      (s.timer t).inuse = .inuse → its.Ok →
      State.Rewrites s s' t (State.stoppedNode (s.timer t) its) .nowhere → Touched s started s'
  | armed {s' : State} {t : TimerId} {th : ThreadId} {its : Itimerspec} {abstime : Bool} {now : ClockReading} {i : Int} :
      started = some (t, i) → (s.timer t).inuse = .inuse → (s.timer t).thread = some th → its.Regular →
      (State.armedNode (s.timer t) abstime its now).expirytime.toNs = i + its.value.toNs →
      State.Rewrites s s' t (State.armedNode (s.timer t) abstime its now) (.queue th) → Touched s started s'
  | expired {s' : State} {t : TimerId} {th : ThreadId} {now : ClockReading} : started = none → t ∈ s.queue th →
      s.key t ≤ now.1.key →
      State.Rewrites s s' t (State.expiredNode (s.timer t) now) (State.expiredPlace (s.timer t) th) →
      Touched s started s'

theorem AddArgs.its_regular {a : AddArgs} (h : 0 < a.millisec) : a.its.Regular := by
  refine ⟨AddArgs.its_ok h, ?_⟩
  simp only [AddArgs.its]
  split
  · exact .inl rfl
  · exact .inr rfl

theorem armedNode_toNs (n : TimerNode) (abstime : Bool) (its : Itimerspec) (now : Timespec) :
    (State.armedNode n abstime its now).expirytime.toNs =
      (if abstime then 0 else now.toNs) + its.value.toNs := by
  simp only [State.armedNode]
  split
  · rw [zero_add]
  · rw [timespecAdd_toNs]

theorem Settimed.touched {s s' : State} {t : TimerId} {abstime : Bool} {its : Itimerspec} {now : ClockReading}
    {r : Int × Option ThreadId} {started : Option (TimerId × Int)}
    (hdata : (s.timer t).DataOk) (hits : its.Regular) (hs : State.Settimed s t abstime its now (s', r))
    (hstarted : started = some (t, if abstime then 0 else now.1.toNs) ∨ (started = none ∧ its.value = zeroTimespec)) :
    Touched s started s' := by
  have hsame (u : TimerId) (i : Int) (hu : started = some (u, i)) : u = t := by
    rcases hstarted with h | h
    · rw [h] at hu
      exact (Prod.mk.inj (Option.some.inj hu)).1.symm
    · rw [h.1] at hu
      cases hu
  cases hs with
  | @arm th hin hth hvalue =>
      rcases hstarted with h | h
      · exact .armed h hin hth hits (armedNode_toNs _ _ _ _) (.move _ _ _ _)
      · exact absurd h.2 hvalue
  | stop hin hvalue => exact .stopped hsame hin hits.1 (.move _ _ _ _)
  | free hin => exact .freed hsame hdata (.move _ _ _ _)
  | lost hin =>
      refine .keeps (.refl s) fun u i hu => ?_
      rw [hsame u i hu, hin]
      simp

theorem Deleted.touched {s s' : State} {t : TimerId} (hdata : (s.timer t).DataOk) (hd : State.Deleted s t s') :
    Touched s none s' := by
  cases hd with
  | released hin => exact .freed (by simp) hdata (.move _ _ _ _)
  | lost hin => exact .lost rfl hin (.move _ _ _ _)

theorem Served.touched {s : State} {S S' : System} {th : ThreadId} {now : ClockReading} {ev : List Event}
    (hkeeps : State.Keeps s S.svc) (hs : Served S th now (S', ev)) : Touched s none S'.svc := by
  cases hs with
  | empty => exact .keeps hkeeps (by simp)
  | early => exact .keeps hkeeps (by simp)
  | @due t rest hq hdue =>
      refine .expired rfl (hkeeps.queue th t (by rw [hq]; simp)) (by rwa [State.key, hkeeps.timer] at hdue) ?_
      rw [← hkeeps.timer]
      apply hkeeps.rewrites
      change State.Rewrites S.svc (S.svc.expireTimer th t now) t _ _
      rw [State.expireTimer_eq_move]
      exact (State.Rewrites.move _ _ _ _).keeps (State.setThread_keeps _ th rfl)

theorem System.setCall_regular {S : System} (h : ∀ p, (S.call p).Regular) (p : Pthread) {c : Call} (hc : c.Regular) :
    ∀ q, ((S.setCall p c).call q).Regular := by
  intro q
  by_cases hq : q = p
  · subst hq
    simpa [System.setCall] using hc
  · simpa [System.setCall, hq] using h q

theorem System.settimeDone_regular {S : System} (h : ∀ p, (S.call p).Regular) (p : Pthread) (t : TimerId)
    (r : State × Int × Option ThreadId) (ret : Ret) : ∀ q, ((S.settimeDone p t r ret).1.call q).Regular := by
  simp only [System.settimeDone]
  split
  · exact System.setCall_regular h p trivial
  · exact System.setCall_regular h p trivial

theorem serve_call (S : System) (th : ThreadId) (now : ClockReading) : (S.serve th now).1.call = S.call := by
  simp only [System.serve]
  split
  · rfl
  · split <;> rfl

theorem create_touched {S : System} {args : AddArgs} {created : Bool} {svc : State} {o : Option TimerId}
    (h : S.SlotsOk) (hres : S.svc.osTimerAddCreate args created = (svc, o)) : Touched S.svc none svc := by
  have hcases := State.timerCreate_rewrites S.svc .monotonic (args.handler.getD 0) args.arg args.attr created
  rw [← State.osTimerAddCreate, hres] at hcases
  rcases hcases with heq | ⟨t, event, -, hrw⟩ | ⟨t, event, th, -, hrw⟩
  · obtain rfl : svc = S.svc := (Prod.mk.inj heq).1
    exact .keeps (.refl _) (by simp)
  · exact .freed (n := State.pendingNode (S.svc.timer t) event args.attr) (by simp) (h.dataOk t) hrw
  · exact .created rfl hrw

theorem settimeDone_touched {S : System} {p : Pthread} {t : TimerId} {abstime : Bool} {its : Itimerspec}
    {now : ClockReading} {ret : Ret} {started : Option (TimerId × Int)} (h : S.SlotsOk) (hrun : S.svc.aborted = false)
    (hits : its.Regular)
    (hstarted : started = some (t, if abstime then 0 else now.1.toNs) ∨ (started = none ∧ its.value = zeroTimespec)) :
    Touched S.svc started (S.settimeDone p t (S.svc.timerSettime (some t) abstime its now) ret).1.svc ∧
      ∀ q, ((S.settimeDone p t (S.svc.timerSettime (some t) abstime its now) ret).1.call q).Regular := by
  refine ⟨?_, System.settimeDone_regular h.calls p t _ _⟩
  rw [System.settimeDone_svc]
  exact Settimed.touched (h.dataOk t) hits (State.timerSettime_ends (h.refOk t) hrun (h.threaded t) hits.1 _ now.1)
    hstarted

/-- A step touches the slots in one of the listed ways, and leaves only regular calls pending. -/
theorem step_touched {S S' : System} {a : Action} {ev : List Event} (h : S.SlotsOk) (hstep : S.step a = some (S', ev)) :
    Touched S.svc (S.started a) S'.svc ∧ ∀ p, (S'.call p).Regular := by
  have hrun := System.step_running hstep
  have hnothing : Touched S.svc none S.svc := .keeps (.refl _) (by simp)
  have hdeleted (t : TimerId) : Touched S.svc none (S.svc.timerDelete t) :=
    Deleted.touched (h.dataOk t) (State.timerDelete_ends (h.refOk t) hrun)
  cases step_stepped hstep with
  | addRefused => exact ⟨hnothing, h.calls⟩
  | addFailed _ _ hres => exact ⟨create_touched h hres, h.calls⟩
  | add _ hacc hres =>
      exact ⟨create_touched h hres, System.setCall_regular h.calls _ (AddArgs.millisec_pos hacc)⟩
  | addInitFailed => exact ⟨hnothing, System.setCall_regular h.calls _ trivial⟩
  | @addInit p args t hcall _ =>
      have hms : 0 < args.millisec := by simpa [hcall, Call.Regular] using h.calls p
      exact ⟨.data rfl hms.le, System.setCall_regular h.calls p hms⟩
  | @addArm p now args t hcall =>
      have hms : 0 < args.millisec := by simpa [hcall, Call.Regular] using h.calls p
      exact settimeDone_touched h hrun (AddArgs.its_regular hms) (.inl (by simp [System.started, hcall]))
  | startRefused => exact ⟨hnothing, h.calls⟩
  | @start p _ _ _ _ hread =>
      refine ⟨hnothing, System.setCall_regular h.calls p ?_⟩
      exact osTimerStartRead_its (fun t => (h.dataOk t).2.2) hread
  | @startArm p now t its hcall =>
      have hits : its.Regular := by simpa [hcall, Call.Regular] using h.calls p
      exact settimeDone_touched h hrun hits (.inl (by simp [System.started, hcall]))
  | stopRefused => exact ⟨hnothing, h.calls⟩
  | stop => exact settimeDone_touched h hrun ⟨zeroItimerspec_ok, .inl rfl⟩ (.inr ⟨rfl, rfl⟩)
  | settimeRefused => exact ⟨hnothing, h.calls⟩
  | @settime p t millisec _ hms _ =>
      have hdata : Touched S.svc none (S.svc.setTimer t fun n =>
          { n with type := (S.svc.timer t).type, millisec := millisec }) := .data rfl hms.le
      exact ⟨hdata, h.calls⟩
  | delRefused => exact ⟨hnothing, h.calls⟩
  | delWaits => exact ⟨hnothing, System.setCall_regular h.calls _ trivial⟩
  | @del p t => exact ⟨hdeleted t, System.setCall_regular h.calls p trivial⟩
  | delStillWaits => exact ⟨hnothing, h.calls⟩
  | @delWake p t => exact ⟨hdeleted t, System.setCall_regular h.calls p trivial⟩
  | @wakeup p th =>
      refine ⟨?_, System.setCall_regular ?_ p trivial⟩
      · rw [System.setCall_svc, System.broadcast_svc]
        exact hnothing
      · rw [System.broadcast_call]
        exact h.calls
  | @look th now =>
      refine ⟨(serve_served S th now).touched (.refl _), ?_⟩
      rw [serve_call]
      exact h.calls
  | invoke => exact ⟨hnothing, h.calls⟩
  | @finish th _ _ now =>
      have hdone : State.Keeps S.svc (S.svc.expireDone th) := State.setThread_keeps S.svc th rfl
      refine ⟨(serve_served { S with svc := S.svc.expireDone th } th now).touched hdone, ?_⟩
      rw [serve_call]
      exact h.calls
  | wake => exact ⟨hnothing, h.calls⟩
  | @exit th created =>
      exact ⟨.keeps (State.threadCleanup_keeps S.svc th created) (by simp [System.started]),
        System.setCall_regular h.calls (.service th) trivial⟩

structure TimerNode.SlotOk (n : TimerNode) (d : Place) : Prop where
  refOk : n.RefOk
  dataOk : n.DataOk
  threaded : n.inuse = .inuse → ∃ th, n.thread = some th
  queued : ∀ th, d = .queue th → n.inuse = .inuse ∧ n.armed = true ∧ n.expirytime.Normal

theorem System.SlotsOk.rewrites {S S' : System} {t : TimerId} {n : TimerNode} {d : Place} (h : S.SlotsOk)
    (hcalls : ∀ p, (S'.call p).Regular) (hrw : State.Rewrites S.svc S'.svc t n d) (hn : n.SlotOk d) : S'.SlotsOk := by
  have hnode (u : TimerId) : S'.svc.timer u = if u = t then n else S.svc.timer u := by
    rw [hrw.timer, update_apply]
  refine ⟨fun u => ?_, fun u => ?_, fun u hu => ?_, fun th u hu => ?_, hcalls⟩
  · rw [hnode]
    split
    · exact hn.refOk
    · exact h.refOk u
  · rw [hnode]
    split
    · exact hn.dataOk
    · exact h.dataOk u
  · rw [hnode] at hu ⊢
    by_cases hut : u = t
    · rw [if_pos hut] at hu ⊢
      exact hn.threaded hu
    · rw [if_neg hut] at hu ⊢
      exact h.threaded u hu
  · rw [hnode]
    rcases hrw.queue th u hu with ⟨rfl, hd⟩ | ⟨hne, hold⟩
    · rw [if_pos rfl]
      exact hn.queued th hd
    · rw [if_neg hne]
      exact h.queued th u hold

theorem System.SlotsOk.keeps {S S' : System} (h : S.SlotsOk) (hcalls : ∀ p, (S'.call p).Regular)
    (hk : State.Keeps S.svc S'.svc) : S'.SlotsOk := by
  refine ⟨fun u => ?_, fun u => ?_, fun u => ?_, fun th u hu => ?_, hcalls⟩
  · rw [hk.timer]
    exact h.refOk u
  · rw [hk.timer]
    exact h.dataOk u
  · rw [hk.timer]
    exact h.threaded u
  · rw [hk.timer]
    exact h.queued th u (hk.queue th u hu)

theorem expiredNode_inuse (n : TimerNode) (now : Timespec) : (State.expiredNode n now).inuse = n.inuse ∧
    (State.expiredNode n now).armed = n.armed ∧ (State.expiredNode n now).thread = n.thread ∧
    (State.expiredNode n now).refcount = n.refcount ∧ (State.expiredNode n now).value = n.value ∧
    (State.expiredNode n now).millisec = n.millisec := by
  rw [State.expiredNode]
  split <;> exact ⟨rfl, rfl, rfl, rfl, rfl, rfl⟩

theorem expiredNode_normal {n : TimerNode} (now : Timespec) (hi : n.value.interval.Normal) (he : n.expirytime.Normal) :
    (State.expiredNode n now).expirytime.Normal := by
  rw [State.expiredNode]
  split
  · exact he
  · exact catchUp_normal now hi he

theorem Touched.slotsOk {S S' : System} {started : Option (TimerId × Int)} (h : S.SlotsOk)
    (hcalls : ∀ p, (S'.call p).Regular) (ht : Touched S.svc started S'.svc) : S'.SlotsOk := by
  generalize hs' : S'.svc = s' at ht
  cases ht with
  | keeps hk =>
      subst hs'
      exact h.keeps hcalls hk
  | @data t type millisec _ hms =>
      have hnode (u : TimerId) : ∃ ty ms, 0 ≤ ms ∧ S'.svc.timer u = { S.svc.timer u with type := ty, millisec := ms } := by
        rw [hs', State.setTimer_timer, update_apply]
        split
        · rename_i hu
          subst hu
          exact ⟨type, millisec, hms, rfl⟩
        · exact ⟨(S.svc.timer u).type, (S.svc.timer u).millisec, (h.dataOk u).2.2, rfl⟩
      refine ⟨fun u => ?_, fun u => ?_, fun u => ?_, fun th u hu => ?_, hcalls⟩ <;>
        obtain ⟨ty, ms, hms', hu'⟩ := hnode u <;> rw [hu']
      · exact h.refOk u
      · exact ⟨(h.dataOk u).1, (h.dataOk u).2.1, hms'⟩
      · exact h.threaded u
      · rw [hs'] at hu
        exact h.queued th u hu
  | @created _ t event attr clock th _ hrw =>
      subst hs'
      exact h.rewrites hcalls hrw ⟨rfl, h.dataOk t, fun _ => ⟨th, rfl⟩, by simp⟩
  | @freed _ t n _ hdata hrw =>
      subst hs'
      exact h.rewrites hcalls hrw ⟨rfl, hdata, by simp [State.freedNode], by simp⟩
  | @lost _ t _ hin hrw =>
      subst hs'
      refine h.rewrites hcalls hrw ⟨?_, h.dataOk t, by simp, by simp⟩
      have href := h.refOk t
      rw [TimerNode.RefOk] at href ⊢
      cases hin' : (S.svc.timer t).inuse with
      | inuse => exact absurd hin' hin
      | free =>
          rw [hin'] at href
          simp only at href ⊢
          omega
      | deleted =>
          rw [hin'] at href
          simp only at href ⊢
          omega
  | @stopped _ t its _ hin hits hrw =>
      subst hs'
      exact h.rewrites hcalls hrw ⟨h.refOk t, ⟨hits.1, hits.2.1, (h.dataOk t).2.2⟩, h.threaded t, by simp⟩
  | @armed _ t th its abstime now i _ hin hth hits htoNs hrw =>
      subst hs'
      refine h.rewrites hcalls hrw ⟨h.refOk t, ⟨hits.1.1, hits.1.2.1, (h.dataOk t).2.2⟩, h.threaded t, ?_⟩
      intro x hx
      refine ⟨hin, rfl, ?_⟩
      change Timespec.Normal (if abstime then its.value else timespecAdd now its.value)
      split
      · exact hits.1.2.2
      · exact timespecAdd_normal now.2 hits.1.2.2
  | @expired _ t th now _ hmem hdue hrw =>
      subst hs'
      obtain ⟨hinuse, harmed, hthread, href, hvalue, hms⟩ := expiredNode_inuse (S.svc.timer t) now
      obtain ⟨hin, harmed', hnormal⟩ := h.queued th t hmem
      refine h.rewrites hcalls hrw ⟨?_, ?_, ?_, ?_⟩
      · have hold := h.refOk t
        rw [TimerNode.RefOk] at hold ⊢
        rw [hinuse, href]
        exact hold
      · rw [TimerNode.DataOk, hvalue, hms]
        exact h.dataOk t
      · rw [hinuse, hthread]
        exact h.threaded t
      · intro x hx
        rw [hinuse, harmed]
        exact ⟨hin, harmed', expiredNode_normal now (h.dataOk t).1 hnormal⟩

theorem init_slotsOk : System.init.SlotsOk :=
  ⟨fun _ => rfl, fun _ => ⟨zeroTimespec_normal, le_rfl, le_rfl⟩,
    fun t ht => by simp [System.init, initModule, zeroTimerNode] at ht,
    fun th t ht => by simp [System.init, State.queue, initModule, zeroThreadNode] at ht, fun _ => trivial⟩

theorem step_slotsOk {S S' : System} {a : Action} {ev : List Event} (h : S.SlotsOk) (hstep : S.step a = some (S', ev)) :
    S'.SlotsOk :=
  have htouched := step_touched h hstep
  htouched.1.slotsOk h htouched.2

theorem run_slotsOk {ok : System → Action → Prop} {tr : List Event} {S : System}
    (h : Steps service ok service.init tr S) : S.SlotsOk :=
  h.invariant (fun _ _ _ _ hs _ hstep => step_slotsOk hs hstep) init_slotsOk

end Pc02.Timer

import Pc02.Timer.Delete
import Pc02.Timer.Sequential
import Pc02.Timer.Slots

/-!
# A failed `os_timer_add`

`__timer_create` gives back what it has taken when it cannot go on, and the rest of `os_timer_add` does
not fail unless somebody else deletes the new timer. So a call that fails leaves everything as it was,
but for the order of the free lists and what is written in nodes that are free.
-/

namespace Pc02.Timer

open Machines

/-- `os_timer_add` with the variable that `timerid` points to. -/
def State.osTimerAddTo (s : State) (args : AddArgs) (created : Bool) (now : Timespec) (timerid : TimerT) :
    State × Int × TimerT :=
  match s.osTimerAdd args created now with
  | (s, none) => (s, -1, timerid)
  | (s, some t) => (s, 0, some t)

/-- The free slots, the timers in use, the active threads and the queues are what they were, and what is
free is once on its list. -/
structure Unchanged (s s' : State) : Prop where
  free : ∀ t, t ∈ s'.timerFreeList ↔ t ∈ s.timerFreeList
  inuse : ∀ t, (s'.timer t).inuse = (s.timer t).inuse
  timer : ∀ t, (s.timer t).inuse = .inuse → s'.timer t = s.timer t
  active : s'.threadActiveList = s.threadActiveList
  thread : ∀ th ∈ s.threadActiveList, s'.thread th = s.thread th
  queue : ∀ th, s'.queue th = s.queue th
  threadFree : ∀ th, th ∈ s'.threadFreeList ↔ th ∈ s.threadFreeList
  freeOnce : ∀ t, (s'.timer t).inuse = .free → s'.timerFreeList.count t = 1
  threadFreeOnce : ∀ th, th ∉ s'.threadActiveList → s'.threadFreeList.count th = 1

def Action.caller : Action → Option Pthread
  | .add p _ _ => some p
  | .addInit p => some p
  | .addArm p _ => some p
  | .start p _ => some p
  | .startArm p _ => some p
  | .stop p _ _ => some p
  | .settime p _ _ => some p
  | .del p _ => some p
  | .delWake p => some p
  | .wakeup p => some p
  | _ => none

def Call.timer : Call → Option TimerId
  | .adding _ t => some t
  | .addArming _ t => some t
  | .starting t _ => some t
  | .deleting t _ _ => some t
  | _ => none

def Action.timer (S : System) : Action → Option TimerId
  | .start _ timerid => timerid
  | .stop _ timerid _ => timerid
  | .settime _ timerid _ => timerid
  | .del _ timerid => timerid
  | .addInit p => (S.call p).timer
  | .addArm p _ => (S.call p).timer
  | .startArm p _ => (S.call p).timer
  | .delWake p => (S.call p).timer
  | _ => none

/-- An action of another thread than `p`, which has not got the id `t`. -/
def Elsewhere (p : Pthread) (t : TimerId) (S : System) (a : Action) : Prop :=
  a.returns = true ∧ a.caller ≠ some p ∧ a.timer S ≠ some t

section Create

variable {s s' : State} {t : TimerId} {clock : ClockId} {event : Sigevent} {attr : Attr} {created : Bool}

theorem move_free_thread (n : TimerNode) (hout : ∀ th, t ∉ s.queue th) : (s.move t n .free).thread = s.thread := by
  funext th
  have hfilter : (s.queue th).filter (· ≠ t) = s.queue th := by
    rw [List.filter_eq_self]
    intro u hu
    have hne : u ≠ t := fun heq => hout th (heq ▸ hu)
    simpa using hne
  change { s.thread th with timerQueue := (s.queue th).filter (· ≠ t) } = s.thread th
  rw [hfilter]
  rfl

structure GivenBack (s s' : State) : Prop where
  inuse : ∀ t, (s'.timer t).inuse = (s.timer t).inuse
  timer : ∀ t, (s.timer t).inuse = .inuse → s'.timer t = s.timer t
  active : s'.threadActiveList = s.threadActiveList
  thread : ∀ th ∈ s.threadActiveList, s'.thread th = s.thread th
  queue : ∀ th, s'.queue th = s.queue th

theorem GivenBack.refl (s : State) : GivenBack s s :=
  ⟨fun _ => rfl, fun _ _ => rfl, rfl, fun _ _ => rfl, fun _ => rfl⟩

theorem GivenBack.move {n : TimerNode} (h : s.Wf) (hfree : (s.timer t).inuse = .free) (hn : n.inuse = .free) :
    GivenBack s (s.move t n .free).bump := by
  have hout (th : ThreadId) : t ∉ s.queue th := by
    intro ht
    have hin := (h.queued th t ht).1
    rw [hfree] at hin
    cases hin
  have hthread : (s.move t n .free).bump.thread = s.thread := move_free_thread n hout
  have htimer : (s.move t n .free).bump.timer = Function.update s.timer t n := s.move_timer t n .free
  constructor
  · intro u
    rw [htimer]
    by_cases hu : u = t
    · subst hu
      rw [Function.update_self, hn, hfree]
    · rw [Function.update_of_ne hu]
  · intro u hu
    have hne : u ≠ t := by
      intro heq
      rw [heq, hfree] at hu
      cases hu
    rw [htimer, Function.update_of_ne hne]
  · exact s.move_threadActiveList t n .free
  · intro th _
    rw [hthread]
  · intro th
    rw [State.queue, hthread]
    rfl

theorem GivenBack.trans {s'' : State} (h : GivenBack s s') (h' : GivenBack s' s'') : GivenBack s s'' := by
  constructor
  · intro t
    rw [h'.inuse, h.inuse]
  · intro t ht
    rw [h'.timer t (by rw [h.inuse, ht]), h.timer t ht]
  · rw [h'.active, h.active]
  · intro th hth
    rw [h'.thread th (by rw [h.active]; exact hth), h.thread th hth]
  · intro th
    rw [h'.queue, h.queue]

theorem GivenBack.dealloc {u u' : State} {th : ThreadId} (h : s.Wf) (ha : s.Alive)
    (hget : s.timerThreadGet attr clock = some (u, th)) (hens : u.timerThreadEnsure th created = (u', false)) :
    GivenBack s (u'.timerThreadDealloc th) := by
  have hgot := State.timerThreadEnsure_got (State.timerThreadGet_got h hget) hens
  have hfresh : th ∉ s.threadActiveList ∧ u.threadActiveList = s.threadActiveList ++ [th] ∧
      ∀ x, x ≠ th → u.thread x = s.thread x := by
    rcases timerThreadGet_cases h hget with ⟨rfl, hactive⟩ | ⟨hnew, hlist, -, -, hother⟩
    · -- an active node has its thread
      simp [State.timerThreadEnsure, ha th hactive] at hens
    · exact ⟨hnew, hlist, hother⟩
  obtain ⟨hnew, hlist, hother⟩ := hfresh
  have hlist' : (u'.timerThreadDealloc th).threadActiveList = s.threadActiveList := by
    change u'.threadActiveList.filter (· ≠ th) = s.threadActiveList
    rw [(timerThreadEnsure_lists hens).2, hlist, List.filter_append, List.filter_eq_self.mpr]
    · simp
    · intro x hx
      have hne : x ≠ th := fun heq => hnew (heq ▸ hx)
      simpa using hne
  have hstarted : ∀ x, x ≠ th → u'.thread x = u.thread x := by
    rcases timerThreadEnsure_cases hens with ⟨-, rfl, -⟩ | ⟨-, -, -, -, hsame⟩
    · exact fun _ _ => rfl
    · exact hsame
  constructor
  · intro t
    change (u'.timer t).inuse = _
    rw [hgot.timer]
  · intro t _
    change u'.timer t = _
    rw [hgot.timer]
  · exact hlist'
  · intro x hx
    have hne : x ≠ th := fun heq => hnew (heq ▸ hx)
    exact (hstarted x hne).trans (hother x hne)
  · exact hgot.queue

theorem State.Created.givenBack (h : s.Wf) (ha : s.Alive) (hc : State.Created s clock event attr created (s', none)) :
    GivenBack s s' := by
  have hwasFree {t : TimerId} {rest : List TimerId} (hfree : s.timerFreeList = t :: rest) :
      (s.timer t).inuse = .free := by
    apply (h.freeIff t).mp
    rw [hfree]
    exact .head _
  cases hc with
  | full => exact .refl s
  | noThread hfree hget => exact .move h (hwasFree hfree) rfl
  | @noStart t _ u u' th hfree hget hens =>
      have hdealloc := GivenBack.dealloc h ha hget hens
      have hgot := State.timerThreadEnsure_got (State.timerThreadGet_got h hget) hens
      have hunused := State.unused_of_noStart h (ha.createSafe attr clock created) (by simp [hfree]) hget hens
      apply hdealloc.trans
      apply GivenBack.move (State.timerThreadDealloc_wf hgot.wf hunused).2
      · rw [hdealloc.inuse, hwasFree hfree]
      · rfl

theorem State.Wf.threadFree_iff (h : s.Wf) (hcov : s.Covered) (th : ThreadId) :
    th ∈ s.threadFreeList ↔ th ∉ s.threadActiveList := by
  constructor
  · intro hth hactive
    exact (List.nodup_append.mp h.threadNodup).2.2 th hth th hactive rfl
  · intro hth
    exact (hcov th).resolve_right hth

theorem GivenBack.unchanged (h : GivenBack s s') (hwf : s.Wf) (hwf' : s'.Wf) (hcov : s.Covered) (hcov' : s'.Covered) :
    Unchanged s s' where
  free := fun t => by rw [hwf'.freeIff, hwf.freeIff, h.inuse]
  inuse := h.inuse
  timer := h.timer
  active := h.active
  thread := h.thread
  queue := h.queue
  threadFree := fun th => by rw [hwf'.threadFree_iff hcov', hwf.threadFree_iff hcov, h.active]
  freeOnce := fun t ht => List.count_eq_one_of_mem hwf'.freeNodup ((hwf'.freeIff t).mpr ht)
  threadFreeOnce := fun th hth =>
    List.count_eq_one_of_mem (List.nodup_append.mp hwf'.threadNodup).1 ((hwf'.threadFree_iff hcov' th).mpr hth)

theorem Unchanged.refl (h : s.Wf) (hcov : s.Covered) : Unchanged s s :=
  GivenBack.unchanged (.refl s) h h hcov hcov

theorem State.Created.unchanged (h : s.Wf) (ha : s.Alive) (hcov : s.Covered)
    (hc : State.Created s clock event attr created (s', none)) : Unchanged s s' :=
  (hc.givenBack h ha).unchanged h (hc.wf h (ha.createSafe attr clock created)) hcov (hc.covered hcov)

theorem State.Created.inuse (hc : State.Created s clock event attr created (s', some t)) : (s'.timer t).inuse = .inuse := by
  cases hc
  simp [State.bump, State.createdNode, State.pendingNode]

theorem addInit_inuse {args : AddArgs} (hin : (s.timer t).inuse = .inuse) : s.osTimerAddInit args t =
    (s.setTimer t fun n => { n with type := args.type, millisec := args.millisec }, true) := by
  simp [State.osTimerAddInit, State.timerValid, hin]

theorem addArm_inuse {args : AddArgs} (h : s.Wf) (hms : 0 < args.millisec) (hin : (s.timer t).inuse = .inuse)
    (now : Timespec) : (s.osTimerAddArm args t now).2.1 = 0 := by
  have hs := State.timerSettime_settimed h (AddArgs.its_ok hms) t (hasFlag args.flag timerAbstime) now
  rw [State.osTimerAddArm]
  generalize s.timerSettime (some t) (hasFlag args.flag timerAbstime) args.its now = r at hs
  cases hs with
  | arm => rfl
  | stop => rfl
  | free hfree => simp [hin] at hfree
  | lost hlost => simp [hin] at hlost

/-- A call of `os_timer_add` fails in `__timer_create` or not at all. -/
theorem osTimerAdd_result {args : AddArgs} (h : s.Wf) (ha : s.Alive) (hacc : args.accepted = true) (now : Timespec) :
    (s.osTimerAdd args created now).2 = (s.osTimerAddCreate args created).2 := by
  have hsafe := ha.createSafe args.attr .monotonic created
  have hc := State.osTimerAddCreate_created h hsafe
  simp only [State.osTimerAdd, hacc, if_true]
  generalize s.osTimerAddCreate args created = r at hc
  obtain ⟨s₁, o⟩ := r
  cases o with
  | none => rfl
  | some t =>
      have hwf := hc.wf h hsafe
      have hms := AddArgs.millisec_pos hacc
      have hin := hc.inuse
      have harm := addArm_inuse (State.setTimer_data_wf (t := t) hwf args.type hms.le) hms (t := t)
        (by simpa using hin) now
      simp only [addInit_inuse hin, harm, if_true]

theorem osTimerAdd_unchanged {args : AddArgs} (h : s.Wf) (ha : s.Alive) (hcov : s.Covered) {now : Timespec}
    (hfail : s.osTimerAdd args created now = (s', none)) : Unchanged s s' := by
  cases hacc : args.accepted with
  | false =>
      obtain rfl : s = s' := by simpa [State.osTimerAdd, hacc] using hfail
      exact .refl h hcov
  | true =>
      have hnone := (osTimerAdd_result h ha hacc now).symm.trans (congrArg Prod.snd hfail)
      have hc := State.osTimerAddCreate_created h (ha.createSafe args.attr .monotonic created)
      simp only [State.osTimerAdd, hacc, if_true] at hfail
      generalize s.osTimerAddCreate args created = r at hc hfail hnone
      obtain ⟨s₁, o⟩ := r
      subst hnone
      obtain ⟨rfl, -⟩ := Prod.mk.inj hfail
      exact hc.unchanged h ha hcov

end Create

/-! ### Whole runs -/

theorem Served.covered {S S' : System} {th : ThreadId} {now : ClockReading} {ev : List Event} (h : S.svc.Covered)
    (hs : Served S th now (S', ev)) : S'.svc.Covered := by
  cases hs with
  | empty => exact h
  | early => exact h
  | @due t rest hq hdue =>
      change (S.svc.expireTimer th t now).Covered
      rw [State.expireTimer_eq_move]
      intro x
      simpa using h x

theorem Trans.covered {S S' : System} {a : Action} {ev : List Event} (ht : Trans S a S' ev) (h : S.svc.Covered) :
    S'.svc.Covered := by
  cases ht with
  | quiet => exact h
  | data => exact h
  | created _ _ _ _ hc => exact hc.covered h
  | notCreated _ _ _ hc => exact hc.covered h
  | @settime p t abstime its now ret r _ _ hs =>
      rw [System.settimeDone_svc]
      intro x
      cases hs with
      | arm => simpa using h x
      | stop => simpa using h x
      | free => simpa using h x
      | lost => exact h x
  | delete _ hsvc =>
      intro x
      cases hsvc with
      | released => simpa using h x
      | lost => simpa using h x
  | wakeup => simpa using h
  | look _ hs => exact hs.covered h
  | invoke => exact h
  | @finish th _ _ _ _ _ _ _ hs =>
      apply Served.covered _ hs
      exact h
  | wake => exact h

theorem init_covered : initModule.Covered := fun th => .inl (List.mem_finRange th)

theorem run_covered {tr : List Event} {S : System} (h : Steps service Returns service.init tr S) :
    S.Inv ∧ S.svc.Alive ∧ S.svc.Covered := by
  apply run_rule (I := fun _ S => S.svc.Alive ∧ S.svc.Covered) (fun _ _ => id) _ _ h
  · exact ⟨fun x hx => (List.not_mem_nil hx).elim, init_covered⟩
  · intro tr S a S' ev hinv halive hI hok ht
    exact ⟨ht.alive hinv halive, ht.covered hI.2⟩

section Others

variable {S S' : System} {p q : Pthread} {t : TimerId} {a : Action} {ev tr : List Event}

theorem setCall_other (hq : ¬ q = p) (c : Call) : (S.setCall q c).call p = S.call p := by
  simp [Ne.symm hq]

theorem settimeDone_other (hq : ¬ q = p) (t : TimerId) (r : State × Int × Option ThreadId) (ret : Ret) :
    (S.settimeDone q t r ret).1.call p = S.call p := by
  simp only [System.settimeDone]
  split
  · exact setCall_other hq _
  · exact setCall_other hq _

theorem deleteDone_other (hq : ¬ q = p) (t : TimerId) (o : Option ThreadId) (called : Nat) :
    (S.deleteDone q t o called).1.call p = S.call p :=
  setCall_other hq _

theorem step_other (hret : a.returns = true) (hcaller : a.caller ≠ some p) (hstep : S.step a = some (S', ev)) :
    S'.call p = S.call p := by
  cases step_stepped hstep with
  | look => rw [serve_call]
  | finish => rw [serve_call]
  | exit => cases hret
  | _ => grind [setCall_other, settimeDone_other, deleteDone_other, System.spawn_call, System.broadcast_call,
      System.setPc_call, Action.caller]

theorem Trans.elsewhere (h : S.Inv) (ht : Trans S a S' ev) (hok : Elsewhere p t S a)
    (hin : (S.svc.timer t).inuse = .inuse) : (S'.svc.timer t).inuse = .inuse := by
  rcases ((ht.effect h).keeps hin).2 with hin' | ⟨q, o, called, acted, hmem⟩
  · exact hin'
  · have hdeletes := ht.deletes hmem
    cases hdeletes with
    | direct ha =>
        subst ha
        exact absurd rfl hok.2.2
    | resumed ha hcall =>
        subst ha
        refine absurd ?_ hok.2.2
        rw [Action.timer, hcall, Call.timer]

/-- While a thread adds a timer and nobody else has got its id, the call stays where it is and the timer
in use. -/
theorem run_elsewhere {c : Call} (hinv : S.Inv) (halive : S.svc.Alive) (hcall : S.call p = c)
    (hin : (S.svc.timer t).inuse = .inuse) (h : Steps service (Elsewhere p t) S tr S') :
    S'.Inv ∧ S'.svc.Alive ∧ S'.call p = c ∧ (S'.svc.timer t).inuse = .inuse := by
  apply h.invariant (I := fun S => S.Inv ∧ S.svc.Alive ∧ S.call p = c ∧ (S.svc.timer t).inuse = .inuse) _
    ⟨hinv, halive, hcall, hin⟩
  intro S a S' ev hI hok hstep
  obtain ⟨hinv, halive, hcall, hin⟩ := hI
  have ht := step_trans hinv (halive.safe hok.1) hok.1 hstep
  exact ⟨ht.inv hinv, ht.alive hinv halive, (step_other hok.1 hok.2.1 hstep).trans hcall, ht.elsewhere hinv hok hin⟩

end Others

theorem addInit_step {S : System} {p : Pthread} {args : AddArgs} {t : TimerId} (h : S.Inv)
    (hcall : S.call p = .adding args t) (hin : (S.svc.timer t).inuse = .inuse) :
    S.step (.addInit p) = some ({ S with svc := S.svc.setTimer t fun n =>
      { n with type := args.type, millisec := args.millisec } }.setCall p (.addArming args t), []) := by
  simp only [System.step, h.wf.running, Bool.false_eq_true, if_false, hcall, addInit_inuse hin]

/-- Once the timer is created, the rest of the call succeeds. -/
theorem created_add_succeeds {S₁ S₂ : System} {p : Pthread} {args : AddArgs} {t : TimerId} {tr : List Event}
    (hinv : S₁.Inv) (halive : S₁.svc.Alive) (hcall : S₁.call p = .adding args t)
    (hin : (S₁.svc.timer t).inuse = .inuse) (h : Steps service (Elsewhere p t) S₁ tr S₂) :
    ∃ S₃, S₂.step (.addInit p) = some (S₃, []) ∧ S₃.call p = .addArming args t ∧
      ∀ tr₄ S₄, Steps service (Elsewhere p t) S₃ tr₄ S₄ →
        State.settimeRange args.its = true ∧ S₄.svc.timerValid t = true ∧
          ∀ now : ClockReading, (S₄.svc.osTimerAddArm args t now).2.1 = 0 := by
  obtain ⟨hinv₂, halive₂, hcall₂, hin₂⟩ := run_elsewhere hinv halive hcall hin h
  have hms : 0 < args.millisec := by simpa [hcall₂, Call.Ok] using hinv₂.calls p
  have hstep := addInit_step hinv₂ hcall₂ hin₂
  have ht := step_trans hinv₂ (halive₂.safe rfl) rfl hstep
  refine ⟨_, hstep, by simp, ?_⟩
  intro tr₄ S₄ h₄
  obtain ⟨hinv₄, -, -, hin₄⟩ := run_elsewhere (ht.inv hinv₂) (ht.alive hinv₂ halive₂) rfl (by simpa using hin₂) h₄
  refine ⟨(AddArgs.its_ok hms).range, by simp [State.timerValid, hin₄], ?_⟩
  intro now
  exact addArm_inuse hinv₄.wf hms hin₄ now

/-- A call of `os_timer_add` that fails, in any state that is reached while handlers return, changes
neither `*timerid` nor anything else, also if other threads run meanwhile. Once the timer is created the
call succeeds, whatever those do that have not got the new id. -/
theorem failed_add_changes_nothing {tr : List Event} {S : System} (h : Steps service Returns service.init tr S)
    (args : AddArgs) (created : Bool) :
    (∀ (now : Timespec) (timerid : TimerT), (S.svc.osTimerAddTo args created now timerid).2.1 = -1 →
      (S.svc.osTimerAddTo args created now timerid).2.2 = timerid ∧
      Unchanged S.svc (S.svc.osTimerAddTo args created now timerid).1) ∧
    (∀ p S₁ ev, S.step (.add p args created) = some (S₁, ev) → .returned p (.code (-1)) ∈ ev →
      S₁.call = S.call ∧ Unchanged S.svc S₁.svc) ∧
    ∀ p t S₁ ev, S.step (.add p args created) = some (S₁, ev) → S₁.call p = .adding args t →
      ∀ tr₂ S₂, Steps service (Elsewhere p t) S₁ tr₂ S₂ →
        ∃ S₃, S₂.step (.addInit p) = some (S₃, []) ∧ S₃.call p = .addArming args t ∧
          ∀ tr₄ S₄, Steps service (Elsewhere p t) S₃ tr₄ S₄ →
            State.settimeRange args.its = true ∧ S₄.svc.timerValid t = true ∧
              ∀ now : ClockReading, (S₄.svc.osTimerAddArm args t now).2.1 = 0 := by
  obtain ⟨hinv, halive, hcov⟩ := run_covered h
  have hc := State.osTimerAddCreate_created hinv.wf (halive.createSafe args.attr .monotonic created)
  refine ⟨?_, ?_, ?_⟩
  · intro now timerid hret
    simp only [State.osTimerAddTo] at hret ⊢
    cases hr : S.svc.osTimerAdd args created now with
    | mk s' o =>
        cases o with
        | none => exact ⟨rfl, osTimerAdd_unchanged hinv.wf halive hcov hr⟩
        | some t =>
            rw [hr] at hret
            cases hret
  · intro p S₁ ev hstep hev
    cases step_stepped hstep with
    | addRefused => exact ⟨rfl, .refl hinv.wf hcov⟩
    | addFailed _ _ hres =>
        rw [hres] at hc
        exact ⟨rfl, hc.unchanged hinv.wf halive hcov⟩
    | add => cases hev
  · intro p t S₁ ev hstep hcall tr₂ S₂ h₂
    have ht := step_trans hinv (halive.safe rfl) rfl hstep
    apply created_add_succeeds (ht.inv hinv) (ht.alive hinv halive) hcall _ h₂
    cases step_stepped hstep with
    | addRefused hp =>
        rw [canCall_idle hp] at hcall
        cases hcall
    | addFailed hp =>
        rw [System.spawn_call, canCall_idle hp] at hcall
        cases hcall
    | @add _ _ _ _ u _ _ hres =>
        obtain rfl : u = t := by simpa using hcall
        rw [hres] at hc
        exact hc.inuse

/-- A timer runs, and no thread can be started for a second one of another priority. -/
theorem failed_add_changes_nothing_noThread : ∃ tr S, Steps service Returns service.init tr S ∧ S.svc.queue 0 = [0] ∧
    (S.svc.osTimerAddTo ⟨40, 1000, 0#32, some 1, 0, true⟩ false (atSec 1) (some 7)).2 = (-1, some 7) ∧
    Unchanged S.svc (S.svc.osTimerAddTo ⟨40, 1000, 0#32, some 1, 0, true⟩ false (atSec 1) (some 7)).1 := by
  obtain ⟨S, tr, hsteps, htest⟩ := exists_steps_of_exec (m := service) (s := service.init) (addSteps 0 timerInterval 30 0)
    (p := fun r => decide (r.1.svc.queue 0 = [0]) &&
      decide ((r.1.svc.osTimerAddTo ⟨40, 1000, 0#32, some 1, 0, true⟩ false (atSec 1) (some 7)).2 = (-1, some 7)))
    (show (service.exec Returns _ _).any _ = true by decide +kernel)
  simp only [Bool.and_eq_true, decide_eq_true_eq] at htest
  obtain ⟨hqueue, hfail⟩ := htest
  exact ⟨tr, S, hsteps, hqueue, hfail, ((failed_add_changes_nothing hsteps ⟨40, 1000, 0#32, some 1, 0, true⟩ false).1
    (atSec 1) (some 7) (congrArg Prod.fst hfail)).2⟩

end Pc02.Timer

import Pc02.Timer.Registration
import Pc02.Timer.Service

/-!
# Deleting a timer that is being served

`__timer_delete` means to wait until the handler of its timer has returned, but it asks the service
thread only if the timer is armed, and `os_timer_stop` disarms a timer that is being served. After
the wait it does not look whether the slot still holds the timer it was asked to delete. Runs that
avoid both never see a handler run after its timer was deleted.
-/

namespace Pc02.Timer

open Machines

/-- Handlers return; a delete on a timer that is not armed finds no other thread serving it; and a
delete that leaves its wait finds the registration it was called on. -/
def Action.awaited (S : System) (a : Action) : Bool :=
  a.returns &&
    match a with
    | .del p (some t) =>
        !S.svc.timerValid t || (S.svc.timer t).armed ||
          match (S.svc.timer t).thread with
          | some th => !S.svc.deleteMustWait t th p
          | none => true
    | .delWake p =>
        match S.call p with
        | .deleting t th reg => S.svc.deleteMustWait t th p || decide ((S.svc.timer t).event.reg = reg)
        | _ => true
    | _ => true

def State.Owns (s : State) (t : TimerId) (reg : Nat) (th : ThreadId) : Prop :=
  reg < s.nextReg ∧
    ((s.timer t).inuse = .inuse → (s.timer t).event.reg = reg → (s.timer t).thread = some th)

theorem Renewal.owns {s s' : State} (h : Renewal s s') {t : TimerId} {reg : Nat} {th : ThreadId}
    (ho : s.Owns t reg th) : s'.Owns t reg th := by
  have hkept (hsame : SameReg s s' t) (hin : (s'.timer t).inuse = .inuse)
      (hreg : (s'.timer t).event.reg = reg) : (s'.timer t).thread = some th := by
    rw [hsame.thread hin]
    exact ho.2 (hsame.inuse hin) (hsame.event ▸ hreg)
  refine ⟨ho.1.trans_le h.next_le, fun hin hreg => ?_⟩
  cases h with
  | kept next all => exact hkept (all t) hin hreg
  | renewed u others wasFree hnew next =>
      by_cases htu : t = u
      · rw [htu, hnew] at hreg
        exact absurd hreg ho.1.ne'
      · exact hkept (others t htu) hin hreg

theorem Effect.keeps {s s' : State} {ev : List Event} (h : Effect s s' ev) {t : TimerId}
    (hin : (s.timer t).inuse = .inuse) :
    (s'.timer t).event = (s.timer t).event ∧
      ((s'.timer t).inuse = .inuse ∨ ∃ p o called acted, Event.deleted p t o called acted ∈ ev) := by
  have hone {u : TimerId} (same : ∀ t, t ≠ u → SameTimer s s' t)
      (hu : t = u → (s'.timer t).event = (s.timer t).event ∧
        ((s'.timer t).inuse = .inuse ∨ ∃ p o called acted, Event.deleted p t o called acted ∈ ev)) :
      (s'.timer t).event = (s.timer t).event ∧
        ((s'.timer t).inuse = .inuse ∨ ∃ p o called acted, Event.deleted p t o called acted ∈ ev) := by
    by_cases htu : t = u
    · exact hu htu
    · exact ⟨(same t htu).event, .inl ((same t htu).inuse ▸ hin)⟩
  cases h with
  | none same => exact ⟨(same t).event, .inl ((same t).inuse ▸ hin)⟩
  | create u th same wasFree => exact hone same fun htu => by simp [htu, wasFree] at hin
  | fail u same wasFree => exact hone same fun htu => by simp [htu, wasFree] at hin
  | arm u th same wasInuse isInuse armed thread thread' event =>
      exact hone same fun htu => htu ▸ ⟨event, .inl isInuse⟩
  | stop u same wasInuse isInuse unarmed thread event =>
      exact hone same fun htu => htu ▸ ⟨event, .inl isInuse⟩
  | refresh u same wasFree => exact hone same fun htu => by simp [htu, wasFree] at hin
  | release u p th called same wasInuse isFree event next events =>
      refine hone same fun htu => htu ▸ ⟨event, .inr ⟨p, th, called, (s.timer u).event.reg, ?_⟩⟩
      rw [events]
      exact .head _
  | lose u p th called same unused => exact hone same fun htu => absurd (htu ▸ hin) unused
  | pop u th same queued inuse armed thread event =>
      exact hone same fun htu => ⟨htu ▸ event, .inl (by rw [htu, inuse, ← htu, hin])⟩

/-- Where a service thread can be after a step, if it is serving a timer then: where it was, or at
the start of serving the timer it has popped. -/
theorem Trans.serving {S S' : System} {a : Action} {ev : List Event} (ht : Trans S a S' ev) {th : ThreadId}
    {t : TimerId} {reg : Nat} (hs : (S'.pc th).serving = some (t, reg)) :
    ((S.pc th).serving = some (t, reg) ∧
      ∀ now, S'.pc th = .expiring t reg now → S.pc th = .expiring t reg now) ∨
    (t ∈ S.svc.queue th ∧ reg = (S.svc.timer t).event.reg ∧ ev = [.popped th t reg]) := by
  have hsame (hpc : S'.pc th = S.pc th) : (S.pc th).serving = some (t, reg) ∧
      ∀ now, S'.pc th = .expiring t reg now → S.pc th = .expiring t reg now :=
    ⟨hpc ▸ hs, fun now he => hpc ▸ he⟩
  have hserved {T : System} {x : ThreadId} {now : ClockReading} (hq : T.svc.queue th = S.svc.queue th)
      (htimer : T.svc.timer = S.svc.timer) (hpc : T.pc = S.pc) (h : Served T x now (S', ev)) :
      ((S.pc th).serving = some (t, reg) ∧
        ∀ now, S'.pc th = .expiring t reg now → S.pc th = .expiring t reg now) ∨
      (t ∈ S.svc.queue th ∧ reg = (S.svc.timer t).event.reg ∧ ev = [.popped th t reg]) := by
    by_cases hx : th = x
    · subst hx
      cases h with
      | empty => simp [ServicePc.serving] at hs
      | early => simp [ServicePc.serving] at hs
      | @due t' rest hq' hdue =>
          obtain ⟨rfl, rfl⟩ : t' = t ∧ (T.svc.timer t').event.reg = reg := by
            simpa [ServicePc.serving] using hs
          exact .inr ⟨by simp [← hq, hq'], by rw [htimer], rfl⟩
    · refine .inl (hsame ?_)
      cases h <;> simp [hx, hpc]
  cases ht with
  | quiet => exact .inl (hsame rfl)
  | data => exact .inl (hsame rfl)
  | created =>
      refine .inl (hsame ?_)
      simp only [System.setCall_pc, System.spawn] at hs ⊢
      split at hs
      · simp [ServicePc.serving] at hs
      · rename_i hnot
        exact if_neg hnot
  | notCreated =>
      refine .inl (hsame ?_)
      simp only [System.spawn] at hs ⊢
      split at hs
      · simp [ServicePc.serving] at hs
      · rename_i hnot
        exact if_neg hnot
  | settime => exact .inl (hsame (by simp))
  | delete => exact .inl (hsame rfl)
  | @wakeup p x ret =>
      refine .inl (hsame ?_)
      simp only [System.setCall_pc, System.broadcast] at hs ⊢
      split at hs
      · by_cases hx : th = x
        · simp [hx, ServicePc.serving] at hs
        · simp [hx]
      · rfl
  | look _ h => exact hserved rfl rfl rfl h
  | @invoke x t' reg' now hpc =>
      by_cases hx : th = x
      · subst hx
        refine .inl ⟨by simpa [hpc, ServicePc.serving] using hs, fun now he => ?_⟩
        simp at he
      · exact .inl (hsame (by simp [hx]))
  | @finish x t' reg' now S' ev hpc hcall h =>
      refine hserved (T := { S with svc := S.svc.expireDone x }) ?_ rfl rfl h
      by_cases hx : th = x
      · subst hx
        simp [State.queue, State.expireDone]
      · simp [State.queue, State.expireDone, hx]
  | @wake x deadline =>
      by_cases hx : th = x
      · simp [hx, ServicePc.serving] at hs
      · exact .inl (hsame (by simp [hx]))

theorem Trans.deleting {S S' : System} {a : Action} {ev : List Event} (ht : Trans S a S' ev) {p : Pthread}
    {t : TimerId} {th : ThreadId} {reg : Nat} (hc : S'.call p = .deleting t th reg) :
    S.call p = .deleting t th reg ∨
    (S'.svc = S.svc ∧ S'.pc = S.pc ∧ (S.svc.timer t).inuse = .inuse ∧ (S.svc.timer t).thread = some th ∧
      S.svc.deleteMustWait t th p = true ∧ reg = (S.svc.timer t).event.reg) := by
  -- the caller's own call becomes something else
  have hset {T : System} {q : Pthread} {c : Call} (hcall : T.call = S.call)
      (hne : ∀ t th reg, c ≠ .deleting t th reg) (hc : (T.setCall q c).call p = .deleting t th reg) :
      S.call p = .deleting t th reg := by
    by_cases hp : p = q
    · subst hp
      exact absurd (by simpa using hc) (hne t th reg)
    · rw [← hcall]
      simpa [hp] using hc
  have hserved {T : System} {x : ThreadId} {now : ClockReading} (h : Served T x now (S', ev)) :
      S'.call = T.call := by
    cases h <;> rfl
  cases ht with
  | @quiet q c ev hold hentered hev =>
      by_cases hp : p = q
      · subst hp
        have hc : c = .deleting t th reg := by simpa using hc
        cases hentered with
        | idle => cases hc
        | same => exact .inl hc
        | starting => cases hc
        | deleting hin harmed hth hwait =>
            obtain ⟨rfl, rfl, rfl⟩ := Call.deleting.inj hc
            exact .inr ⟨rfl, rfl, hin, hth, hwait, rfl⟩
      · exact .inl (by simpa [hp] using hc)
  | data _ _ hc' =>
      refine .inl (hset rfl ?_ hc)
      rcases hc' with rfl | ⟨args, rfl, -⟩ <;> simp
  | created => exact .inl (hset rfl (by simp) hc)
  | notCreated => exact .inl hc
  | @settime q u abstime its now ret r =>
      simp only [System.settimeDone] at hc
      split at hc
      · exact .inl (hset (T := { S with svc := r.1 }) rfl (by simp) hc)
      · exact .inl (hset (T := { S with svc := r.1 }) rfl (by simp) hc)
  | delete => exact .inl (hset rfl (by simp) hc)
  | wakeup => exact .inl (hset (by simp) (by simp) hc)
  | look _ h => exact .inl (hserved h ▸ hc)
  | invoke => exact .inl hc
  | finish _ _ h => exact .inl (hserved h ▸ hc)
  | wake => exact .inl hc

/-- What is known about the registrations that service threads serve and that deletes wait for. -/
structure System.Tracked (S : System) : Prop where
  numbered : S.svc.Numbered
  served : ∀ th t reg, (S.pc th).serving = some (t, reg) → S.svc.Owns t reg th
  live : ∀ th t reg now, S.pc th = .expiring t reg now →
    (S.svc.timer t).inuse = .inuse ∧ (S.svc.timer t).event.reg = reg
  waits : ∀ p t th reg, S.call p = .deleting t th reg → p ≠ .service th ∧ S.svc.Owns t reg th ∧
    ∀ th', (S.pc th').serving = some (t, reg) → th' = th

/-- A delete under the guard acts on the registration it was called on, and if a thread is serving
that registration then it is the caller, in its handler. -/
theorem Deletes.served {S : System} {a : Action} (hm : S.Manned) (htr : S.Tracked) (hok : a.awaited S = true)
    {p : Pthread} {t : TimerId} {o : Option ThreadId} {called : Nat} (hd : Deletes S a p t o called) :
    called = (S.svc.timer t).event.reg ∧ ∀ th, (S.pc th).serving = some (t, called) →
      o = some th ∧ p = .service th ∧ ∃ now, S.pc th = .handling t called now := by
  cases hd with
  | direct ha hcan hin hwait =>
      refine ⟨rfl, fun th hs => ?_⟩
      have hth := (htr.served th t _ hs).2 hin rfl
      have hnot : S.svc.deleteMustWait t th p = false := by
        cases harmed : (S.svc.timer t).armed with
        | true => exact hwait th harmed hth
        | false =>
            subst ha
            simpa [Action.awaited, Action.returns, State.timerValid, hin, harmed, hth] using hok
      have hself : p = .service th := by
        by_contra hne
        rw [(hm.mustWait hs p).mpr hne] at hnot
        cases hnot
      refine ⟨hth, hself, ?_⟩
      subst hself
      simp only [System.canCall, Bool.and_eq_true] at hcan
      cases hpc : S.pc th with
      | handling t' reg' now =>
          obtain ⟨rfl, rfl⟩ : t' = t ∧ reg' = (S.svc.timer t).event.reg := by
            simpa [hpc, ServicePc.serving] using hs
          exact ⟨now, rfl⟩
      | _ => simp [hpc] at hcan
  | @resumed th₀ reg ha hcall hwait =>
      obtain ⟨hne, -, honly⟩ := htr.waits p t th₀ called hcall
      refine ⟨?_, fun th hs => ?_⟩
      · subst ha
        have hreg : (S.svc.timer t).event.reg = called := by
          simpa [Action.awaited, Action.returns, hcall, hwait] using hok
        exact hreg.symm
      · -- the thread waited for is still at it, so the wait would not be over
        obtain rfl := honly th hs
        rw [(hm.mustWait hs p).mpr hne] at hwait
        cases hwait

theorem System.Tracked.owns_queued {S : System} (htr : S.Tracked) (h : S.svc.Wf) {th : ThreadId} {t : TimerId}
    (ht : t ∈ S.svc.queue th) : S.svc.Owns t (S.svc.timer t).event.reg th :=
  ⟨htr.numbered.fresh t, fun _ _ => (h.queued th t ht).2.2.1⟩

theorem Trans.tracked {S S' : System} {a : Action} {ev : List Event} (h : S.Inv) (hm : S.Manned)
    (htr : S.Tracked) (hok : a.awaited S = true) (ht : Trans S a S' ev) : S'.Tracked := by
  have heffect := ht.effect h
  have hrenewal := heffect.renewal
  refine ⟨hrenewal.numbered htr.numbered, fun th t reg hs => ?_, fun th t reg now hpc => ?_,
    fun p t th reg hcall => ?_⟩
  · rcases ht.serving hs with ⟨hold, -⟩ | ⟨hmem, rfl, -⟩
    · exact hrenewal.owns (htr.served th t reg hold)
    · exact hrenewal.owns (htr.owns_queued h.wf hmem)
  · -- the event of a timer about to be announced to its handler is not taken away
    have hs : (S'.pc th).serving = some (t, reg) := by simp [hpc, ServicePc.serving]
    rcases ht.serving hs with ⟨hserving, hold⟩ | ⟨hmem, rfl, rfl⟩
    · have hexp := hold now hpc
      obtain ⟨hin, rfl⟩ := htr.live th t reg now hexp
      obtain ⟨hevent, hin' | ⟨p, o, called, acted, hdel⟩⟩ := heffect.keeps hin
      · exact ⟨hin', by rw [hevent]⟩
      · obtain ⟨rfl, hself⟩ := (ht.deletes hdel).served hm htr hok
        obtain ⟨-, -, now', hhandling⟩ := hself th hserving
        rw [hexp] at hhandling
        cases hhandling
    · obtain ⟨hevent, hin' | ⟨p, o, called, acted, hdel⟩⟩ := heffect.keeps (h.wf.queued th t hmem).1
      · exact ⟨hin', by rw [hevent]⟩
      · simp at hdel
  · rcases ht.deleting hcall with hold | ⟨hsvc, hpc, hin, hth, hwait, rfl⟩
    · obtain ⟨hne, howns, honly⟩ := htr.waits p t th reg hold
      refine ⟨hne, hrenewal.owns howns, fun th' hs => ?_⟩
      rcases ht.serving hs with ⟨hold', -⟩ | ⟨hmem, rfl, -⟩
      · exact honly th' hold'
      · obtain ⟨hin, -, hth', -⟩ := h.wf.queued th' t hmem
        exact Option.some.inj (hth'.symm.trans (howns.2 hin rfl))
    · obtain ⟨x, hactive, hx⟩ := h.wf.placed t hin
      obtain rfl : th = x := Option.some.inj (hth.symm.trans hx)
      rw [hsvc, hpc]
      refine ⟨fun hself => ?_, ⟨htr.numbered.fresh t, fun _ _ => hth⟩, fun th' hs => ?_⟩
      · simp [State.deleteMustWait, hself, hm.id th hactive] at hwait
      · exact Option.some.inj (((htr.served th' t _ hs).2 hin rfl).symm.trans hth)

structure System.Sound (S : System) : Prop where
  inv : S.Inv
  alive : S.svc.Alive
  manned : S.Manned
  tracked : S.Tracked

theorem awaited_returns {S : System} {a : Action} (hok : a.awaited S = true) : a.returns = true := by
  simp only [Action.awaited, Bool.and_eq_true] at hok
  exact hok.1

theorem System.Sound.trans {S S' : System} {a : Action} {ev : List Event} (h : S.Sound)
    (hok : a.awaited S = true) (hstep : S.step a = some (S', ev)) : Trans S a S' ev :=
  step_trans h.inv (h.alive.safe (awaited_returns hok)) (awaited_returns hok) hstep

theorem System.Sound.step {S S' : System} {a : Action} {ev : List Event} (h : S.Sound)
    (hok : a.awaited S = true) (hstep : S.step a = some (S', ev)) : S'.Sound := by
  have ht := h.trans hok hstep
  exact ⟨ht.inv h.inv, ht.alive h.inv h.alive, ht.manned h.inv h.alive h.manned,
    ht.tracked h.inv h.manned h.tracked hok⟩

theorem init_sound : System.init.Sound where
  inv := init_inv
  alive := fun _ hx => by cases hx
  manned := ⟨fun _ hth => absurd rfl hth, fun _ hx => (by cases hx), fun _ _ _ hs => (by cases hs)⟩
  tracked := ⟨initModule_numbered, fun _ _ _ hs => (by cases hs), fun _ _ _ _ hpc => (by cases hpc),
    fun _ _ _ _ hc => (by cases hc)⟩

theorem Trans.invoked {S S' : System} {a : Action} {ev : List Event} (ht : Trans S a S' ev) {th : ThreadId}
    {event : Sigevent} (hmem : .invoked th event ∈ ev) :
    ∃ t reg now, S.pc th = .expiring t reg now ∧ event = (S.svc.timer t).event := by
  have hserved {T : System} {x : ThreadId} {now : ClockReading} (hs : Served T x now (S', ev)) : False := by
    cases hs <;> simp at hmem
  cases ht with
  | quiet _ _ hev =>
      obtain ⟨r, hr⟩ := hev _ hmem
      cases hr
  | data _ _ _ hev =>
      obtain ⟨r, hr⟩ := hev _ hmem
      cases hr
  | created => simp at hmem
  | notCreated => simp at hmem
  | settime =>
      simp only [System.settimeDone] at hmem
      split at hmem <;> split at hmem <;> simp at hmem
  | delete => simp at hmem
  | wakeup => simp at hmem
  | look _ hs => exact (hserved hs).elim
  | @invoke x t reg now hpc =>
      obtain ⟨rfl, rfl⟩ : th = x ∧ event = (S.svc.timer t).event := by simpa using hmem
      exact ⟨t, reg, now, hpc, rfl⟩
  | finish _ _ hs => exact (hserved hs).elim
  | wake => simp at hmem

/-- The handler of a dead registration is never run. -/
theorem System.Sound.never_invoked {S S' : System} {tr : List Event} {reg : Nat} (h : S.Sound)
    (hdead : S.svc.Dead reg) (hrun : Steps service (fun S a => a.awaited S = true) S tr S') :
    ∀ th event, .invoked th event ∈ tr → event.reg ≠ reg := by
  have hnever : ∀ e ∈ tr, ¬ ∃ th event, e = Event.invoked th event ∧ event.reg = reg := by
    refine hrun.never (I := fun S => S.Sound ∧ S.svc.Dead reg) ?_ ⟨h, hdead⟩
    rintro S a S' ev ⟨hsound, hdead⟩ hok hstep
    have ht := hsound.trans hok hstep
    refine ⟨⟨hsound.step hok hstep, (ht.effect hsound.inv).renewal.dead hdead⟩, ?_⟩
    rintro e he ⟨th, event, rfl, hreg⟩
    obtain ⟨t, reg', now, hpc, rfl⟩ := ht.invoked he
    exact hdead.2 t hreg (hsound.tracked.live th t reg' now hpc).1
  exact fun th event hmem hreg => hnever _ hmem ⟨th, event, rfl, hreg⟩

/-- In every run under the guard: when a delete called by another thread than the timer's service
thread has returned 0, no thread is serving the registration it was called on, and the handler of
that registration is never run again. -/
theorem delete_ends_timer {tr tr' ev : List Event} {S S' S'' : System} {a : Action} {p : Pthread} {t : TimerId}
    {o : Option ThreadId} {called acted : Nat}
    (h : Steps service (fun S a => a.awaited S = true) service.init tr S) (hok : a.awaited S = true)
    (hstep : S.step a = some (S', ev)) (hdel : .deleted p t o called acted ∈ ev)
    (hp : ∀ th, o = some th → p ≠ .service th)
    (h' : Steps service (fun S a => a.awaited S = true) S' tr' S'') :
    (∀ th, (S'.pc th).serving ≠ some (t, called)) ∧ ∀ th event, .invoked th event ∈ tr' → event.reg ≠ called := by
  have hsound : S.Sound := h.invariant (fun _ _ _ _ hs hok hstep => hs.step hok hstep) init_sound
  have ht := hsound.trans hok hstep
  have heffect := ht.effect hsound.inv
  obtain ⟨rfl, hserved⟩ := (ht.deletes hdel).served hsound.manned hsound.tracked hok
  refine ⟨fun th hs => ?_, ?_⟩
  · rcases ht.serving hs with ⟨hold, -⟩ | ⟨-, -, rfl⟩
    · obtain ⟨hth, hself, -⟩ := hserved th hold
      exact hp th hth hself
    · simp at hdel
  · obtain ⟨hout, hevent⟩ := heffect.deleted hdel
    have hdead : S'.svc.Dead (S.svc.timer t).event.reg :=
      hevent ▸ (hsound.step hok hstep).tracked.numbered.dead hout
    exact (hsound.step hok hstep).never_invoked hdead h'

/-- A one-shot timer is stopped by a client after it was popped. -/
def stoppedWhileServed : List Action :=
  addSteps 0 timerOneshot 30 0 ++ [.look 0 (atSec 2), .stop (.client 1) (some 0) (atSec 2)]

/-- The same client then deletes it. The delete returns 0 at once, while the service thread is
about to run the handler, and the handler is run. -/
theorem stoppedWhileServed_delete : ∃ tr S S' ev tr' S'',
    Steps service Returns service.init tr S ∧
    S.step (.del (.client 1) (some 0)) = some (S', ev) ∧
    .deleted (.client 1) 0 (some 0) 1 1 ∈ ev ∧ .returned (.client 1) (.code 0) ∈ ev ∧
    Steps service Returns S' tr' S'' ∧
    (S'.pc 0).serving = some (0, 1) ∧ ∃ event, .invoked 0 event ∈ tr' ∧ event.reg = 1 := by
  obtain ⟨S, tr, hrun, htest⟩ := exists_steps_of_exec (m := service) (s := service.init) stoppedWhileServed
    (p := fun r => (r.1.step (.del (.client 1) (some 0))).any fun (r' : System × List Event) =>
      decide (r'.2 = [.deleted (.client 1) 0 (some 0) 1 1, .returned (.client 1) (.code 0)]) &&
      decide ((r'.1.pc 0).serving = some (0, 1)) &&
      (service.exec Returns r'.1 [.invoke 0]).any fun (r'' : System × List Event) => decide (r''.2 = [.invoked 0 ⟨1, 0, 1⟩]))
    (show (service.exec Returns _ _).any _ = true by decide +kernel)
  obtain ⟨⟨S', ev⟩, hstep, htest'⟩ := (Option.any_eq_true _ _).mp htest
  simp only [Bool.and_eq_true, decide_eq_true_eq] at htest'
  obtain ⟨⟨rfl, hserving⟩, hafter⟩ := htest'
  obtain ⟨S'', tr', hrun', hinvoked⟩ := exists_steps_of_exec _ hafter
  refine ⟨tr, S, S', _, tr', S'', hrun, hstep, by simp, by simp, hrun', hserving, ⟨1, 0, 1⟩, ?_, rfl⟩
  obtain rfl : tr' = [.invoked 0 ⟨1, 0, 1⟩] := decide_eq_true_eq.mp hinvoked
  exact .head _

/-- A delete that waits for the handler ends the timer. -/
theorem delete_ends_timer_waited : ∃ tr S S' ev tr' S'',
    Steps service (fun S a => a.awaited S = true) service.init tr S ∧
    S.step (.delWake (.client 1)) = some (S', ev) ∧
    .deleted (.client 1) 0 (some 0) 1 1 ∈ ev ∧
    Steps service (fun S a => a.awaited S = true) S' tr' S'' ∧
    (∀ th, (S'.pc th).serving ≠ some (0, 1)) ∧ ∀ th event, .invoked th event ∈ tr' → event.reg ≠ 1 := by
  obtain ⟨S, tr, hrun, htest⟩ := exists_steps_of_exec (m := service) (s := service.init)
    (addSteps 0 timerOneshot 30 0 ++
      [.look 0 (atSec 2), .del (.client 1) (some 0), .delWake (.client 1), .invoke 0, .finish 0])
    (p := fun r => decide ((Action.delWake (.client 1)).awaited r.1 = true) &&
      (r.1.step (.delWake (.client 1))).any fun (r' : System × List Event) =>
        decide (r'.2 = [.deleted (.client 1) 0 (some 0) 1 1, .returned (.client 1) (.code 0)]) &&
        (service.exec (fun S a => a.awaited S = true) r'.1
          (addSteps 2 timerOneshot 30 3 ++ [.look 0 (atSec 9), .invoke 0])).any fun _ => true)
    (show (service.exec (fun S a => a.awaited S = true) _ _).any _ = true by decide +kernel)
  simp only [Bool.and_eq_true, decide_eq_true_eq] at htest
  obtain ⟨hok, htest⟩ := htest
  obtain ⟨⟨S', ev⟩, hstep, htest'⟩ := (Option.any_eq_true _ _).mp htest
  simp only [Bool.and_eq_true, decide_eq_true_eq] at htest'
  obtain ⟨rfl, hafter⟩ := htest'
  obtain ⟨S'', tr', hrun', -⟩ := exists_steps_of_exec _ hafter
  exact ⟨tr, S, S', _, tr', S'', hrun, hstep, .head _, hrun',
    delete_ends_timer hrun hok hstep (.head _) (by simp) hrun'⟩

end Pc02.Timer

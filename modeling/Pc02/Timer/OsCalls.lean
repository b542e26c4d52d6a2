import Pc02.Timer.Capacity
import Pc02.Timer.Refinement

/-!
# Calls of the timer service by one thread

What a thread sees of its own call while all others run: the call stays where it is until the thread takes the
next section, a call on a timer in use does not fail, and `os_timer_add` does not fail once it has a timer.
The slots in use change by the first section of `os_timer_add` and by the last of `os_timer_del` only.
-/

namespace Pc02.Timer

open Function

inductive OsCall
  | start
  | stop
  | settime (millisec : Int)
  | del
deriving DecidableEq, Repr

def OsCall.action (c : OsCall) (p : Pthread) (timerid : TimerId) (now : ClockReading) : Action :=
  match c with
  | .start => .start p (some timerid)
  | .stop => .stop p (some timerid) now
  | .settime millisec => .settime p (some timerid) millisec
  | .del => .del p (some timerid)

/-! ### The slots -/

def System.InUse (S : System) (t : TimerId) : Prop := (S.svc.timer t).inuse = .inuse

def Released (ev : List Event) (t : TimerId) : Prop := ∃ p o called acted, Event.deleted p t o called acted ∈ ev

/-- A slot is in use from the first section of `os_timer_add` until it is released. -/
theorem Trans.slots {S S' : System} {a : Action} {ev : List Event} (h : S.Inv) (ht : Trans S a S' ev) :
    (∀ t, S'.InUse t ↔ S.InUse t ∧ ¬ Released ev t) ∨
      ∃ p args t, S.call p = .idle ∧ S'.call p = .adding args t ∧ ¬ S.InUse t ∧ ∀ u, S'.InUse u ↔ S.InUse u ∨ u = t := by
  have hplain (hev : ∀ e ∈ ev, e.plain = true) (t : TimerId) : ¬ Released ev t := by
    rintro ⟨p, o, called, acted, hmem⟩
    cases hev _ hmem
  -- one slot is touched, and it is as it was
  have hsame {u : TimerId} (same : ∀ t, t ≠ u → SameTimer S.svc S'.svc t) (hu : S'.InUse u ↔ S.InUse u) (t : TimerId) :
      S'.InUse t ↔ S.InUse t := by
    by_cases htu : t = u
    · exact htu ▸ hu
    · rw [System.InUse, (same t htu).inuse, System.InUse]
  have hquiet (hiff : ∀ t, S'.InUse t ↔ S.InUse t) (hnone : ∀ t, ¬ Released ev t) (t : TimerId) :
      S'.InUse t ↔ S.InUse t ∧ ¬ Released ev t := by
    simp [hiff t, hnone t]
  cases ht.effect h with
  | none same _ plain =>
      exact .inl (hquiet (fun t => by rw [System.InUse, (same t).inuse, System.InUse]) (hplain plain))
  | fail u same wasFree isFree _ _ plain =>
      exact .inl (hquiet (hsame same (by simp [System.InUse, wasFree, isFree])) (hplain plain))
  | arm u th same wasInuse isInuse _ _ _ _ _ _ plain =>
      refine .inl (hquiet (hsame same (by simp [System.InUse, wasInuse, isInuse])) ?_)
      rintro t ⟨p, o, called, acted, hmem⟩
      rcases plain _ hmem with hev | hev <;> cases hev
  | stop u same wasInuse isInuse _ _ _ _ plain =>
      exact .inl (hquiet (hsame same (by simp [System.InUse, wasInuse, isInuse])) (hplain plain))
  | refresh u same wasFree isFree _ _ plain =>
      exact .inl (hquiet (hsame same (by simp [System.InUse, wasFree, isFree])) (hplain plain))
  | pop u th same _ inuse _ _ _ _ events =>
      refine .inl (hquiet (hsame same (by rw [System.InUse, inuse, System.InUse])) ?_)
      rintro t ⟨p, o, called, acted, hmem⟩
      simp [events] at hmem
  | release u p th called same wasInuse isFree _ _ events =>
      refine .inl fun t => ?_
      by_cases htu : t = u
      · subst htu
        simp [System.InUse, isFree, Released, events]
      · rw [System.InUse, (same t htu).inuse, System.InUse]
        simp [Released, events, htu]
  | lose u p th called same unused isDeleted _ _ events =>
      refine .inl fun t => ?_
      by_cases htu : t = u
      · subst htu
        simp [System.InUse, isDeleted, unused]
      · rw [System.InUse, (same t htu).inuse, System.InUse]
        simp [Released, events, htu]
  | create u th same wasFree isInuse _ _ _ next plain =>
      cases ht with
      | @created p args _ svc t _ hidle _ _ _ hc =>
          refine .inr ⟨p, args, u, hidle, ?_, by simp [System.InUse, wasFree], ?_⟩
          · -- the slot that came into use is the one the call got
            have htu : t = u := by
              by_contra htu
              have hfree : (S.svc.timer t).inuse = .inuse := (same t htu).inuse ▸ hc.inuse
              cases hc with
              | ok hlist => simp [(h.wf.freeIff t).mp (by simp [hlist])] at hfree
            simp [htu]
          · intro t
            by_cases htu : t = u
            · subst htu
              exact iff_of_true isInuse (.inr rfl)
            · rw [System.InUse, (same t htu).inuse, System.InUse]
              simp [htu]
      | notCreated _ _ _ hc =>
          rcases hc.kept_none h.wf u with hkept | hunused
          · have hfree : (S.svc.timer u).inuse = .inuse := hkept.node ▸ isInuse
            rw [wasFree] at hfree
            cases hfree
          · exact absurd isInuse hunused.2
      | settime _ _ hs =>
          rw [System.settimeDone_svc] at next
          cases hs <;> simp at next
      | delete _ hd => cases hd <;> simp at next
      | look _ hs => cases hs <;> simp [State.expireTimer_eq_move] at next
      | finish _ _ hs => cases hs <;> simp [State.expireTimer_eq_move, State.expireDone] at next
      | _ => simp at next

/-! ### A call of the service -/

def Silent (ev : List Event) : Prop := ∀ p ret, Event.returned p ret ∉ ev

def OsCall.code : OsCall → Int
  | .settime millisec => if millisec ≤ 0 then -1 else 0
  | _ => 0

/-- Where a thread can be that has to make the call, or is in it. -/
inductive OsCall.At (timerid : TimerId) : OsCall → Call → Prop
  | between {c : OsCall} : At timerid c .idle
  | starting {its : Itimerspec} : At timerid .start (.starting timerid its)
  | waking {c : OsCall} {th : ThreadId} : c = .start ∨ c = .stop → At timerid c (.waking th (.code 0))
  | deleting {th : ThreadId} {reg : Nat} : At timerid .del (.deleting timerid th reg)

def Call.newTimer : Call → Option TimerId
  | .adding _ t => some t
  | .addArming _ t => some t
  | .waking _ (.added t) => some t
  | _ => none

/-- A section either leaves the call in progress, or the call returns at its end; `gone` are the slots
that are then released. -/
inductive Answered (p : Pthread) (goesOn : Call → Prop) (ret : Ret) (gone : TimerId → Prop) (c : Call) (ev : List Event) :
    Prop
  | goesOn : Silent ev → (∀ u, ¬ Released ev u) → goesOn c → Answered p goesOn ret gone c ev
  | returns {pre : List Event} : Silent pre → ev = pre ++ [.returned p ret] → (∀ u, Released ev u ↔ gone u) →
      c = .idle → Answered p goesOn ret gone c ev

theorem silent_nil : Silent [] := by simp [Silent]

section Calls

variable {S S' : System} {p : Pthread} {t : TimerId} {a : Action} {ev : List Event}

theorem settimeDone_answered {r : State × Int × Option ThreadId} {ret : Ret} {goesOn : Call → Prop} {gone : TimerId → Prop}
    (hret : r.2.1 = 0) (hwaking : ∀ th, goesOn (.waking th ret)) (hgone : ∀ u, ¬ gone u) :
    Answered p goesOn ret gone ((S.settimeDone p t r ret).1.call p) (S.settimeDone p t r ret).2 := by
  have hsilent : Silent (if r.2.1 = 0 ∧ (r.1.timer t).armed then [Event.armed t (r.1.timer t).event.reg] else []) := by
    intro q ret
    split <;> simp
  have hnone (u : TimerId) (p : Pthread) (o : Option ThreadId) (called acted : Nat) : Event.deleted p u o called acted ∉
      (if r.2.1 = 0 ∧ (r.1.timer t).armed then [Event.armed t (r.1.timer t).event.reg] else []) := by
    split <;> simp
  simp only [System.settimeDone, if_pos hret]
  cases r.2.2 with
  | none =>
      refine .returns hsilent rfl (fun u => iff_of_false ?_ (hgone u)) (by simp)
      rintro ⟨q, o, called, acted, hmem⟩
      simp [hnone] at hmem
  | some th =>
      refine .goesOn hsilent ?_ (by simpa using hwaking th)
      rintro u ⟨q, o, called, acted, hmem⟩
      exact hnone u q o called acted hmem

theorem settime_inuse (h : S.Inv) (hin : S.InUse t) {its : Itimerspec} (hits : its.Ok) (abstime : Bool) (now : Timespec) :
    (S.svc.timerSettime (some t) abstime its now).2.1 = 0 := by
  have hs := State.timerSettime_settimed h.wf hits t abstime now
  generalize S.svc.timerSettime (some t) abstime its now = r at hs
  cases hs with
  | arm => rfl
  | stop => rfl
  | free hfree => cases hfree.symm.trans hin
  | lost hlost => cases hlost.symm.trans hin

theorem deleteDone_answered {o : Option ThreadId} {called : Nat} {goesOn : Call → Prop} {gone : TimerId → Prop}
    (hgone : ∀ u, gone u ↔ u = t) :
    Answered p goesOn (.code 0) gone ((S.deleteDone p t o called).1.call p) (S.deleteDone p t o called).2 := by
  have hsilent : Silent [.deleted p t o called (S.svc.timer t).event.reg] := by simp [Silent]
  refine .returns hsilent rfl ?_ (by simp [System.deleteDone])
  intro u
  simp [hgone u, Released, System.deleteDone, eq_comm]

theorem os_call_begins (h : S.Inv) (hin : S.InUse t) {c : OsCall} {now : ClockReading}
    (hstep : S.step (c.action p t now) = some (S', ev)) :
    Answered p (c.At t) (.code c.code) (fun u => c = .del ∧ u = t) (S'.call p) ev := by
  have hvalid : S.svc.timerValid t = true := decide_eq_true hin
  have hrun := h.wf.running
  cases c with
  | start =>
      simp only [OsCall.action, System.step, hrun, Bool.false_eq_true, if_false, State.osTimerStartRead, hvalid,
        if_true] at hstep
      split at hstep
      · cases hstep
        exact .goesOn silent_nil (by simp [Released]) (by simpa using .starting)
      · cases hstep
  | stop =>
      simp only [OsCall.action, System.step, hrun, Bool.false_eq_true, if_false] at hstep
      split at hstep
      · obtain ⟨rfl, rfl⟩ := Prod.mk.inj (Option.some.inj hstep)
        exact settimeDone_answered (settime_inuse h hin zeroItimerspec_ok _ _) (fun _ => .waking (.inr rfl)) (by simp)
      · cases hstep
  | settime millisec =>
      simp only [OsCall.action, System.step, hrun, Bool.false_eq_true, if_false, State.osTimerSettime, hvalid,
        if_true] at hstep
      split at hstep
      · rename_i hp
        have hidle := canCall_idle hp
        cases hstep
        refine .returns silent_nil ?_ (by simp [Released]) hidle
        simp only [OsCall.code, List.nil_append]
        split <;> rfl
      · cases hstep
  | del =>
      simp only [OsCall.action, System.step, hrun, Bool.false_eq_true, if_false, hvalid, if_true] at hstep
      split at hstep
      · have hdone {o : Option ThreadId} (hres : some (S.deleteDone p t o (S.svc.timer t).event.reg) = some (S', ev)) :
            Answered p (OsCall.del.At t) (.code 0) (fun u => OsCall.del = .del ∧ u = t) (S'.call p) ev := by
          obtain ⟨rfl, rfl⟩ := Prod.mk.inj (Option.some.inj hres)
          exact deleteDone_answered (by simp)
        split at hstep
        · split at hstep
          · cases hstep
            exact .goesOn silent_nil (by simp [Released]) (by simpa using .deleting)
          · exact hdone hstep
        · exact hdone hstep
      · cases hstep

inductive Action.Continues (p : Pthread) : Action → Prop
  | addInit : Continues p (.addInit p)
  | addArm (now : ClockReading) : Continues p (.addArm p now)
  | startArm (now : ClockReading) : Continues p (.startArm p now)
  | delWake : Continues p (.delWake p)
  | wakeup : Continues p (.wakeup p)

def Action.begins : Action → Bool
  | .add .. => true
  | .start .. => true
  | .stop .. => true
  | .settime .. => true
  | .del .. => true
  | _ => false

theorem continues_of_caller (hcaller : a.caller = some p) (hbegins : a.begins = false) : a.Continues p := by
  cases a with
  | addInit => cases hcaller; exact .addInit
  | addArm => cases hcaller; exact .addArm _
  | startArm => cases hcaller; exact .startArm _
  | delWake => cases hcaller; exact .delWake
  | wakeup => cases hcaller; exact .wakeup
  | _ => simp [Action.caller, Action.begins] at hcaller hbegins

theorem os_call_continues (h : S.Inv) (hin : S.InUse t) {c : OsCall} (hat : c.At t (S.call p)) (ha : a.Continues p)
    (hstep : S.step a = some (S', ev)) :
    Answered p (c.At t) (.code c.code) (fun u => c = .del ∧ u = t) (S'.call p) ev := by
  have hcalls := h.calls p
  generalize hcall : S.call p = call at hat hcalls
  cases ha with
  | addInit =>
      cases step_stepped hstep with
      | addInitFailed hp => cases hcall.symm.trans hp; cases hat
      | addInit hp => cases hcall.symm.trans hp; cases hat
  | addArm =>
      cases step_stepped hstep with
      | addArm hp => cases hcall.symm.trans hp; cases hat
  | startArm =>
      cases step_stepped hstep with
      | startArm hp =>
          cases hcall.symm.trans hp
          cases hat with
          | starting => exact settimeDone_answered (settime_inuse h hin hcalls _ _) (fun _ => .waking (.inl rfl)) (by simp)
  | delWake =>
      cases step_stepped hstep with
      | delStillWaits hp =>
          rw [hcall]
          exact .goesOn silent_nil (by simp [Released]) hat
      | delWake hp =>
          cases hcall.symm.trans hp
          cases hat with
          | deleting => exact deleteDone_answered (by simp)
  | wakeup =>
      cases step_stepped hstep with
      | wakeup hp =>
          cases hcall.symm.trans hp
          cases hat with
          | waking hc =>
              refine .returns silent_nil ?_ ?_ (by simp)
              · rcases hc with rfl | rfl <;> rfl
              · rcases hc with rfl | rfl <;> simp [Released]

theorem create_begins (h : S.Inv) (halive : S.svc.Alive) {args : AddArgs} {created : Bool}
    (hstep : S.step (.add p args created) = some (S', ev)) :
    (ev = [.returned p (.code (-1))] ∧ S'.call = S.call ∧ S.call p = .idle) ∨
      (ev = [] ∧ ∃ t, S'.call p = .adding args t ∧ ¬ S.InUse t ∧ S'.InUse t) := by
  have hc := State.osTimerAddCreate_created h.wf (halive.createSafe args.attr .monotonic created)
  cases step_stepped hstep with
  | addRefused hp => exact .inl ⟨rfl, rfl, canCall_idle hp⟩
  | addFailed hp => exact .inl ⟨rfl, rfl, canCall_idle hp⟩
  | @add _ _ _ _ t _ _ hres =>
      rw [hres] at hc
      refine .inr ⟨rfl, t, by simp, ?_, hc.inuse⟩
      cases hc with
      | ok hlist => simp [System.InUse, (h.wf.freeIff t).mp (by simp [hlist])]

/-- Once it has a timer `os_timer_add` succeeds. -/
theorem create_continues (h : S.Inv) (hnew : (S.call p).newTimer = some t) (hin : S.InUse t) (ha : a.Continues p)
    (hstep : S.step a = some (S', ev)) :
    Answered p (fun c => c.newTimer = some t) (.added t) (fun _ => False) (S'.call p) ev := by
  have hcalls := h.calls p
  generalize hcall : S.call p = call at hnew hcalls
  cases ha with
  | addInit =>
      cases step_stepped hstep with
      | addInitFailed hp =>
          cases hcall.symm.trans hp
          cases hnew
          simp [addInit_step h hp hin] at hstep
      | addInit hp =>
          cases hcall.symm.trans hp
          cases hnew
          exact .goesOn silent_nil (by simp [Released]) (by simp [Call.newTimer])
  | addArm =>
      cases step_stepped hstep with
      | addArm hp =>
          cases hcall.symm.trans hp
          cases hnew
          exact settimeDone_answered (settime_inuse h hin (AddArgs.its_ok hcalls) _ _) (fun _ => rfl) (by simp)
  | startArm =>
      cases step_stepped hstep with
      | startArm hp => cases hcall.symm.trans hp; cases hnew
  | delWake =>
      cases step_stepped hstep with
      | delStillWaits hp => cases hcall.symm.trans hp; cases hnew
      | delWake hp => cases hcall.symm.trans hp; cases hnew
  | wakeup =>
      cases step_stepped hstep with
      | @wakeup _ _ ret hp =>
          cases hcall.symm.trans hp
          cases ret with
          | added u =>
              cases hnew
              exact .returns silent_nil rfl (by simp [Released]) (by simp)
          | code => cases hnew

theorem service_silent (hret : a.returns = true) (hcaller : a.caller = none) (hstep : S.step a = some (S', ev)) :
    Silent ev ∧ ∀ u, ¬ Released ev u := by
  have hserved {S : System} {th : ThreadId} {now : ClockReading} :
      Silent (S.serve th now).2 ∧ ∀ u, ¬ Released (S.serve th now).2 u := by
    have hs := serve_served S th now
    generalize S.serve th now = r at hs
    cases hs <;> simp [Silent, Released]
  cases step_stepped hstep with
  | look => exact hserved
  | finish => exact hserved
  | invoke => simp [Silent, Released]
  | wake => simp [Silent, Released]
  | exit => cases hret
  | _ => cases hcaller

end Calls

end Pc02.Timer

import Pc02.Lib.Waiting
import Pc02.Timer.Service
import Pc02.Timer.FailedAdd
import Pc02.Timer.Firing

/-!
# Calls that return, and calls that never do

The only section that waits for another thread is the delete of a timer whose handler is running. A
handler that deletes is itself what others wait for, so deletes may wait for each other. A pending call
can return, with nobody starting another, exactly if its waits do not lead to a circle; on a circle every
handler stays where it is for good, and the timers of its thread never expire again.
-/

namespace Pc02.Timer

open Function Machines

/-- The thread whose handler the call of `p` waits for. -/
def System.waitsFor (S : System) (p : Pthread) : Option ThreadId :=
  match S.call p with
  | .deleting t th _ => if S.svc.deleteMustWait t th p then some th else none
  | _ => none

def System.Waits (S : System) (th th' : ThreadId) : Prop := S.waitsFor (.service th) = some th'

def System.Deadlocked (S : System) (p : Pthread) : Prop := ∃ th, S.waitsFor p = some th ∧ Lib.Circular S.Waits th

/-- Pending calls and passes go on, and no call begins. -/
def Action.finishing : Action → Bool
  | .addInit _ => true
  | .addArm .. => true
  | .startArm .. => true
  | .delWake _ => true
  | .wakeup _ => true
  | .look .. => true
  | .invoke _ => true
  | .finish _ => true
  | .wake _ => true
  | _ => false

abbrev Finishing : System → Action → Prop := fun _ a => a.finishing = true

theorem Action.finishing_returns {a : Action} (h : a.finishing = true) : a.returns = true := by
  cases a <;> simp_all [Action.finishing, Action.returns]

theorem waitsFor_eq_some {S : System} {p : Pthread} {th : ThreadId} (h : S.waitsFor p = some th) :
    ∃ t reg, S.call p = .deleting t th reg ∧ S.svc.deleteMustWait t th p = true := by
  simp only [System.waitsFor] at h
  split at h
  · rename_i t x reg hcall
    split at h
    · rename_i hwait
      obtain rfl : x = th := Option.some.inj h
      exact ⟨t, reg, hcall, hwait⟩
    · cases h
  · cases h

/-! ### What a running handler leaves announced -/

/-- A node announces a timer only while its thread serves it. -/
def System.Announces (S : System) : Prop :=
  ∀ th t, (S.svc.thread th).currentTimer = some t → ∃ reg, (S.pc th).serving = some (t, reg)

theorem System.Announces.unserved {S : System} (h : S.Announces) {th : ThreadId} (hs : (S.pc th).serving = none) :
    (S.svc.thread th).currentTimer = none := by
  cases hcur : (S.svc.thread th).currentTimer with
  | none => rfl
  | some t =>
      obtain ⟨reg, hserving⟩ := h th t hcur
      rw [hs] at hserving
      cases hserving

theorem System.Announces.same {S S' : System} (h : S.Announces)
    (hcur : ∀ x, (S'.svc.thread x).currentTimer = (S.svc.thread x).currentTimer) (hpc : S'.pc = S.pc) :
    S'.Announces := by
  intro th t ht
  rw [hcur] at ht
  rw [hpc]
  exact h th t ht

theorem System.Announces.change {S S' : System} {x : ThreadId} (h : S.Announces)
    (hcur : ∀ th, th ≠ x → (S'.svc.thread th).currentTimer = (S.svc.thread th).currentTimer)
    (hpc : ∀ th, th ≠ x → S'.pc th = S.pc th)
    (hx : ∀ t, (S'.svc.thread x).currentTimer = some t → ∃ reg, (S'.pc x).serving = some (t, reg)) : S'.Announces := by
  intro th t ht
  by_cases hth : th = x
  · subst hth
    exact hx t ht
  · rw [hcur th hth] at ht
    rw [hpc th hth]
    exact h th t ht

theorem Served.announces {S S' : System} {x : ThreadId} {now : ClockReading} {ev : List Event} (h : S.Announces)
    (hnone : (S.svc.thread x).currentTimer = none) (hs : Served S x now (S', ev)) : S'.Announces := by
  cases hs with
  | empty => exact h.change (x := x) (fun _ _ => rfl) (fun th hth => by simp [hth]) (by simp [hnone])
  | early => exact h.change (x := x) (fun _ _ => rfl) (fun th hth => by simp [hth]) (by simp [hnone])
  | @due u rest hq hdue =>
      refine h.change (x := x) (fun th hth => ?_) (fun th hth => by simp [hth]) fun t ht => ?_
      · simp only [System.setPc_svc]
        rw [State.expireTimer_eq_move]
        simp [hth]
      · simp only [System.setPc_svc] at ht
        rw [State.expireTimer_eq_move] at ht
        obtain rfl : u = t := by simpa using ht
        exact ⟨(S.svc.timer u).event.reg, by simp [ServicePc.serving]⟩

theorem System.Announces.spawn {S : System} {svc : State} (h : S.Announces) (hm : S.Manned) (ha : S.svc.Alive)
    (hr : Recruited S.svc svc) : (S.spawn svc).Announces := by
  intro th t ht
  have hbefore : (S.svc.thread th).currentTimer = some t := by
    cases hcur : (S.svc.thread th).currentTimer with
    | none =>
        have hnone : (svc.thread th).currentTimer = none := hr.idle th hcur
        rw [System.spawn_svc, hnone] at ht
        cases ht
    | some u =>
        obtain ⟨reg, hs⟩ := h th u hcur
        have hkept := (hr.kept th (hm.active_of_serving hs)).2.2.2
        rw [System.spawn_svc, hkept, hcur] at ht
        exact ht
  obtain ⟨reg, hs⟩ := h th t hbefore
  have hexists := ha th (hm.active_of_serving hs)
  refine ⟨reg, ?_⟩
  simpa [System.spawn, hexists] using hs

theorem Trans.announces {S S' : System} {a : Action} {ev : List Event} (hinv : S.Inv) (ha : S.svc.Alive) (hm : S.Manned)
    (h : S.Announces) (ht : Trans S a S' ev) : S'.Announces := by
  cases ht with
  | quiet => exact h.same (fun _ => rfl) rfl
  | data => exact h.same (fun _ => rfl) rfl
  | created _ _ _ _ hc => exact (h.spawn hm ha (hc.recruited hinv.wf ha)).same (fun _ => rfl) rfl
  | notCreated _ _ _ hc => exact h.spawn hm ha (hc.recruited hinv.wf ha)
  | settime _ _ hs => exact h.same (by simpa using hs.sameThreads.currentTimer) (by simp)
  | delete _ hsvc => exact h.same hsvc.sameThreads.currentTimer rfl
  | @wakeup p x ret hcall =>
      refine System.Announces.same (S := S.broadcast x) ?_ (fun _ => rfl) rfl
      simp only [System.broadcast]
      split
      · rename_i hblocked
        have hnone : (S.svc.thread x).currentTimer = none := h.unserved (by simp [hblocked, ServicePc.serving])
        exact h.change (x := x) (fun _ _ => rfl) (fun th hth => by simp [hth]) (by simp [hnone])
      · exact h
  | look hpc hs => exact hs.announces h (h.unserved (by simp [hpc, ServicePc.serving]))
  | @invoke x t reg now hpc =>
      refine h.change (x := x) (fun _ _ => rfl) (fun th hth => by simp [hth]) fun u hu => ?_
      obtain ⟨r, hs⟩ := h x u hu
      exact ⟨r, by simpa [hpc, ServicePc.serving] using hs⟩
  | @finish x t reg now S' ev hpc hcall hs =>
      refine hs.announces ?_ (by simp [State.expireDone])
      refine h.change (x := x) (fun th hth => ?_) (fun _ _ => rfl) ?_
      · simp [State.expireDone, hth]
      · simp [State.expireDone]
  | @wake x deadline hpc =>
      have hnone : (S.svc.thread x).currentTimer = none := h.unserved (by simp [hpc, ServicePc.serving])
      exact h.change (x := x) (fun _ _ => rfl) (fun th hth => by simp [hth]) (by simp [hnone])

def System.Calling (S : System) : Prop :=
  ∀ th, S.call (.service th) ≠ .idle → ∃ t reg now, S.pc th = .handling t reg now

theorem canCall_handling {S : System} {th : ThreadId} (h : S.canCall (.service th) = true) :
    ∃ t reg now, S.pc th = .handling t reg now := by
  simp only [System.canCall, Bool.and_eq_true] at h
  cases hpc : S.pc th with
  | handling t reg now => exact ⟨t, reg, now, rfl⟩
  | _ => simp [hpc] at h

theorem handling_step {S S' : System} {a : Action} {ev : List Event} {th : ThreadId} {t : TimerId} {reg : Nat}
    {now : ClockReading} (ha : S.svc.Alive) (hm : S.Manned) (hret : a.returns = true) (hstep : S.step a = some (S', ev))
    (hpc : S.pc th = .handling t reg now) : S'.pc th = .handling t reg now ∨ a = .finish th := by
  have hexists := ha th (hm.active th (by simp [hpc]))
  have hspawn (svc : State) : (S.spawn svc).pc th = .handling t reg now := by simp [System.spawn, hexists, hpc]
  have hset {x : ThreadId} (c : ServicePc) (hx : S.pc x ≠ .handling t reg now) :
      update S.pc x c th = .handling t reg now := by
    have hne : th ≠ x := by
      rintro rfl
      exact hx hpc
    rw [update_of_ne hne, hpc]
  have hserved {S₀ S₁ : System} {x : ThreadId} {now' : ClockReading} {ev : List Event} (hne : th ≠ x)
      (hs : Served S₀ x now' (S₁, ev)) (hS₀ : S₀.pc = S.pc) : S₁.pc th = .handling t reg now := by
    cases hs <;> simp [hne, hS₀, hpc]
  cases step_stepped hstep with
  | addFailed => exact .inl (hspawn _)
  | add => exact .inl (hspawn _)
  | addRefused | addInitFailed | addInit | startRefused | start | stopRefused | settimeRefused | settime | delRefused
  | delWaits | del | delStillWaits | delWake => exact .inl hpc
  | addArm | startArm | stop => exact .inl (by simp [hpc])
  | @wakeup p x ret hcall =>
      simp only [System.setCall_pc, System.broadcast]
      split
      · rename_i hblocked
        exact .inl (hset _ (by simp [hblocked]))
      · exact .inl hpc
  | @look x now' hready =>
      refine .inl (hserved ?_ (serve_served S x now') rfl)
      rintro rfl
      simp [hready] at hpc
  | @invoke x u r now' hexp => exact .inl (hset _ (by simp [hexp]))
  | @finish x u r now' hhand hidle =>
      by_cases hx : th = x
      · exact .inr (by rw [hx])
      · exact .inl (hserved hx (serve_served { S with svc := S.svc.expireDone x } x now') rfl)
  | wake hblocked => exact .inl (hset _ (by simp [hblocked]))
  | exit => cases hret

theorem calling_step {S S' : System} {a : Action} {ev : List Event} (ha : S.svc.Alive) (hm : S.Manned)
    (h : S.Calling) (hret : a.returns = true) (hstep : S.step a = some (S', ev)) : S'.Calling := by
  intro th hcall
  have hbefore : ∃ t reg now, S.pc th = .handling t reg now := by
    by_cases hidle : S.call (.service th) = .idle
    · -- the thread begins a call, which it does from a handler only
      have hcaller : a.caller = some (.service th) := by
        by_contra hne
        rw [step_other hret hne hstep] at hcall
        exact hcall hidle
      cases step_stepped hstep with
      | addRefused hp | addFailed hp | add hp | startRefused hp | start hp | stopRefused hp | stop hp
      | settimeRefused hp | settime hp | delRefused hp | delWaits hp | del hp =>
          obtain rfl := Option.some.inj hcaller
          exact canCall_handling hp
      | addInitFailed hc | addInit hc | addArm hc | startArm hc | delStillWaits hc | delWake hc | wakeup hc =>
          obtain rfl := Option.some.inj hcaller
          rw [hc] at hidle
          cases hidle
      | look | invoke | finish | wake | exit => cases hcaller
    · exact h th hidle
  obtain ⟨t, reg, now, hpc⟩ := hbefore
  rcases handling_step ha hm hret hstep hpc with hpc' | rfl
  · exact ⟨t, reg, now, hpc'⟩
  · rw [step_other hret (by simp [Action.caller]) hstep] at hcall
    cases step_stepped hstep with
    | finish _ hidle => exact absurd hidle hcall

structure System.Orderly (S : System) : Prop where
  inv : S.Inv
  alive : S.svc.Alive
  manned : S.Manned
  announces : S.Announces
  calling : S.Calling
  slots : S.SlotsOk

theorem System.Orderly.step {S S' : System} {a : Action} {ev : List Event} (h : S.Orderly) (hret : a.returns = true)
    (hstep : S.step a = some (S', ev)) : S'.Orderly := by
  have ht := step_trans h.inv (h.alive.safe hret) hret hstep
  exact ⟨ht.inv h.inv, ht.alive h.inv h.alive, ht.manned h.inv h.alive h.manned,
    ht.announces h.inv h.alive h.manned h.announces, calling_step h.alive h.manned h.calling hret hstep,
    step_slotsOk h.slots hstep⟩

theorem System.Orderly.steps {S S' : System} {tr : List Event} {ok : System → Action → Prop} (h : S.Orderly)
    (hok : ∀ S a, ok S a → a.returns = true) (hrun : Steps service ok S tr S') : S'.Orderly :=
  hrun.invariant (I := System.Orderly) (fun S a _ _ hs ha hstep => hs.step (hok S a ha) hstep) h

theorem init_orderly : System.init.Orderly where
  inv := init_inv
  alive := fun _ hx => by cases hx
  manned := ⟨fun _ hth => absurd rfl hth, fun _ hx => (by cases hx), fun _ _ _ hs => (by cases hs)⟩
  announces := fun _ _ ht => by cases ht
  calling := fun _ hcall => absurd rfl hcall
  slots := init_slotsOk

/-! ### Calls that go on -/

section Goes

variable {S : System} {p : Pthread}

/-- `p` can leave its call while no other begins. -/
def System.CanReturn (S : System) (p : Pthread) : Prop :=
  ∃ tr S', Steps service Finishing S tr S' ∧ S'.call p = .idle

theorem CanReturn.after {S' : System} {tr : List Event} (hrun : Steps service Finishing S tr S') (h : S'.CanReturn p) :
    S.CanReturn p := by
  obtain ⟨tr', S'', hrun', hidle⟩ := h
  exact ⟨tr ++ tr', S'', hrun.trans hrun', hidle⟩

theorem finishing_step {S' : System} {a : Action} {ev : List Event} (ha : a.finishing = true)
    (hstep : S.step a = some (S', ev)) : Steps service Finishing S ev S' := by
  have hrun : Steps service Finishing S ([] ++ ev) S' := .snoc .nil ha hstep
  exact hrun

theorem CanReturn.step {S' : System} {a : Action} {ev : List Event} (ha : a.finishing = true)
    (hstep : S.step a = some (S', ev)) (h : S'.CanReturn p) : S.CanReturn p :=
  CanReturn.after (finishing_step ha hstep) h

theorem canReturn_of_idle (h : S.call p = .idle) : S.CanReturn p := ⟨[], S, .nil, h⟩

theorem canReturn_waking (h : S.Inv) {th : ThreadId} {ret : Ret} (hcall : S.call p = .waking th ret) :
    S.CanReturn p := by
  have hstep : S.step (.wakeup p) = some ((S.broadcast th).setCall p .idle, [.returned p ret]) := by
    simp [System.step, h.wf.running, hcall]
  exact CanReturn.step rfl hstep (canReturn_of_idle (by simp))

theorem canReturn_settimeDone {a : Action} {t : TimerId} {r : State × Int × Option ThreadId} {ret : Ret} (h : S.Orderly)
    (ha : a.finishing = true) (hstep : S.step a = some (S.settimeDone p t r ret)) : S.CanReturn p := by
  have hpair : S.step a = some ((S.settimeDone p t r ret).1, (S.settimeDone p t r ret).2) := hstep
  have hinv : (S.settimeDone p t r ret).1.Inv := (h.step (Action.finishing_returns ha) hpair).inv
  refine CanReturn.step ha hpair ?_
  revert hinv
  simp only [System.settimeDone]
  split
  · intro hinv
    exact canReturn_waking hinv (update_self ..)
  · intro _
    exact canReturn_of_idle (by simp)

theorem canReturn_addArming (h : S.Orderly) {args : AddArgs} {t : TimerId} (hcall : S.call p = .addArming args t) :
    S.CanReturn p := by
  have hstep : S.step (.addArm p (atSec 0)) =
      some (S.settimeDone p t (S.svc.osTimerAddArm args t (atSec 0)) (.added t)) := by
    simp [System.step, h.inv.wf.running, hcall]
  exact canReturn_settimeDone h rfl hstep

theorem canReturn_adding (h : S.Orderly) {args : AddArgs} {t : TimerId} (hcall : S.call p = .adding args t) :
    S.CanReturn p := by
  cases hinit : S.svc.osTimerAddInit args t with
  | mk svc ok =>
      cases ok with
      | false =>
          have hstep : S.step (.addInit p) = some (S.setCall p .idle, [.returned p (.code (-1))]) := by
            simp [System.step, h.inv.wf.running, hcall, hinit]
          exact CanReturn.step rfl hstep (canReturn_of_idle (by simp))
      | true =>
          have hstep : S.step (.addInit p) = some ({ S with svc := svc }.setCall p (.addArming args t), []) := by
            simp [System.step, h.inv.wf.running, hcall, hinit]
          exact CanReturn.step rfl hstep (canReturn_addArming (h.step rfl hstep) (update_self ..))

theorem canReturn_starting (h : S.Orderly) {t : TimerId} {its : Itimerspec} (hcall : S.call p = .starting t its) :
    S.CanReturn p := by
  have hstep : S.step (.startArm p (atSec 0)) =
      some (S.settimeDone p t (S.svc.timerSettime (some t) false its (atSec 0)) (.code 0)) := by
    simp [System.step, h.inv.wf.running, hcall]
  exact canReturn_settimeDone h rfl hstep

theorem canReturn_deleting (h : S.Orderly) {t : TimerId} {th : ThreadId} {reg : Nat}
    (hcall : S.call p = .deleting t th reg) (hgo : S.svc.deleteMustWait t th p = false) : S.CanReturn p := by
  have hstep : S.step (.delWake p) = some (S.deleteDone p t (some th) reg) := by
    simp [System.step, h.inv.wf.running, hcall, hgo]
  exact CanReturn.step rfl hstep (canReturn_of_idle (update_self ..))

theorem canReturn_of_free (h : S.Orderly) (hfree : S.waitsFor p = none) : S.CanReturn p := by
  cases hcall : S.call p with
  | idle => exact canReturn_of_idle hcall
  | adding args t => exact canReturn_adding h hcall
  | addArming args t => exact canReturn_addArming h hcall
  | starting t its => exact canReturn_starting h hcall
  | deleting t th reg =>
      refine canReturn_deleting h hcall ?_
      simpa [System.waitsFor, hcall] using hfree
  | waking th ret => exact canReturn_waking h.inv hcall

end Goes

/-! ### Waiting for a handler -/

theorem System.Orderly.invokes {S : System} {th : ThreadId} {u : TimerId} {r : Nat} {now : ClockReading} (h : S.Orderly)
    (hpc : S.pc th = .expiring u r now) : Steps service Finishing S [.invoked th (S.svc.timer u).event]
      (S.setPc th (.handling u r now)) := by
  refine finishing_step (a := .invoke th) rfl ?_
  simp [System.step, h.inv.wf.running, hpc]

theorem System.Orderly.finishes {S : System} {th : ThreadId} {u : TimerId} {r : Nat} {now : ClockReading}
    (h : S.Orderly) (hidle : S.call (.service th) = .idle) (hpc : S.pc th = .handling u r now) :
    ∃ S₁ ev, S.step (.finish th) = some (S₁, ev) ∧ S₁.call = S.call ∧
      Served { S with svc := S.svc.expireDone th } th now (S₁, ev) := by
  let S₀ : System := { S with svc := S.svc.expireDone th }
  refine ⟨(S₀.serve th now).1, (S₀.serve th now).2, ?_, serve_call S₀ th now, serve_served S₀ th now⟩
  simp [System.step, h.inv.wf.running, hpc, hidle, S₀]

theorem popped_onward {S : System} {s' : State} {th : ThreadId} {u : TimerId} {now : ClockReading} (h : S.SlotsOk)
    (hmem : u ∈ S.svc.queue th) (hstay : u ∈ s'.queue th)
    (hrw : State.Rewrites S.svc s' u (State.expiredNode (S.svc.timer u) now)
      (State.expiredPlace (S.svc.timer u) th)) :
    (S.svc.timer u).expirytime.toNs < (s'.timer u).expirytime.toNs := by
  have hplace : State.expiredPlace (S.svc.timer u) th = .queue th := by
    rcases hrw.queue th u hstay with ⟨-, hplace⟩ | ⟨hne, -⟩
    · exact hplace
    · exact absurd rfl hne
  obtain ⟨-, hint, j, hj, hmoved⟩ := expired_requeued h hmem now hplace
  have hpos := (h.dataOk u).interval_pos hint
  have hlt : 0 < (j : Int) * (S.svc.timer u).value.interval.toNs := by positivity
  rw [hrw.timer, update_self, hmoved]
  omega

theorem Served.onward {S S' : System} {th : ThreadId} {now : ClockReading} {ev : List Event} {t : TimerId}
    (h : S.SlotsOk) (hs : Served S th now (S', ev)) (hnone : (S.svc.thread th).currentTimer = none) :
    (S'.svc.thread th).currentTimer ≠ some t ∨
    (∃ reg, S'.pc th = .expiring t reg now) ∧ t ∈ S.svc.queue th ∧
      (S.svc.timer t).expirytime.toNs ≤ now.1.toNs ∧
      (t ∈ S'.svc.queue th → (S.svc.timer t).expirytime.toNs < (S'.svc.timer t).expirytime.toNs) := by
  cases hs with
  | empty => exact .inl (by simp [hnone])
  | early => exact .inl (by simp [hnone])
  | @due u rest hq hdue =>
      by_cases htu : u = t
      · subst htu
        have hmem : u ∈ S.svc.queue th := by simp [hq]
        refine .inr ⟨⟨_, by simp; rfl⟩, hmem, due_toNs h hmem now hdue, fun hstay => ?_⟩
        exact popped_onward h hmem hstay (S.svc.expireTimer_rewrites th u now)
      · refine .inl ?_
        simp only [System.setPc_svc]
        rw [State.expireTimer_eq_move]
        simpa using htu

/-- One round of a thread whose handler makes no call: whoever waits for it to leave `t` can return, or it runs `t`
again, and then the expiry of `t` had passed and has moved on. -/
theorem finish_round {S : System} {p : Pthread} {t u : TimerId} {th : ThreadId} {reg r : Nat} {now : ClockReading}
    (h : S.Orderly) (hcall : S.call p = .deleting t th reg) (hidle : S.call (.service th) = .idle)
    (hpc : S.pc th = .handling u r now) :
    S.CanReturn p ∨ ∃ tr S' r', Steps service Finishing S tr S' ∧ S'.call = S.call ∧ S'.pc th = .handling t r' now ∧
      t ∈ S.svc.queue th ∧ (S.svc.timer t).expirytime.toNs ≤ now.1.toNs ∧
      (t ∈ S'.svc.queue th → (S.svc.timer t).expirytime.toNs < (S'.svc.timer t).expirytime.toNs) := by
  have hkeeps : State.Keeps S.svc (S.svc.expireDone th) := State.setThread_keeps S.svc th rfl
  have hslots : { S with svc := S.svc.expireDone th }.SlotsOk := h.slots.keeps h.slots.calls hkeeps
  have hnone : ((S.svc.expireDone th).thread th).currentTimer = none := by simp [State.expireDone]
  obtain ⟨S₁, ev, hstep, hcalls, hserved⟩ := h.finishes hidle hpc
  have hnext : S₁.Orderly := h.step rfl hstep
  rcases hserved.onward (t := t) hslots hnone with hleft | ⟨⟨r', hexp⟩, hmem, hdue, hmoved⟩
  · refine .inl (CanReturn.step rfl hstep (canReturn_deleting hnext (hcalls ▸ hcall) ?_))
    simp [State.deleteMustWait, hleft]
  · have hrun := (finishing_step rfl hstep).trans (hnext.invokes hexp)
    exact .inr ⟨_, _, r', hrun, hcalls, update_self .., hkeeps.queue th t hmem, hdue, hmoved⟩

/-- Who waits for a handler that makes no call can return. The thread may run the same timer several times before it
goes on to another, but each time the expiry moves on, and not beyond the clock reading of the pass. -/
theorem canReturn_of_handling {p : Pthread} {t : TimerId} {th : ThreadId} {reg : Nat} {now : ClockReading} (n : Nat) :
    ∀ (S : System) (u : TimerId) (r : Nat), S.Orderly → S.call p = .deleting t th reg →
      S.call (.service th) = .idle → S.pc th = .handling u r now →
      (t ∈ S.svc.queue th → now.1.toNs - (S.svc.timer t).expirytime.toNs < n) → S.CanReturn p := by
  induction n with
  | zero =>
      intro S u r h hcall hidle hpc hlate
      rcases finish_round h hcall hidle hpc with hreturn | ⟨tr, S', r', -, -, -, hmem, hdue, -⟩
      · exact hreturn
      · have hlate := hlate hmem
        omega
  | succ n ih =>
      intro S u r h hcall hidle hpc hlate
      rcases finish_round h hcall hidle hpc with hreturn | ⟨tr, S', r', hrun, hcalls, hpc', hmem, hdue, hmoved⟩
      · exact hreturn
      · refine CanReturn.after hrun (ih S' t r' ?_ (hcalls ▸ hcall) (hcalls ▸ hidle) hpc' fun hstay => ?_)
        · exact h.steps (fun _ _ => Action.finishing_returns) hrun
        · have hlate := hlate hmem
          have hmoved := hmoved hstay
          push_cast at hlate
          omega

theorem canReturn_of_waited {S : System} {p : Pthread} {t : TimerId} {th : ThreadId} {reg : Nat} (h : S.Orderly)
    (hcall : S.call p = .deleting t th reg) (hidle : S.call (.service th) = .idle) : S.CanReturn p := by
  cases hwait : S.svc.deleteMustWait t th p with
  | false => exact canReturn_deleting h hcall hwait
  | true =>
      have hcur : (S.svc.thread th).currentTimer = some t := by
        simp only [State.deleteMustWait, decide_eq_true_eq] at hwait
        exact hwait.1
      obtain ⟨r, hs⟩ := h.announces th t hcur
      cases hpc : S.pc th with
      | handling u r' now =>
          refine canReturn_of_handling (now.1.toNs - (S.svc.timer t).expirytime.toNs + 1).toNat S u r' h hcall hidle hpc
            fun _ => ?_
          omega
      | expiring u r' now =>
          have hrun := h.invokes hpc
          refine CanReturn.after hrun ?_
          refine canReturn_of_handling (now.1.toNs - (S.svc.timer t).expirytime.toNs + 1).toNat _ u r'
            (h.steps (fun _ _ => Action.finishing_returns) hrun) hcall hidle (update_self ..) fun _ => ?_
          simp only [System.setPc_svc]
          omega
      | _ => simp [hpc, ServicePc.serving] at hs

theorem finishing_deleting {S S' : System} {tr : List Event} {p : Pthread} {t : TimerId} {th : ThreadId} {reg : Nat}
    (h : Steps service Finishing S tr S') (hcall : S.call p = .deleting t th reg) :
    S'.call p = .deleting t th reg ∨ S'.call p = .idle := by
  refine h.invariant (I := fun S => S.call p = .deleting t th reg ∨ S.call p = .idle) ?_ (.inl hcall)
  intro S a S' ev hp ha hstep
  have hother {q : Pthread} {c : Call} (hq : q = p) (hc : S.call q = c) (hdel : c ≠ .deleting t th reg)
      (hidle : c ≠ .idle) : False := by
    subst hq
    rcases hp with hp | hp
    · exact hdel (hc.symm.trans hp)
    · exact hidle (hc.symm.trans hp)
  by_cases hcaller : a.caller = some p
  · cases step_stepped hstep with
    | delStillWaits => exact hp
    | @delWake q =>
        obtain rfl : q = p := Option.some.inj hcaller
        exact .inr (update_self ..)
    | addInitFailed hc => exact (hother (Option.some.inj hcaller) hc (by simp) (by simp)).elim
    | addInit hc => exact (hother (Option.some.inj hcaller) hc (by simp) (by simp)).elim
    | addArm hc => exact (hother (Option.some.inj hcaller) hc (by simp) (by simp)).elim
    | startArm hc => exact (hother (Option.some.inj hcaller) hc (by simp) (by simp)).elim
    | wakeup hc => exact (hother (Option.some.inj hcaller) hc (by simp) (by simp)).elim
    | look | invoke | finish | wake => cases hcaller
    | addRefused | addFailed | add | startRefused | start | stopRefused | stop | settimeRefused | settime | delRefused
    | delWaits | del | exit => cases ha
  · rw [step_other (Action.finishing_returns ha) hcaller hstep]
    exact hp

theorem canReturn_of_next {S : System} {p : Pthread} {th : ThreadId} (h : S.Orderly) (hw : S.waitsFor p = some th)
    (hnext : S.CanReturn (.service th)) : S.CanReturn p := by
  obtain ⟨t, reg, hcall, -⟩ := waitsFor_eq_some hw
  obtain ⟨tr, S', hrun, hidle⟩ := hnext
  rcases finishing_deleting hrun hcall with hcall' | hdone
  · have h' : S'.Orderly := h.steps (fun _ _ => Action.finishing_returns) hrun
    exact CanReturn.after hrun (canReturn_of_waited h' hcall' hidle)
  · exact ⟨tr, S', hrun, hdone⟩

/-- A call that is not deadlocked can return: the calls it waits for return first. -/
theorem canReturn_of_not_deadlocked {S : System} {p : Pthread} (h : S.Orderly) (hnot : ¬ S.Deadlocked p) :
    S.CanReturn p := by
  have hthread (th : ThreadId) (hth : ¬ Lib.Circular S.Waits th) : S.CanReturn (.service th) := by
    refine Lib.free_of_not_circular (P := fun th => S.CanReturn (.service th)) (fun x hx => ?_) hth
    cases hw : S.waitsFor (.service x) with
    | none => exact canReturn_of_free h hw
    | some y => exact canReturn_of_next h hw (hx y hw)
  cases hw : S.waitsFor p with
  | none => exact canReturn_of_free h hw
  | some th => exact canReturn_of_next h hw (hthread th fun hcirc => hnot ⟨th, hw, hcirc⟩)

/-! ### Waiting for a handler that waits -/

theorem pops_idle {S S' : System} {a : Action} {ev : List Event} {th : ThreadId} {t : TimerId} {reg : Nat}
    (hstep : S.step a = some (S', ev)) (hmem : Event.popped th t reg ∈ ev) :
    S.pc th = .ready ∨ S.call (.service th) = .idle := by
  rcases step_pops hstep with hno | ⟨x, u, now, hpop⟩
  · have := hno _ hmem t
    simp [Event.pops] at this
  · rw [hpop.events, List.mem_singleton] at hmem
    obtain ⟨rfl, -, -⟩ := Event.popped.inj hmem
    have hread := hpop.reading
    cases step_stepped hstep with
    | @look y now' hpc =>
        obtain ⟨rfl, -⟩ : y = th ∧ now' = now := by simpa [System.reading] using hread
        exact .inl hpc
    | @finish y u' r' now' hpc hidle =>
        obtain ⟨rfl, -⟩ : y = th ∧ now' = now := by simpa [System.reading, hpc] using hread
        exact .inr hidle
    | _ => cases hread

theorem Served.sameThread {S S' : System} {x th : ThreadId} {now : ClockReading} {ev : List Event} (hth : th ≠ x)
    (hs : Served S x now (S', ev)) : (S'.svc.thread th).currentTimer = (S.svc.thread th).currentTimer ∧
      (S'.svc.thread th).id = (S.svc.thread th).id := by
  cases hs with
  | empty => exact ⟨rfl, rfl⟩
  | early => exact ⟨rfl, rfl⟩
  | due =>
      simp only [System.setPc_svc]
      rw [State.expireTimer_eq_move]
      simp [hth]

theorem Trans.busy {S S' : System} {a : Action} {ev : List Event} {th : ThreadId} {t : TimerId} {reg : Nat}
    (h : S.Orderly) (ht : Trans S a S' ev) (hs : (S.pc th).serving = some (t, reg))
    (hbusy : S.call (.service th) ≠ .idle) :
    (S'.svc.thread th).currentTimer = (S.svc.thread th).currentTimer ∧
      (S'.svc.thread th).id = (S.svc.thread th).id := by
  have hactive := h.manned.active_of_serving hs
  have hsame {s' : State} (hsvc : SameThreads S.svc s') :
      (s'.thread th).currentTimer = (S.svc.thread th).currentTimer ∧ (s'.thread th).id = (S.svc.thread th).id :=
    ⟨hsvc.currentTimer th, hsvc.id th⟩
  have hkept {s' : State} (hr : Recruited S.svc s') :
      (s'.thread th).currentTimer = (S.svc.thread th).currentTimer ∧ (s'.thread th).id = (S.svc.thread th).id :=
    ⟨(hr.kept th hactive).2.2.2, (hr.kept th hactive).2.2.1⟩
  cases ht with
  | quiet => exact ⟨rfl, rfl⟩
  | data => exact ⟨rfl, rfl⟩
  | created _ _ _ _ hc => exact hkept (hc.recruited h.inv.wf h.alive)
  | notCreated _ _ _ hc => exact hkept (hc.recruited h.inv.wf h.alive)
  | settime _ _ hsettime =>
      rw [System.settimeDone_svc]
      exact hsame hsettime.sameThreads
  | delete _ hsvc => exact hsame hsvc.sameThreads
  | wakeup =>
      rw [System.setCall_svc, System.broadcast_svc]
      exact ⟨rfl, rfl⟩
  | @look x now S' ev hpc hserved =>
      refine hserved.sameThread ?_
      rintro rfl
      simp [hpc, ServicePc.serving] at hs
  | invoke => exact ⟨rfl, rfl⟩
  | @finish x u r now S' ev hpc hidle hserved =>
      have hne : th ≠ x := by
        rintro rfl
        exact hbusy hidle
      have hnode := hserved.sameThread hne
      simpa [State.expireDone, hne] using hnode
  | wake => exact ⟨rfl, rfl⟩

/-- A delete that must wait does not change by its own steps, nor by those of others. -/
theorem deleting_step {S S' : System} {a : Action} {ev : List Event} {p : Pthread} {t : TimerId} {th : ThreadId}
    {reg : Nat} (hret : a.returns = true) (hstep : S.step a = some (S', ev)) (hcall : S.call p = .deleting t th reg)
    (hwait : S.svc.deleteMustWait t th p = true) : S'.call p = S.call p := by
  have hother {q : Pthread} {c : Call} (hq : q = p) (hc : S.call q = c) (hne : c ≠ .deleting t th reg) : False := by
    subst hq
    exact hne (hc.symm.trans hcall)
  by_cases hcaller : a.caller = some p
  · cases step_stepped hstep with
    | delStillWaits => rfl
    | @delWake q u x r hc hgo =>
        obtain rfl : q = p := Option.some.inj hcaller
        obtain ⟨rfl, rfl, rfl⟩ := Call.deleting.inj (hc.symm.trans hcall)
        rw [hwait] at hgo
        cases hgo
    | addRefused hp | addFailed hp | add hp | startRefused hp | start hp | stopRefused hp | stop hp | settimeRefused hp
    | settime hp | delRefused hp | delWaits hp | del hp =>
        exact (hother (Option.some.inj hcaller) (canCall_idle hp) (by simp)).elim
    | addInitFailed hc | addInit hc | addArm hc | startArm hc | wakeup hc =>
        exact (hother (Option.some.inj hcaller) hc (by simp)).elim
    | look | invoke | finish | wake => cases hcaller
    | exit => cases hret
  · exact step_other hret hcaller hstep

theorem waitsFor_step {S S' : System} {a : Action} {ev : List Event} {p : Pthread} {th x : ThreadId} (h : S.Orderly)
    (hret : a.returns = true) (hstep : S.step a = some (S', ev)) (hw : S.waitsFor p = some th)
    (hnext : S.waitsFor (.service th) = some x) : S'.call p = S.call p ∧ S'.waitsFor p = some th := by
  obtain ⟨t, reg, hcall, hwait⟩ := waitsFor_eq_some hw
  obtain ⟨u, r, hcall', -⟩ := waitsFor_eq_some hnext
  have hboth := hwait
  simp only [State.deleteMustWait, decide_eq_true_eq] at hboth
  obtain ⟨reg', hs⟩ := h.announces th t hboth.1
  have ht := step_trans h.inv (h.alive.safe hret) hret hstep
  obtain ⟨hcur, hid⟩ := ht.busy h hs (by simp [hcall'])
  have hsame := deleting_step hret hstep hcall hwait
  refine ⟨hsame, ?_⟩
  have hwait' : S'.svc.deleteMustWait t th p = true := by
    simp only [State.deleteMustWait, decide_eq_true_eq]
    rw [hcur, hid]
    exact hboth
  simp [System.waitsFor, hsame, hcall, hwait']

/-- A deadlocked call stays as it is, and a thread whose handler makes it pops no timer. -/
theorem Deadlocked.step {S S' : System} {a : Action} {ev : List Event} {p : Pthread} (h : S.Orderly)
    (hret : a.returns = true) (hstep : S.step a = some (S', ev)) (hdead : S.Deadlocked p) :
    S'.call p = S.call p ∧ S'.Deadlocked p := by
  obtain ⟨th, hw, hcirc⟩ := hdead
  obtain ⟨x, hx, -⟩ := hcirc.next
  obtain ⟨hcall, hw'⟩ := waitsFor_step h hret hstep hw hx
  refine ⟨hcall, th, hw', hcirc.mono fun y z hyz hz => ?_⟩
  obtain ⟨v, hv, -⟩ := hz.next
  exact (waitsFor_step h hret hstep hyz hv).2

theorem Deadlocked.never_pops {S S' : System} {a : Action} {ev : List Event} {th : ThreadId} (h : S.Orderly)
    (hstep : S.step a = some (S', ev)) (hdead : S.Deadlocked (.service th)) (t : TimerId) (reg : Nat) :
    Event.popped th t reg ∉ ev := by
  intro hmem
  obtain ⟨x, hw, -⟩ := hdead
  obtain ⟨u, r, hcall, -⟩ := waitsFor_eq_some hw
  have hbusy : S.call (.service th) ≠ .idle := by simp [hcall]
  rcases pops_idle hstep hmem with hready | hidle
  · obtain ⟨v, r', now, hpc⟩ := h.calling th hbusy
    rw [hready] at hpc
    cases hpc
  · exact hbusy hidle

/-- Whatever happens, a deadlocked call never returns. -/
theorem Deadlocked.run {S S' : System} {tr : List Event} {p : Pthread} (h : S.Orderly) (hdead : S.Deadlocked p)
    (hrun : Steps service Returns S tr S') :
    S'.call p = S.call p ∧ S'.Deadlocked p ∧ ∀ th, p = .service th → ∀ t reg, Event.popped th t reg ∉ tr := by
  induction hrun with
  | nil => exact ⟨rfl, hdead, fun _ _ _ _ hmem => by cases hmem⟩
  | @snoc tr S₁ S₂ a ev hrun hret hstep ih =>
      obtain ⟨hcall, hdead₁, hquiet⟩ := ih
      have h₁ : S₁.Orderly := h.steps (fun _ _ => id) hrun
      obtain ⟨hcall₂, hdead₂⟩ := Deadlocked.step h₁ hret hstep hdead₁
      refine ⟨hcall₂.trans hcall, hdead₂, fun th hp t reg hmem => ?_⟩
      rcases List.mem_append.mp hmem with hmem | hmem
      · exact hquiet th hp t reg hmem
      · subst hp
        exact Deadlocked.never_pops h₁ hstep hdead₁ t reg hmem

/-- In every state that is reached while handlers return: a pending call can return, with no call beginning
meanwhile, exactly if it does not wait on a circle of handlers each of which deletes a timer whose handler the
next one is. If it does, it never returns whatever is done, and if a handler makes it then its thread never pops a
timer again. -/
theorem call_returns_iff {tr : List Event} {S : System} (h : Steps service Returns service.init tr S) (p : Pthread) :
    (S.CanReturn p ↔ ¬ S.Deadlocked p) ∧
    (S.Deadlocked p → ∀ tr' S', Steps service Returns S tr' S' →
      S'.call p = S.call p ∧ S'.Deadlocked p ∧ ∀ th, p = .service th → ∀ t reg, Event.popped th t reg ∉ tr') := by
  have horderly : S.Orderly := init_orderly.steps (fun _ _ => id) h
  refine ⟨⟨fun hreturn hdead => ?_, canReturn_of_not_deadlocked horderly⟩,
    fun hdead tr' S' hrun => Deadlocked.run horderly hdead hrun⟩
  obtain ⟨tr', S', hrun, hidle⟩ := hreturn
  have hrun' : Steps service Returns S tr' S' := hrun.mono fun _ _ => Action.finishing_returns
  obtain ⟨hcall, ⟨th, hw, -⟩, -⟩ := Deadlocked.run horderly hdead hrun'
  obtain ⟨t, reg, hpending, -⟩ := waitsFor_eq_some hw
  rw [hidle] at hpending
  cases hpending

/-- Two handlers that delete each other's timers: neither call can return, and neither thread pops a timer again. -/
theorem call_returns_iff_mutual : ∃ tr S, Steps service Returns service.init tr S ∧
    S.call (.service 0) = .deleting 1 1 2 ∧ S.call (.service 1) = .deleting 0 0 1 ∧ ¬ S.CanReturn (.service 0) ∧
    ∀ tr' S', Steps service Returns S tr' S' → ∀ t reg, Event.popped 0 t reg ∉ tr' := by
  obtain ⟨S, tr, hrun, htest⟩ := exists_steps_of_exec (m := service) (s := service.init)
    (addSteps 0 timerInterval 30 0 ++ addSteps 1 timerInterval 40 0 ++
      [.look 0 (atSec 1), .invoke 0, .look 1 (atSec 1), .invoke 1, .del (.service 0) (some 1),
        .del (.service 1) (some 0)])
    (p := fun r => decide (r.1.call (.service 0) = .deleting 1 1 2) &&
      decide (r.1.call (.service 1) = .deleting 0 0 1) &&
      decide (r.1.waitsFor (.service 0) = some 1) && decide (r.1.waitsFor (.service 1) = some 0))
    (show (service.exec Returns _ _).any _ = true by decide +kernel)
  simp only [Bool.and_eq_true, decide_eq_true_eq] at htest
  obtain ⟨⟨⟨hcall, hcall'⟩, hw⟩, hw'⟩ := htest
  have hcircle : Relation.TransGen S.Waits 1 1 := .tail (.single hw') hw
  have hdead : S.Deadlocked (.service 0) := ⟨1, hw, 1, .refl, hcircle⟩
  have hiff := call_returns_iff hrun (.service 0)
  exact ⟨tr, S, hrun, hcall, hcall', fun hreturn => hiff.1.mp hreturn hdead,
    fun tr' S' hrun' => (hiff.2 hdead tr' S' hrun').2.2 0 rfl⟩

end Pc02.Timer

import Mathlib.Algebra.Order.BigOperators.Group.Finset
import Pc02.Timer.Deadlock

/-!
# Working off a backlog

However many expiries a service thread has missed, it is through with them after finitely many steps: each
timer it pops leaves the queue, or moves on by whole periods. So a thread can always come to wait for a timer
that is not due yet, unless its handler is in a delete that never returns.
-/

namespace Pc02.Timer

open Function Machines

def System.lateness (S : System) (th : ThreadId) (now : Timespec) (t : TimerId) : Nat :=
  if (S.svc.queue th).contains t then (now.toNs + 1 - (S.svc.timer t).expirytime.toNs).toNat else 0

theorem lateness_queued {S : System} {th : ThreadId} {t : TimerId} (now : Timespec) (h : t ∈ S.svc.queue th) :
    S.lateness th now t = (now.toNs + 1 - (S.svc.timer t).expirytime.toNs).toNat :=
  if_pos (List.contains_iff_mem.mpr h)

theorem lateness_left {S : System} {th : ThreadId} {t : TimerId} (now : Timespec) (h : t ∉ S.svc.queue th) :
    S.lateness th now t = 0 :=
  if_neg fun hin => h (List.contains_iff_mem.mp hin)

/-- How far the expiries in the queue of `th` lie behind the clock. -/
def System.backlog (S : System) (th : ThreadId) (now : Timespec) : Nat := ∑ t : TimerId, S.lateness th now t

/-- The thread waits, and nothing in its queue is due. -/
def System.CaughtUp (S : System) (th : ThreadId) (now : Timespec) : Prop :=
  (∃ deadline, S.pc th = .blocked deadline) ∧ ∀ t ∈ S.svc.queue th, now.toNs < (S.svc.timer t).expirytime.toNs

/-- Popping a timer that is due leaves less behind the clock. -/
theorem backlog_pop {S S' : System} {th : ThreadId} {u : TimerId} {now : ClockReading} (h : S.SlotsOk)
    (hmem : u ∈ S.svc.queue th) (hdue : S.svc.key u ≤ now.1.key)
    (hrw : State.Rewrites S.svc S'.svc u (State.expiredNode (S.svc.timer u) now)
      (State.expiredPlace (S.svc.timer u) th)) : S'.backlog th now < S.backlog th now := by
  have hlate := due_toNs h hmem now hdue
  have hless : S'.lateness th now u < S.lateness th now u := by
    rw [lateness_queued _ hmem]
    by_cases hstay : u ∈ S'.svc.queue th
    · have hmoved := popped_onward h hmem hstay hrw
      rw [lateness_queued _ hstay]
      omega
    · rw [lateness_left _ hstay]
      omega
  refine Finset.sum_lt_sum (fun t _ => ?_) ⟨u, Finset.mem_univ u, hless⟩
  by_cases ht : t = u
  · rw [ht]
    exact hless.le
  · have hnode : S'.svc.timer t = S.svc.timer t := by rw [hrw.timer, update_of_ne ht]
    by_cases hin : t ∈ S'.svc.queue th
    · have hwas : t ∈ S.svc.queue th := by
        rcases hrw.queue th t hin with ⟨heq, -⟩ | ⟨-, hwas⟩
        · exact absurd heq ht
        · exact hwas
      rw [lateness_queued _ hin, lateness_queued _ hwas, hnode]
    · rw [lateness_left _ hin]
      exact Nat.zero_le _

theorem Served.catchesUp {S S' : System} {th : ThreadId} {now : ClockReading} {ev : List Event} (h : S.SlotsOk)
    (hsorted : (S.svc.queue th).Pairwise fun a b => S.svc.key a ≤ S.svc.key b) (hs : Served S th now (S', ev)) :
    S'.CaughtUp th now ∨ ∃ u reg, S'.pc th = .expiring u reg now ∧ S'.backlog th now < S.backlog th now := by
  cases hs with
  | empty hq => exact .inl ⟨⟨none, by simp⟩, by simp [hq]⟩
  | @early t rest hq hlt =>
      refine .inl ⟨⟨_, by simp; rfl⟩, fun u hu => ?_⟩
      have hu : u ∈ S.svc.queue th := hu
      have hle : S.svc.key t ≤ S.svc.key u := by
        rw [hq] at hu hsorted
        rcases List.mem_cons.mp hu with rfl | hu
        · exact le_rfl
        · exact (List.pairwise_cons.mp hsorted).1 u hu
      obtain ⟨-, -, hnormal⟩ := h.queued th u hu
      exact (key_lt_iff_toNs now.2 hnormal).mp (hlt.trans_le hle)
  | @due u rest hq hdue =>
      refine .inr ⟨u, (S.svc.timer u).event.reg, by simp, ?_⟩
      exact backlog_pop h (by simp [hq]) hdue (S.svc.expireTimer_rewrites th u now)

theorem catchUp_of_handling {th : ThreadId} {now : ClockReading} (n : Nat) :
    ∀ (S : System) (u : TimerId) (r : Nat), S.Orderly → S.call (.service th) = .idle → S.pc th = .handling u r now →
      S.backlog th now < n → ∃ tr S', Steps service Finishing S tr S' ∧ S'.call = S.call ∧ S'.CaughtUp th now := by
  induction n with
  | zero =>
      intro S u r h hidle hpc hless
      exact absurd hless (Nat.not_lt_zero _)
  | succ n ih =>
      intro S u r h hidle hpc hless
      let S₀ : System := { S with svc := S.svc.expireDone th }
      have hqueue : S₀.svc.queue th = S.svc.queue th := by simp [S₀, State.queue, State.expireDone]
      have hbacklog : S₀.backlog th now = S.backlog th now := by
        simp only [System.backlog, System.lateness, hqueue]
        rfl
      have hkeeps : State.Keeps S.svc (S.svc.expireDone th) := State.setThread_keeps S.svc th rfl
      have hslots : S₀.SlotsOk := h.slots.keeps h.slots.calls hkeeps
      have hsorted : (S₀.svc.queue th).Pairwise fun a b => S₀.svc.key a ≤ S₀.svc.key b := by
        rw [hqueue]
        exact h.inv.wf.sorted th
      obtain ⟨S₁, ev, hstep, hcalls, hserved⟩ := h.finishes hidle hpc
      have h₁ : S₁.Orderly := h.step rfl hstep
      rcases hserved.catchesUp hslots hsorted with hdone | ⟨v, r', hexp, hfewer⟩
      · exact ⟨ev, S₁, finishing_step rfl hstep, hcalls, hdone⟩
      · have hinvoke := h₁.invokes hexp
        have h₂ : (S₁.setPc th (.handling v r' now)).Orderly := h₁.steps (fun _ _ => Action.finishing_returns) hinvoke
        have hleft : (S₁.setPc th (.handling v r' now)).backlog th now < n := by
          have hsame : (S₁.setPc th (.handling v r' now)).backlog th now = S₁.backlog th now := rfl
          omega
        have hidle₁ : (S₁.setPc th (.handling v r' now)).call (.service th) = .idle := by
          rw [System.setPc_call, hcalls]
          exact hidle
        obtain ⟨tr, S', hrun, hcalls', hdone⟩ := ih _ v r' h₂ hidle₁ (update_self ..) hleft
        have hfirst := (finishing_step rfl hstep).trans hinvoke
        exact ⟨_, S', hfirst.trans hrun, hcalls'.trans hcalls, hdone⟩

theorem catchUp_of_ready {S : System} {th : ThreadId} (h : S.Orderly) (hidle : S.call (.service th) = .idle)
    (hpc : S.pc th = .ready) (now : ClockReading) : ∃ tr S', Steps service Finishing S tr S' ∧ S'.CaughtUp th now := by
  have hstep : S.step (.look th now) = some (S.serve th now) := by simp [System.step, h.inv.wf.running, hpc]
  have hcalls : (S.serve th now).1.call = S.call := serve_call S th now
  have hserved := serve_served S th now
  generalize S.serve th now = q at hstep hcalls hserved
  obtain ⟨S₁, ev⟩ := q
  have h₁ : S₁.Orderly := h.step rfl hstep
  rcases hserved.catchesUp h.slots (h.inv.wf.sorted th) with hdone | ⟨v, r, hexp, -⟩
  · exact ⟨ev, S₁, finishing_step rfl hstep, hdone⟩
  · have hinvoke := h₁.invokes hexp
    have h₂ : (S₁.setPc th (.handling v r now)).Orderly := h₁.steps (fun _ _ => Action.finishing_returns) hinvoke
    have hidle₁ : (S₁.setPc th (.handling v r now)).call (.service th) = .idle := by
      rw [System.setPc_call, hcalls]
      exact hidle
    obtain ⟨tr, S', hrun, -, hdone⟩ := catchUp_of_handling _ _ v r h₂ hidle₁ (update_self ..) (Nat.lt_succ_self _)
    have hfirst := (finishing_step rfl hstep).trans hinvoke
    exact ⟨_, S', hfirst.trans hrun, hdone⟩

theorem catchUp_of_blocked {S : System} {th : ThreadId} {deadline : Option Timespec} (h : S.Orderly)
    (hidle : S.call (.service th) = .idle) (hpc : S.pc th = .blocked deadline) (now : ClockReading) :
    ∃ tr S', Steps service Finishing S tr S' ∧ S'.CaughtUp th now := by
  have hstep : S.step (.wake th) = some (S.setPc th .ready, []) := by simp [System.step, h.inv.wf.running, hpc]
  obtain ⟨tr, S', hrun, hdone⟩ := catchUp_of_ready (h.step rfl hstep) hidle (update_self ..) now
  exact ⟨_, S', (finishing_step rfl hstep).trans hrun, hdone⟩

/-- A thread whose handler makes no call works off its queue: it ends the pass it is in, and begins another. -/
theorem catchUp_of_idle {S : System} {th : ThreadId} (h : S.Orderly) (hidle : S.call (.service th) = .idle)
    (hpresent : S.pc th ≠ .absent) (now : ClockReading) :
    ∃ tr S', Steps service Finishing S tr S' ∧ S'.CaughtUp th now := by
  have hhandling {S : System} {u : TimerId} {r : Nat} {now' : ClockReading} (h : S.Orderly)
      (hidle : S.call (.service th) = .idle) (hpc : S.pc th = .handling u r now') :
      ∃ tr S', Steps service Finishing S tr S' ∧ S'.CaughtUp th now := by
    obtain ⟨tr, S₁, hrun, hcalls, ⟨deadline, hblocked⟩, -⟩ :=
      catchUp_of_handling _ S u r h hidle hpc (Nat.lt_succ_self _)
    have h₁ : S₁.Orderly := h.steps (fun _ _ => Action.finishing_returns) hrun
    obtain ⟨tr', S', hrun', hdone⟩ := catchUp_of_blocked h₁ (hcalls ▸ hidle) hblocked now
    exact ⟨_, S', hrun.trans hrun', hdone⟩
  cases hpc : S.pc th with
  | absent => exact absurd hpc hpresent
  | ready => exact catchUp_of_ready h hidle hpc now
  | blocked deadline => exact catchUp_of_blocked h hidle hpc now
  | handling u r now' => exact hhandling h hidle hpc
  | expiring u r now' =>
      have hinvoke := h.invokes hpc
      have h₁ : (S.setPc th (.handling u r now')).Orderly := h.steps (fun _ _ => Action.finishing_returns) hinvoke
      obtain ⟨tr, S', hrun, hdone⟩ := hhandling h₁ hidle (update_self ..)
      exact ⟨_, S', hinvoke.trans hrun, hdone⟩

/-! ### Threads that are there -/

theorem present_step {S S' : System} {a : Action} {ev : List Event} {th : ThreadId} (hret : a.returns = true)
    (hstep : S.step a = some (S', ev)) (hpresent : S.pc th ≠ .absent) : S'.pc th ≠ .absent := by
  have hspawn (svc : State) : (S.spawn svc).pc th ≠ .absent := by
    simp only [System.spawn]
    split
    · simp
    · exact hpresent
  have hset {x : ThreadId} {c : ServicePc} (hc : c ≠ .absent) : update S.pc x c th ≠ .absent := by
    by_cases hx : th = x
    · subst hx
      rwa [update_self]
    · rwa [update_of_ne hx]
  have hserved {S₀ S₁ : System} {x : ThreadId} {now : ClockReading} {ev : List Event} (hs : Served S₀ x now (S₁, ev))
      (hS₀ : S₀.pc = S.pc) : S₁.pc th ≠ .absent := by
    cases hs with
    | empty | early | due =>
        rw [System.setPc_pc]
        simp only [hS₀]
        exact hset (by simp)
  cases step_stepped hstep with
  | addFailed => exact hspawn _
  | add => exact hspawn _
  | addRefused | addInitFailed | addInit | startRefused | start | stopRefused | settimeRefused | settime | delRefused
  | delWaits | del | delStillWaits | delWake => exact hpresent
  | addArm | startArm | stop => simpa using hpresent
  | @wakeup p x ret hcall =>
      simp only [System.setCall_pc, System.broadcast]
      split
      · exact hset (by simp)
      · exact hpresent
  | @look x now => exact hserved (serve_served S x now) rfl
  | invoke => exact hset (by simp)
  | @finish x u r now => exact hserved (serve_served { S with svc := S.svc.expireDone x } x now) rfl
  | wake => exact hset (by simp)
  | exit => cases hret

/-- In every state that is reached while handlers return, and for every reading of the clock: a service thread can
come to wait with no timer of its queue due, and with no call beginning meanwhile, exactly if its handler is not in
a delete that never returns. -/
theorem catches_up_iff {tr : List Event} {S : System} (h : Steps service Returns service.init tr S) {th : ThreadId}
    (hpresent : S.pc th ≠ .absent) (now : ClockReading) :
    (∃ tr' S', Steps service Finishing S tr' S' ∧ S'.CaughtUp th now) ↔ ¬ S.Deadlocked (.service th) := by
  have horderly : S.Orderly := init_orderly.steps (fun _ _ => id) h
  constructor
  · rintro ⟨tr', S', hrun, ⟨deadline, hblocked⟩, -⟩ hdead
    have hrun' : Steps service Returns S tr' S' := hrun.mono fun _ _ => Action.finishing_returns
    obtain ⟨-, ⟨x, hw, -⟩, -⟩ := Deadlocked.run horderly hdead hrun'
    obtain ⟨t, reg, hcall, -⟩ := waitsFor_eq_some hw
    have horderly' : S'.Orderly := horderly.steps (fun _ _ => id) hrun'
    obtain ⟨u, r, now', hhandling⟩ := horderly'.calling th (by simp [hcall])
    rw [hblocked] at hhandling
    cases hhandling
  · intro hnot
    obtain ⟨tr₁, S₁, hrun, hidle⟩ := canReturn_of_not_deadlocked horderly hnot
    have horderly₁ : S₁.Orderly := horderly.steps (fun _ _ => Action.finishing_returns) hrun
    have hpresent₁ : S₁.pc th ≠ .absent :=
      hrun.invariant (I := fun S => S.pc th ≠ .absent)
        (fun _ _ _ _ hp ha hstep => present_step (Action.finishing_returns ha) hstep hp) hpresent
    obtain ⟨tr₂, S₂, hrun', hdone⟩ := catchUp_of_idle horderly₁ hidle hpresent₁ now
    exact ⟨_, S₂, hrun.trans hrun', hdone⟩

/-- A thread in the handler of a timer of one second, with the clock a hundred seconds on, can still catch up. -/
theorem catches_up_iff_hundred : ∃ tr S, Steps service Returns service.init tr S ∧
    (∃ now, S.pc 0 = .handling 0 1 now) ∧ S.backlog 0 (atSec 100) = 98000000001 ∧
    ∃ tr' S', Steps service Finishing S tr' S' ∧ S'.CaughtUp 0 (atSec 100) := by
  obtain ⟨S, tr, hrun, htest⟩ := exists_steps_of_exec (m := service) (s := service.init)
    (addSteps 0 timerInterval 30 0 ++ [.look 0 (atSec 2), .invoke 0])
    (p := fun r => decide (r.1.pc 0 = .handling 0 1 (atSec 2)) && decide (r.1.call (.service 0) = .idle) &&
      decide (r.1.backlog 0 (atSec 100) = 98000000001))
    (show (service.exec Returns _ _).any _ = true by decide +kernel)
  simp only [Bool.and_eq_true, decide_eq_true_eq] at htest
  obtain ⟨⟨hpc, hidle⟩, hbacklog⟩ := htest
  have hnot : ¬ S.Deadlocked (.service 0) := by
    rintro ⟨th, hw, -⟩
    simp [System.waitsFor, hidle] at hw
  exact ⟨tr, S, hrun, ⟨_, hpc⟩, hbacklog, (catches_up_iff hrun (by simp [hpc]) (atSec 100)).mpr hnot⟩

end Pc02.Timer

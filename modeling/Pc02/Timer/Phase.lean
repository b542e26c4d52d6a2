import Mathlib.Order.Bounds.Basic
import Pc02.Timer.Slots

/-!
# The phase of periodic timers

A periodic timer that is served late skips the expiries it has missed, and keeps to the grid that its
start has given it. Next to the state the instant is kept at which each timer was last started.
-/

namespace Pc02.Timer

open Function Machines

def restart (started : Option (TimerId × Int)) (start : TimerId → Int) : TimerId → Int :=
  match started with
  | some (t, i) => update start t i
  | none => start

def phased : Machine (System × (TimerId → Int)) Action Event where
  init := (System.init, fun _ => 0)
  step := fun P a => (P.1.step a).map fun r => ((r.1, restart (P.1.started a) P.2), r.2)

/-- Every run of the service is a run with start instants. -/
theorem exists_phased {ok : System → Action → Prop} {tr : List Event} {S : System}
    (h : Steps service ok service.init tr S) :
    ∃ start, Steps phased (fun P a => ok P.1 a) phased.init tr (S, start) := by
  induction h with
  | nil => exact ⟨_, .nil⟩
  | @snoc tr S₁ S₂ a ev _ hok hstep ih =>
      obtain ⟨start, hsteps⟩ := ih
      have hnext : phased.step (S₁, start) a = some ((S₂, restart (S₁.started a) start), ev) := by
        have hS : S₁.step a = some (S₂, ev) := hstep
        simp only [phased, hS, Option.map_some]
      exact ⟨_, .snoc hsteps hok hnext⟩

/-- A periodic timer expires at a whole number of periods after its start. -/
def InPhase (s : State) (start : TimerId → Int) : Prop :=
  ∀ t, (s.timer t).inuse = .inuse → (s.timer t).armed = true → (s.timer t).value.interval ≠ zeroTimespec →
    ∃ k : Nat, 1 ≤ k ∧ (s.timer t).expirytime.toNs = start t + k * (s.timer t).value.interval.toNs

theorem InPhase.rewrites {s s' : State} {start start' : TimerId → Int} {t : TimerId} {n : TimerNode} {d : Place}
    (h : InPhase s start) (hrw : State.Rewrites s s' t n d) (hother : ∀ u, u ≠ t → start' u = start u)
    (hn : n.inuse = .inuse → n.armed = true → n.value.interval ≠ zeroTimespec →
      ∃ k : Nat, 1 ≤ k ∧ n.expirytime.toNs = start' t + k * n.value.interval.toNs) : InPhase s' start' := by
  intro u
  rw [hrw.timer]
  by_cases hu : u = t
  · subst hu
    rw [update_self]
    exact hn
  · rw [update_of_ne hu, hother u hu]
    exact h u

theorem restart_other {started : Option (TimerId × Int)} {start : TimerId → Int} {t : TimerId}
    (h : ∀ u i, started = some (u, i) → u = t) (u : TimerId) (hu : u ≠ t) : restart started start u = start u := by
  cases hs : started with
  | none => rfl
  | some r =>
      obtain ⟨v, i⟩ := r
      obtain rfl := h v i hs
      exact update_of_ne hu _ _

theorem Touched.inPhase {S : System} {s' : State} {started : Option (TimerId × Int)} {start : TimerId → Int}
    (h : S.SlotsOk) (hphase : InPhase S.svc start) (ht : Touched S.svc started s') :
    InPhase s' (restart started start) := by
  cases ht with
  | keeps hk hfree =>
      intro t hin harmed hint
      rw [hk.timer] at hin harmed hint ⊢
      have hother : restart started start t = start t := by
        cases hs : started with
        | none => rfl
        | some r =>
            obtain ⟨u, i⟩ := r
            have hne : t ≠ u := fun heq => hfree u i hs (heq ▸ hin)
            exact update_of_ne hne _ _
      rw [hother]
      exact hphase t hin harmed hint
  | @data t type millisec hnone hms =>
      subst hnone
      intro u
      rw [State.setTimer_timer, update_apply]
      split
      · rename_i hu
        subst hu
        exact hphase u
      · exact hphase u
  | created hnone hrw =>
      subst hnone
      exact hphase.rewrites hrw (fun _ _ => rfl) fun _ harmed => by cases harmed
  | freed hsame _ hrw => exact hphase.rewrites hrw (restart_other hsame) fun hin => by cases hin
  | lost hnone _ hrw =>
      subst hnone
      exact hphase.rewrites hrw (fun _ _ => rfl) fun hin => by cases hin
  | stopped hsame _ _ hrw => exact hphase.rewrites hrw (restart_other hsame) fun _ harmed => by cases harmed
  | @armed _ t th its abstime now i hstart _ _ hits htoNs hrw =>
      subst hstart
      refine hphase.rewrites hrw (fun u hu => update_of_ne hu _ _) fun _ _ hint => ⟨1, le_rfl, ?_⟩
      rcases hits.2 with hzero | heq
      · exact absurd hzero hint
      · change (State.armedNode (S.svc.timer t) abstime its now).expirytime.toNs = update start t i t + _ * its.interval.toNs
        rw [htoNs, update_self, heq]
        simp
  | @expired _ t th now hnone hmem hdue hrw =>
      subst hnone
      obtain ⟨hin, harmed, hnormal⟩ := h.queued th t hmem
      have hvalue := (expiredNode_inuse (S.svc.timer t) now).2.2.2.2.1
      refine hphase.rewrites hrw (fun _ _ => rfl) fun _ _ hint => ?_
      rw [hvalue] at hint ⊢
      obtain ⟨k, hk, hold⟩ := hphase t hin harmed hint
      obtain ⟨j, hj, hnew, -⟩ := catchUp_spec now.2 (h.dataOk t).1 ((h.dataOk t).interval_pos hint) hnormal
      refine ⟨k + j, by omega, ?_⟩
      rw [State.expiredNode, if_neg hint, hnew, hold, restart]
      push_cast
      ring

theorem run_inPhase {ok : System × (TimerId → Int) → Action → Prop} {tr : List Event} {S : System}
    {start : TimerId → Int} (h : Steps phased ok phased.init tr (S, start)) : S.SlotsOk ∧ InPhase S.svc start := by
  refine h.invariant (I := fun P => P.1.SlotsOk ∧ InPhase P.1.svc P.2) ?_ ⟨init_slotsOk, fun t hin => ?_⟩
  · intro P a P' ev hP _ hstep
    obtain ⟨S₁, start₁⟩ := P
    obtain ⟨hslots, hphase⟩ := hP
    simp only [phased] at hstep
    cases hS : S₁.step a with
    | none =>
        rw [hS] at hstep
        cases hstep
    | some r =>
        rw [hS] at hstep
        obtain ⟨rfl, rfl⟩ := Prod.mk.inj (Option.some.inj hstep)
        have htouched := step_touched hslots hS
        exact ⟨htouched.1.slotsOk hslots htouched.2, htouched.1.inPhase hslots hphase⟩
  · cases hin

/-- A late periodic timer is advanced by the least number of periods that reaches the clock, and counts
those it has skipped; so in every run it stays in phase with its start. -/
theorem periodic_phase :
    (∀ now interval e : Timespec, now.Normal → interval.Normal → 0 < interval.toNs → e.Normal → e.toNs ≤ now.toNs →
      (catchUp now interval e).1.Normal ∧ ¬ timespecCompare (catchUp now interval e).1 now < 0 ∧
      ∃ k : Nat, IsLeast {k : Nat | 1 ≤ k ∧ now.toNs ≤ e.toNs + k * interval.toNs} k ∧
        (catchUp now interval e).1.toNs = e.toNs + k * interval.toNs ∧
        (catchUp now interval e).2 = min (k - 1) delaytimerMax) ∧
    ∀ (tr : List Event) (S : System), Steps service (fun _ _ => True) service.init tr S →
      ∃ start, Steps phased (fun _ _ => True) phased.init tr (S, start) ∧
        ∀ t, (S.svc.timer t).inuse = .inuse → (S.svc.timer t).armed = true →
          (S.svc.timer t).value.interval ≠ zeroTimespec →
          ∃ k : Nat, 1 ≤ k ∧
            (S.svc.timer t).expirytime.toNs = start t + k * (S.svc.timer t).value.interval.toNs := by
  constructor
  · intro now interval e hnow hi hpos he hle
    have hnormal := catchUp_normal now hi he
    obtain ⟨k, hk, htoNs, hreach, hbelow, hcount⟩ := catchUp_spec hnow hi hpos he
    refine ⟨hnormal, ?_, k, ⟨⟨hk, htoNs ▸ hreach⟩, ?_⟩, htoNs, hcount⟩
    · rw [timespecCompare_lt_toNs hnormal hnow]
      exact not_lt.mpr hreach
    · intro j hj
      by_contra hlt
      exact absurd hj.2 (not_le.mpr (hbelow j hj.1 (not_le.mp hlt)))
  · intro tr S h
    obtain ⟨start, hphased⟩ := exists_phased h
    exact ⟨start, hphased, (run_inPhase hphased).2⟩

def afterSeven : ClockReading := ⟨⟨7, 500000000⟩, by decide⟩

/-- Due at 1 s with a period of 2 s and served at 7.5 s: the next expiry is at 9 s, and three are skipped. In a
run in which a timer of one second is served late, it stays in phase. -/
theorem periodic_phase_late : ((catchUp ⟨7, 500000000⟩ ⟨2, 0⟩ ⟨1, 0⟩).1.Normal ∧
    ∃ k : Nat, (catchUp ⟨7, 500000000⟩ ⟨2, 0⟩ ⟨1, 0⟩).1.toNs = (⟨1, 0⟩ : Timespec).toNs + k * (⟨2, 0⟩ : Timespec).toNs ∧
      (catchUp ⟨7, 500000000⟩ ⟨2, 0⟩ ⟨1, 0⟩).2 = min (k - 1) delaytimerMax) ∧
    ∃ tr S start, Steps phased (fun _ _ => True) phased.init tr (S, start) ∧ Event.popped 0 0 1 ∈ tr ∧
      ∃ k : Nat, 1 ≤ k ∧ (⟨8, 0⟩ : Timespec).toNs = start 0 + k * (⟨1, 0⟩ : Timespec).toNs := by
  constructor
  · obtain ⟨hnormal, -, k, -, htoNs, hcount⟩ := periodic_phase.1 ⟨7, 500000000⟩ ⟨2, 0⟩ ⟨1, 0⟩ (by decide) (by decide)
      (by decide) (by decide) (by decide)
    exact ⟨hnormal, k, htoNs, hcount⟩
  · obtain ⟨S, tr, hsteps, htest⟩ := exists_steps_of_exec (m := service) (s := service.init)
      (addSteps 0 timerInterval 30 0 ++ [.look 0 afterSeven])
      (p := fun r => decide (Event.popped 0 0 1 ∈ r.2) && decide ((r.1.svc.timer 0).inuse = .inuse) &&
        (r.1.svc.timer 0).armed && decide ((r.1.svc.timer 0).value.interval = ⟨1, 0⟩) &&
        decide ((r.1.svc.timer 0).expirytime = ⟨8, 0⟩))
      (show (service.exec (fun _ _ => True) _ _).any _ = true by decide +kernel)
    simp only [Bool.and_eq_true, decide_eq_true_eq] at htest
    obtain ⟨⟨⟨⟨hpopped, hin⟩, harmed⟩, hint⟩, hexpiry⟩ := htest
    obtain ⟨start, hphased, hphase⟩ := periodic_phase.2 tr S hsteps
    obtain ⟨k, hk, hstart⟩ := hphase 0 hin harmed (by rw [hint]; decide)
    rw [hexpiry, hint] at hstart
    exact ⟨tr, S, start, hphased, hpopped, k, hk, hstart⟩

end Pc02.Timer

import Pc02.Timer.Effect

/-!
# The queues of the service threads

The representation of the queues in every state of every run in which handlers return normally.
Most of it is the invariant itself; that an armed timer outside its queue was popped since it was
last armed is a property of the history.
-/

namespace Pc02.Timer

open Machines

/-- The timer was popped, and not armed again since. -/
def PoppedSinceArmed (t : TimerId) (tr : List Event) : Prop :=
  ∃ pre post th reg, tr = pre ++ Event.popped th t reg :: post ∧ ∀ reg', Event.armed t reg' ∉ post

theorem PoppedSinceArmed.append {t : TimerId} {tr ev : List Event} (h : PoppedSinceArmed t tr)
    (hev : ∀ reg, Event.armed t reg ∉ ev) : PoppedSinceArmed t (tr ++ ev) := by
  obtain ⟨pre, post, th, reg, rfl, hpost⟩ := h
  refine ⟨pre, post ++ ev, th, reg, by simp, fun reg' => ?_⟩
  rw [List.mem_append, not_or]
  exact ⟨hpost reg', hev reg'⟩

/-- Armed, in use, and not waiting in the queue of its thread. -/
def State.Fired (s : State) (t : TimerId) : Prop :=
  (s.timer t).inuse = .inuse ∧ (s.timer t).armed = true ∧
    ∃ th, (s.timer t).thread = some th ∧ t ∉ s.queue th

theorem SameTimer.fired {s s' : State} {t : TimerId} (h : SameTimer s s' t) (hf : s'.Fired t) : s.Fired t := by
  obtain ⟨hin, harmed, th, hth, hout⟩ := hf
  exact ⟨h.inuse ▸ hin, h.armed ▸ harmed, th, h.thread ▸ hth, fun hmem => hout ((h.queue th).mpr hmem)⟩

/-- A step leaves a timer fired only if it was fired before and is not armed, or if it pops it. -/
theorem Effect.fired {s s' : State} {ev : List Event} (h : Effect s s' ev) {t : TimerId} (hf : s'.Fired t) :
    (s.Fired t ∧ ∀ reg, Event.armed t reg ∉ ev) ∨ ∃ th reg, ev = [.popped th t reg] := by
  have hplain (hp : ∀ e ∈ ev, e.plain = true) (reg : Nat) : Event.armed t reg ∉ ev := by
    intro hmem
    cases hp _ hmem
  have hother {u : TimerId} (same : ∀ t, t ≠ u → SameTimer s s' t) (hne : t ≠ u) : s.Fired t :=
    (same t hne).fired hf
  obtain ⟨hin, harmed, th, hth, hout⟩ := hf
  have hused {u : TimerId} (hu : (s'.timer u).inuse ≠ .inuse) : t ≠ u := by
    rintro rfl
    exact hu hin
  have hstopped {u : TimerId} (hu : (s'.timer u).armed = false) : t ≠ u := by
    rintro rfl
    rw [hu] at harmed
    cases harmed
  cases h with
  | none same next plain => exact .inl ⟨(same t).fired ⟨hin, harmed, th, hth, hout⟩, hplain plain⟩
  | create u th' same wasFree isInuse unarmed thread reg next plain =>
      have hne : t ≠ u := hstopped unarmed
      exact .inl ⟨hother same hne, hplain plain⟩
  | fail u same wasFree isFree reg next plain =>
      have hne : t ≠ u := hused (by simp [isFree])
      exact .inl ⟨hother same hne, hplain plain⟩
  | arm u th' same wasInuse isInuse armed thread thread' event queued next plain =>
      have hne : t ≠ u := by
        rintro rfl
        obtain rfl : th' = th := Option.some.inj (thread'.symm.trans hth)
        exact hout queued
      refine .inl ⟨hother same hne, fun reg hmem => ?_⟩
      rcases plain _ hmem with hp | heq
      · cases hp
      · exact hne (Event.armed.inj heq).1
  | stop u same wasInuse isInuse unarmed thread event next plain =>
      have hne : t ≠ u := hstopped unarmed
      exact .inl ⟨hother same hne, hplain plain⟩
  | refresh u same wasFree isFree event next plain =>
      have hne : t ≠ u := hused (by simp [isFree])
      exact .inl ⟨hother same hne, hplain plain⟩
  | release u p th' called same wasInuse isFree event next events =>
      have hne : t ≠ u := hused (by simp [isFree])
      exact .inl ⟨hother same hne, by simp [events]⟩
  | lose u p th' called same unused isDeleted event next events =>
      have hne : t ≠ u := hused (by simp [isDeleted])
      exact .inl ⟨hother same hne, by simp [events]⟩
  | pop u th' same queued inuse armed thread event next events =>
      by_cases hne : t = u
      · subst hne
        exact .inr ⟨th', _, events⟩
      · exact .inl ⟨hother same hne, by simp [events]⟩

theorem run_fired {tr : List Event} {S : System} (h : Steps service Returns service.init tr S) :
    ∀ t, S.svc.Fired t → PoppedSinceArmed t tr := by
  refine (run_rule (I := fun tr S => ∀ t, S.svc.Fired t → PoppedSinceArmed t tr) (fun _ _ => id) ?_ ?_ h).2
  · intro t hf
    cases hf.1
  · intro tr S a S' ev hinv _ hpopped _ ht t hf
    rcases (ht.effect hinv).fired hf with ⟨hf, hev⟩ | ⟨th, reg, rfl⟩
    · exact (hpopped t hf).append hev
    · exact ⟨tr, [], th, reg, rfl, by simp⟩

/-- In every state of every run in which handlers return normally: the queues are sorted and
normalised; no timer is queued twice, and the free list holds the free timers; a queued timer is in
use, armed and owned by the thread; every timer in use is served by an active thread; and an armed
timer outside its thread's queue is a one-shot that was popped. -/
theorem queue_representation {tr : List Event} {S : System}
    (h : Steps service Returns service.init tr S) :
    (∀ th ∈ S.svc.threadActiveList,
      (S.svc.queue th).Pairwise (fun a b =>
        timespecCompare (S.svc.timer a).expirytime (S.svc.timer b).expirytime ≤ 0) ∧
      ∀ t ∈ S.svc.queue th, 0 ≤ (S.svc.timer t).expirytime.nsec ∧
        (S.svc.timer t).expirytime.nsec < 1000000000) ∧
    ((∀ th, (S.svc.queue th).Nodup) ∧
      (∀ t th th', t ∈ S.svc.queue th → t ∈ S.svc.queue th' → th = th') ∧
      ∀ t, t ∈ S.svc.timerFreeList ↔ (S.svc.timer t).inuse = .free) ∧
    (∀ th t, t ∈ S.svc.queue th → (S.svc.timer t).inuse = .inuse ∧ (S.svc.timer t).armed = true ∧
      (S.svc.timer t).thread = some th) ∧
    (∀ t, (S.svc.timer t).inuse = .inuse →
      ∃ th ∈ S.svc.threadActiveList, (S.svc.timer t).thread = some th) ∧
    ∀ t th, (S.svc.timer t).inuse = .inuse → (S.svc.timer t).armed = true →
      (S.svc.timer t).thread = some th → t ∉ S.svc.queue th →
      (S.svc.timer t).value.interval = zeroTimespec ∧ PoppedSinceArmed t tr := by
  have hwf := (run_inv h).wf
  refine ⟨fun th _ => ⟨?_, fun t ht => (hwf.queued th t ht).2.2.2⟩,
    ⟨hwf.queueNodup, fun t th th' => hwf.queue_unique, hwf.freeIff⟩, fun th t ht => ?_, hwf.placed, ?_⟩
  · exact (hwf.sorted th).imp fun hab => (timespecCompare_le _ _).mpr hab
  · obtain ⟨hin, harmed, hth, -⟩ := hwf.queued th t ht
    exact ⟨hin, harmed, hth⟩
  · intro t th hin harmed hth hout
    exact ⟨hwf.dequeued t th hin harmed hth hout, run_fired h t ⟨hin, harmed, th, hth, hout⟩⟩

/-- A one-shot timer that has expired is armed and in no queue. -/
theorem queue_representation_oneshot : ∃ tr S, Steps service Returns service.init tr S ∧
    (S.svc.timer 0).armed = true ∧ S.svc.queue 0 = [] ∧
    (S.svc.timer 0).value.interval = zeroTimespec ∧ PoppedSinceArmed 0 tr := by
  obtain ⟨S, tr, hrun, htest⟩ := exists_steps_of_exec (m := service) (s := service.init)
    (addSteps 0 timerOneshot 30 0 ++ [.look 0 (atSec 2)])
    (p := fun r => (r.1.svc.timer 0).armed && decide ((r.1.svc.timer 0).inuse = .inuse) &&
      decide ((r.1.svc.timer 0).thread = some 0) && (r.1.svc.queue 0).isEmpty)
    (show (service.exec Returns _ _).any _ = true by decide +kernel)
  simp only [Bool.and_eq_true, decide_eq_true_eq, List.isEmpty_iff] at htest
  obtain ⟨⟨⟨harmed, hin⟩, hth⟩, hq⟩ := htest
  obtain ⟨hinterval, hpopped⟩ := (queue_representation hrun).2.2.2.2 0 0 hin harmed hth (by simp [hq])
  exact ⟨tr, S, hrun, harmed, hq, hinterval, hpopped⟩

end Pc02.Timer

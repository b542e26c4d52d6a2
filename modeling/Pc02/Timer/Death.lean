import Pc02.Timer.Invariant

/-!
# The death of a service thread

A handler may terminate its thread. `thread_cleanup` keeps the node only if timers are queued on it,
and nothing counts the stopped or expired timers that belong to it; `__timer_create` gives back
the node of a thread it cannot start, whether or not timers are queued there. Runs in which no node
is given back while a timer in use belongs to it keep every timer served.
-/

namespace Pc02.Timer

open Machines

instance (s : State) (attr : Attr) (clock : ClockId) (created : Bool) : Decidable (s.CreateSafe attr clock created) :=
  inferInstanceAs (Decidable (created = false → s.timerFreeList ≠ [] →
    ∀ th, s.timerThreadFindMatching attr clock = some th → (s.thread th).existsFlag = false → s.Unused th))

instance (S : System) : (a : Action) → Decidable (a.Safe S)
  | .add _ args created => inferInstanceAs (Decidable (S.svc.CreateSafe args.attr .monotonic created))
  | .exit th _ => inferInstanceAs (Decidable (S.svc.queue th = [] → S.svc.Unused th))
  | .addInit _ | .addArm .. | .start .. | .startArm .. | .stop .. | .settime .. | .del .. | .delWake _
  | .wakeup _ | .look .. | .invoke _ | .finish _ | .wake _ => .isTrue trivial

/-- Threads may die and thread creation may fail, but no node is given back while a timer in use
belongs to it: then every timer in use has its node on the active list, initialising a node drops no
queued timer, and no assertion fails. -/
theorem timers_survive {tr : List Event} {S : System}
    (h : Steps service (fun S a => a.Safe S) service.init tr S) :
    (∀ t, (S.svc.timer t).inuse = .inuse → ∃ th, (S.svc.timer t).thread = some th ∧
      th ∈ S.svc.threadActiveList ∧ th ∉ S.svc.threadFreeList) ∧
    (∀ attr clock u th, S.svc.timerThreadAlloc attr clock = some (u, th) →
      ∀ x, u.queue x = S.svc.queue x) ∧
    S.svc.aborted = false := by
  have hwf := (safe_run_inv h).wf
  refine ⟨fun t hin => ?_, fun attr clock u th hget => (State.timerThreadAlloc_got hwf hget).queue, hwf.running⟩
  obtain ⟨th, hactive, hth⟩ := hwf.placed t hin
  refine ⟨th, hth, hactive, fun hfree => ?_⟩
  exact (List.nodup_append.mp hwf.threadNodup).2.2 th hfree th hactive rfl

/-- A thread that dies while a timer is queued on it is replaced, and the timer is kept. -/
theorem timers_survive_replacement : ∃ tr S, Steps service (fun S a => a.Safe S) service.init tr S ∧
    (S.svc.timer 0).inuse = .inuse ∧ ∃ th, (S.svc.timer 0).thread = some th ∧
      th ∈ S.svc.threadActiveList ∧ th ∉ S.svc.threadFreeList := by
  obtain ⟨S, tr, hrun, htest⟩ := exists_steps_of_exec (m := service) (s := service.init)
    (addSteps 0 timerInterval 30 0 ++ [.look 0 (atSec 2), .invoke 0, .exit 0 true])
    (p := fun r => decide ((r.1.svc.timer 0).inuse = .inuse))
    (show (service.exec (fun S a => a.Safe S) _ _).any _ = true by decide +kernel)
  have hin := decide_eq_true_eq.mp htest
  exact ⟨tr, S, hrun, hin, (timers_survive hrun).1 0 hin⟩

/-- The handler of a one-shot timer, the only one on its node, terminates the thread. -/
def orphaned : List Action :=
  addSteps 0 timerOneshot 30 0 ++ [.look 0 (atSec 2), .invoke 0, .exit 0 true]

/-- The orphaned timer is started again once every other node is taken. -/
def orphanQueued : List Action :=
  orphaned ++
    (List.range 15).flatMap (fun i => addSteps (i + 1) timerOneshot (Int.ofNat i + 1) 3) ++
    [.start (.client 0) (some 0), .startArm (.client 0) (atSec 4), .wakeup (.client 0)]

/-- A thread with a queued timer dies, is not replaced, and cannot be started by the next add. -/
def abandoned : List Action :=
  addSteps 0 timerOneshot 30 0 ++ (addSteps 1 timerOneshot 30 1).take 3 ++
    [.look 0 (atSec 1), .invoke 0, .exit 0 false,
      .add (.client 2) ⟨30, 1000, timerOneshot, some 1, 0, true⟩ false]

/-- Without the condition a timer in use ends up on a free node, is dropped from its queue when the
node is initialised for another priority, and the assertion of `thread_deinit` can fail. -/
theorem timers_lost :
    (∃ tr S, Steps service (fun _ _ => True) service.init tr S ∧
      ∃ t th, (S.svc.timer t).inuse = .inuse ∧ (S.svc.timer t).thread = some th ∧ th ∈ S.svc.threadFreeList) ∧
    (∃ tr S, Steps service (fun _ _ => True) service.init tr S ∧
      ∃ attr clock u th x, S.svc.timerThreadAlloc attr clock = some (u, th) ∧ u.queue x ≠ S.svc.queue x) ∧
    ∃ tr S, Steps service (fun _ _ => True) service.init tr S ∧ S.svc.aborted = true := by
  refine ⟨?_, ?_, ?_⟩
  · obtain ⟨S, tr, hrun, htest⟩ := exists_steps_of_exec (m := service) (s := service.init) orphaned
      (p := fun r => decide ((r.1.svc.timer 0).inuse = .inuse) && decide ((r.1.svc.timer 0).thread = some 0) &&
        decide (0 ∈ r.1.svc.threadFreeList))
      (show (service.exec (fun _ _ => True) _ _).any _ = true by decide +kernel)
    simp only [Bool.and_eq_true, decide_eq_true_eq] at htest
    exact ⟨tr, S, hrun, 0, 0, htest.1.1, htest.1.2, htest.2⟩
  · obtain ⟨S, tr, hrun, htest⟩ := exists_steps_of_exec (m := service) (s := service.init) orphanQueued
      (p := fun r => (r.1.svc.timerThreadAlloc ⟨.rr, 40⟩ .monotonic).any fun (u : State × ThreadId) =>
        decide (u.1.queue 0 ≠ r.1.svc.queue 0))
      (show (service.exec (fun _ _ => True) _ _).any _ = true by decide +kernel)
    obtain ⟨⟨u, th⟩, hget, hne⟩ := (Option.any_eq_true _ _).mp htest
    exact ⟨tr, S, hrun, _, _, u, th, 0, hget, decide_eq_true_eq.mp hne⟩
  · obtain ⟨S, tr, hrun, htest⟩ := exists_steps_of_exec (m := service) (s := service.init) abandoned
      (p := fun r => r.1.svc.aborted)
      (show (service.exec (fun _ _ => True) _ _).any _ = true by decide +kernel)
    exact ⟨tr, S, hrun, htest⟩

end Pc02.Timer

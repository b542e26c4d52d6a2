import Pc02.Timer.Registration
import Mathlib.Data.Fintype.Card
import Mathlib.Data.Fintype.Fin

/-!
# The pool of timer slots

`__timer_delete` does not check its timer again after it has waited for a handler. If another delete
released the slot in the meantime, it marks a free slot deleted and takes the reference count below
zero: the slot is on no list and is never handed out again. In runs where that does not happen no
slot is lost.
-/

namespace Pc02.Timer

open Machines

/-- Handlers return, and a delete that leaves its wait finds its timer still valid. -/
def Action.stillValid (S : System) (a : Action) : Bool :=
  a.returns &&
    match a with
    | .delWake p =>
        match S.call p with
        | .deleting t th _ => S.svc.deleteMustWait t th p || S.svc.timerValid t
        | _ => true
    | _ => true

/-- Every slot is free or in use, and no released registration is in use. -/
structure PoolOk (tr : List Event) (s : State) : Prop where
  numbered : s.Numbered
  kept : ∀ t, (s.timer t).inuse ≠ .deleted
  nodup : (tr.filterMap Event.acted).Nodup
  dead : ∀ reg ∈ tr.filterMap Event.acted, s.Dead reg

theorem Deletes.inuse {S : System} {a : Action} (hok : a.stillValid S = true) {p : Pthread} {t : TimerId}
    {o : Option ThreadId} {called : Nat} (hd : Deletes S a p t o called) : (S.svc.timer t).inuse = .inuse := by
  cases hd with
  | direct _ _ hin => exact hin
  | resumed ha hcall hwait =>
      subst ha
      simpa [Action.stillValid, Action.returns, hcall, hwait, State.timerValid] using hok

theorem Trans.not_deleted {S S' : System} {a : Action} {ev : List Event} (h : S.Inv)
    (hok : a.stillValid S = true) (ht : Trans S a S' ev) (hkept : ∀ t, (S.svc.timer t).inuse ≠ .deleted) :
    ∀ t, (S'.svc.timer t).inuse ≠ .deleted := by
  have hone {u : TimerId} (same : ∀ t, t ≠ u → SameTimer S.svc S'.svc t)
      (hu : (S'.svc.timer u).inuse ≠ .deleted) (t : TimerId) : (S'.svc.timer t).inuse ≠ .deleted := by
    by_cases htu : t = u
    · exact htu ▸ hu
    · exact (same t htu).inuse ▸ hkept t
  have heffect := ht.effect h
  cases heffect with
  | none same => exact fun t => (same t).inuse ▸ hkept t
  | create u th same wasFree isInuse => exact hone same (by simp [isInuse])
  | fail u same wasFree isFree => exact hone same (by simp [isFree])
  | arm u th same wasInuse isInuse => exact hone same (by simp [isInuse])
  | stop u same wasInuse isInuse => exact hone same (by simp [isInuse])
  | refresh u same wasFree isFree => exact hone same (by simp [isFree])
  | release u p th called same wasInuse isFree => exact hone same (by simp [isFree])
  | lose u p th called same unused isDeleted event next events =>
      subst events
      exact absurd ((ht.deletes (.head _)).inuse hok) unused
  | pop u th same queued inuse => exact hone same (inuse ▸ hkept u)

theorem Trans.poolOk {S S' : System} {a : Action} {tr ev : List Event} (h : S.Inv)
    (hok : a.stillValid S = true) (ht : Trans S a S' ev) (hp : PoolOk tr S.svc) : PoolOk (tr ++ ev) S'.svc := by
  have heffect := ht.effect h
  have hrenewal := heffect.renewal
  have hnumbered := hrenewal.numbered hp.numbered
  refine ⟨hnumbered, ht.not_deleted h hok hp.kept, ?_, ?_⟩
  · rw [List.filterMap_append]
    rcases heffect.acted with hnone | ⟨u, p, o, called, rfl, -, -⟩
    · simpa [hnone] using hp.nodup
    · -- the registration was in use, so it has not been released before
      have hin := (ht.deletes (.head _)).inuse hok
      rw [acted_deleted]
      refine hp.nodup.append (List.nodup_singleton _) ?_
      intro reg hold hnew
      obtain rfl := List.mem_singleton.mp hnew
      exact (hp.dead _ hold).2 u rfl hin
  · intro reg hreg
    rw [List.filterMap_append, List.mem_append] at hreg
    rcases hreg with hold | hnew
    · exact hrenewal.dead (hp.dead reg hold)
    · rcases heffect.acted with hnone | ⟨u, p, o, called, rfl, hout, hevent⟩
      · simp [hnone] at hnew
      · rw [acted_deleted] at hnew
        obtain rfl := List.mem_singleton.mp hnew
        exact hevent ▸ hnumbered.dead hout

theorem State.Wf.pool_size {s : State} (h : s.Wf) (hkept : ∀ t, (s.timer t).inuse ≠ .deleted) :
    s.timerFreeList.length + (Finset.univ.filter fun t => (s.timer t).inuse = .inuse).card = timerMax := by
  have hfree : s.timerFreeList.toFinset = Finset.univ.filter fun t => ¬ (s.timer t).inuse = .inuse := by
    ext t
    have ht := hkept t
    cases hin : (s.timer t).inuse <;> simp_all [h.freeIff]
  rw [← List.toFinset_card_of_nodup h.freeNodup, hfree, add_comm, Finset.card_filter_add_card_filter_not]
  simp

/-- In every run in which each delete that has waited finds its timer still valid: every slot is
free, with no reference and once on the free list, or in use, with one reference and not on it; no
slot is missing; and no registration is deleted twice. -/
theorem pool_conserved {tr : List Event} {S : System}
    (h : Steps service (fun S a => a.stillValid S = true) service.init tr S) :
    (∀ t, ((S.svc.timer t).inuse = .free ∧ (S.svc.timer t).refcount = 0 ∧ S.svc.timerFreeList.count t = 1) ∨
      ((S.svc.timer t).inuse = .inuse ∧ (S.svc.timer t).refcount = 1 ∧ t ∉ S.svc.timerFreeList)) ∧
    S.svc.timerFreeList.length + (Finset.univ.filter fun t => (S.svc.timer t).inuse = .inuse).card = timerMax ∧
    (tr.filterMap Event.acted).Nodup := by
  have hret (S : System) (a : Action) (hok : a.stillValid S = true) : a.returns = true := by
    simp only [Action.stillValid, Bool.and_eq_true] at hok
    exact hok.1
  have hinit : PoolOk [] initModule := ⟨initModule_numbered, nofun, List.nodup_nil, by simp⟩
  obtain ⟨hinv, hp⟩ := run_rule (I := fun tr S => PoolOk tr S.svc) hret hinit
    (fun _ _ _ _ _ hinv _ hp hok ht => ht.poolOk hinv hok hp) h
  refine ⟨fun t => ?_, hinv.wf.pool_size hp.kept, hp.nodup⟩
  have href := hinv.wf.refOk t
  have hfree := hinv.wf.freeIff t
  rw [TimerNode.RefOk] at href
  cases hin : (S.svc.timer t).inuse with
  | free =>
      rw [hin] at href
      exact .inl ⟨rfl, href, List.count_eq_one_of_mem hinv.wf.freeNodup (hfree.mpr hin)⟩
  | inuse =>
      rw [hin] at href
      exact .inr ⟨rfl, href, fun hmem => by simp [hfree.mp hmem] at hin⟩
  | deleted => exact absurd hin (hp.kept t)

/-- Two clients delete a timer whose handler is running. -/
def twoDeletes : List Action :=
  addSteps 0 timerOneshot 30 0 ++ [.look 0 (atSec 2), .del (.client 1) (some 0), .del (.client 2) (some 0),
    .invoke 0, .finish 0, .delWake (.client 1), .delWake (.client 2)]

/-- Both are told that they deleted it. The slot is deleted twice and lost. -/
theorem twoDeletes_lose_slot : ∃ tr S, Steps service Returns service.init tr S ∧
    ¬ (∀ t, ((S.svc.timer t).inuse = .free ∧ (S.svc.timer t).refcount = 0 ∧ S.svc.timerFreeList.count t = 1) ∨
      ((S.svc.timer t).inuse = .inuse ∧ (S.svc.timer t).refcount = 1 ∧ t ∉ S.svc.timerFreeList)) ∧
    ¬ (S.svc.timerFreeList.length + (Finset.univ.filter fun t => (S.svc.timer t).inuse = .inuse).card = timerMax) ∧
    ¬ (tr.filterMap Event.acted).Nodup := by
  obtain ⟨S, tr, hrun, htest⟩ := exists_steps_of_exec (m := service) (s := service.init) twoDeletes
    (p := fun r => decide ((r.1.svc.timer 0).inuse = .deleted) &&
      decide (r.1.svc.timerFreeList.length + (Finset.univ.filter fun t => (r.1.svc.timer t).inuse = .inuse).card = 255) &&
      decide (r.2.filterMap Event.acted = [1, 1]))
    (show (service.exec Returns _ _).any _ = true by decide +kernel)
  simp only [Bool.and_eq_true, decide_eq_true_eq] at htest
  obtain ⟨⟨hdeleted, hsize⟩, hacted⟩ := htest
  refine ⟨tr, S, hrun, fun hall => ?_, by simp [hsize], by simp [hacted]⟩
  have h0 := hall 0
  simp [hdeleted] at h0

/-- A delete that waits alone gives the slot back. -/
theorem pool_conserved_one_delete : ∃ tr S,
    Steps service (fun S a => a.stillValid S = true) service.init tr S ∧
    tr.filterMap Event.acted = [1] ∧ S.svc.timerFreeList.count 0 = 1 := by
  obtain ⟨S, tr, hrun, htest⟩ := exists_steps_of_exec (m := service) (s := service.init)
    (addSteps 0 timerOneshot 30 0 ++
      [.look 0 (atSec 2), .del (.client 1) (some 0), .invoke 0, .finish 0, .delWake (.client 1)])
    (p := fun r => decide (r.2.filterMap Event.acted = [1]) && decide ((r.1.svc.timer 0).inuse = .free))
    (show (service.exec (fun S a => a.stillValid S = true) _ _).any _ = true by decide +kernel)
  simp only [Bool.and_eq_true, decide_eq_true_eq] at htest
  refine ⟨tr, S, hrun, htest.1, ?_⟩
  rcases (pool_conserved hrun).1 0 with ⟨-, -, hcount⟩ | ⟨hin, -, -⟩
  · exact hcount
  · simp [htest.2] at hin

end Pc02.Timer

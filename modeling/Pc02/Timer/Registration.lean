import Pc02.Timer.Effect

/-!
# Registrations

Slots are reused, registrations are not: a slot's registration changes only while the slot is free,
and then to a new number. Once no slot holds a registration in use, none ever will again.
-/

namespace Pc02.Timer

structure SameReg (s s' : State) (t : TimerId) : Prop where
  event : (s'.timer t).event = (s.timer t).event
  inuse : (s'.timer t).inuse = .inuse → (s.timer t).inuse = .inuse
  thread : (s'.timer t).inuse = .inuse → (s'.timer t).thread = (s.timer t).thread

/-- What a step does to the registrations. -/
inductive Renewal (s s' : State) : Prop
  | kept (next : s'.nextReg = s.nextReg) (all : ∀ t, SameReg s s' t)
  | renewed (u : TimerId) (others : ∀ t, t ≠ u → SameReg s s' t) (wasFree : (s.timer u).inuse = .free)
      (reg : (s'.timer u).event.reg = s.nextReg) (next : s'.nextReg = s.nextReg + 1)

theorem SameTimer.sameReg {s s' : State} {t : TimerId} (h : SameTimer s s' t) : SameReg s s' t :=
  ⟨h.event, fun hin => h.inuse ▸ hin, fun _ => h.thread⟩

theorem Effect.renewal {s s' : State} {ev : List Event} (h : Effect s s' ev) : Renewal s s' := by
  -- all effects but a creation keep the number of the one slot they touch
  have hone {u : TimerId} (next : s'.nextReg = s.nextReg) (same : ∀ t, t ≠ u → SameTimer s s' t)
      (hu : SameReg s s' u) : Renewal s s' := by
    refine .kept next fun t => ?_
    by_cases ht : t = u
    · exact ht ▸ hu
    · exact (same t ht).sameReg
  cases h with
  | none same next => exact .kept next fun t => (same t).sameReg
  | create u th same wasFree isInuse unarmed thread reg next =>
      exact .renewed u (fun t ht => (same t ht).sameReg) wasFree reg next
  | fail u same wasFree isFree reg next =>
      exact .renewed u (fun t ht => (same t ht).sameReg) wasFree reg next
  | arm u th same wasInuse isInuse armed thread thread' event queued next =>
      exact hone next same ⟨event, fun _ => wasInuse, fun _ => thread'.trans thread.symm⟩
  | stop u same wasInuse isInuse unarmed thread event next =>
      exact hone next same ⟨event, fun _ => wasInuse, fun _ => thread⟩
  | refresh u same wasFree isFree event next =>
      exact hone next same ⟨event, fun hin => by simp [isFree] at hin, fun hin => by simp [isFree] at hin⟩
  | release u p th called same wasInuse isFree event next =>
      exact hone next same ⟨event, fun hin => by simp [isFree] at hin, fun hin => by simp [isFree] at hin⟩
  | lose u p th called same unused isDeleted event next =>
      exact hone next same
        ⟨event, fun hin => by simp [isDeleted] at hin, fun hin => by simp [isDeleted] at hin⟩
  | pop u th same queued inuse armed thread event next =>
      exact hone next same ⟨event, fun hin => inuse ▸ hin, fun _ => thread⟩

/-- Numbers are given out in order, to one slot each. Zero is what static storage holds. -/
structure State.Numbered (s : State) : Prop where
  fresh : ∀ t, (s.timer t).event.reg < s.nextReg
  pos : ∀ t, (s.timer t).inuse = .inuse → (s.timer t).event.reg ≠ 0
  inj : ∀ t t', (s.timer t).event.reg = (s.timer t').event.reg → (s.timer t).event.reg ≠ 0 → t = t'

/-- No slot holds the registration in use, and none can come to. -/
def State.Dead (s : State) (reg : Nat) : Prop :=
  reg < s.nextReg ∧ ∀ t, (s.timer t).event.reg = reg → (s.timer t).inuse ≠ .inuse

theorem initModule_numbered : initModule.Numbered := by
  refine ⟨fun _ => Nat.one_pos, fun t ht => ?_, fun t t' _ hne => ?_⟩
  · cases ht
  · exact absurd rfl hne

theorem Renewal.next_le {s s' : State} (h : Renewal s s') : s.nextReg ≤ s'.nextReg := by
  cases h with
  | kept next => exact next.ge
  | renewed u others wasFree reg next => exact next ▸ Nat.le_succ _

theorem Renewal.numbered {s s' : State} (h : Renewal s s') (hn : s.Numbered) : s'.Numbered := by
  cases h with
  | kept next all =>
      refine ⟨fun t => ?_, fun t ht => ?_, fun t t' heq hne => ?_⟩
      · rw [(all t).event, next]
        exact hn.fresh t
      · rw [(all t).event]
        exact hn.pos t ((all t).inuse ht)
      · rw [(all t).event] at heq hne
        rw [(all t').event] at heq
        exact hn.inj t t' heq hne
  | renewed u others wasFree reg next =>
      have hother {t : TimerId} (ht : t ≠ u) : (s'.timer t).event.reg < s.nextReg := by
        rw [(others t ht).event]
        exact hn.fresh t
      refine ⟨fun t => ?_, fun t hin => ?_, fun t t' heq hne => ?_⟩
      · by_cases ht : t = u
        · rw [ht, reg, next]
          exact Nat.lt_succ_self _
        · exact next ▸ Nat.lt_succ_of_lt (hother ht)
      · by_cases ht : t = u
        · rw [ht, reg]
          exact ((Nat.zero_le _).trans_lt (hn.fresh u)).ne'
        · rw [(others t ht).event]
          exact hn.pos t ((others t ht).inuse hin)
      · by_cases ht : t = u <;> by_cases ht' : t' = u
        · rw [ht, ht']
        · rw [ht, reg] at heq
          exact absurd heq (hother ht').ne'
        · rw [ht', reg] at heq
          exact absurd heq (hother ht).ne
        · rw [(others t ht).event] at heq hne
          rw [(others t' ht').event] at heq
          exact hn.inj t t' heq hne

theorem Renewal.dead {s s' : State} (h : Renewal s s') {reg : Nat} (hd : s.Dead reg) : s'.Dead reg := by
  have hkept {t : TimerId} (hsame : SameReg s s' t) (ht : (s'.timer t).event.reg = reg) :
      (s'.timer t).inuse ≠ .inuse :=
    fun hin => hd.2 t (hsame.event ▸ ht) (hsame.inuse hin)
  refine ⟨hd.1.trans_le h.next_le, fun t ht => ?_⟩
  cases h with
  | kept next all => exact hkept (all t) ht
  | renewed u others wasFree hreg next =>
      by_cases htu : t = u
      · rw [htu, hreg] at ht
        exact absurd ht hd.1.ne'
      · exact hkept (others t htu) ht

theorem State.Numbered.dead {s : State} (h : s.Numbered) {t : TimerId} (ht : (s.timer t).inuse ≠ .inuse) :
    s.Dead (s.timer t).event.reg := by
  refine ⟨h.fresh t, fun t' heq hin => ht ?_⟩
  have hsame : t' = t := h.inj t' t heq (h.pos t' hin)
  exact hsame ▸ hin

def Event.acted : Event → Option Nat
  | .deleted _ _ _ _ acted => some acted
  | _ => none

theorem Event.acted_of_plain {e : Event} (h : e.plain = true) : e.acted = none := by
  cases e <;> first | rfl | cases h

theorem acted_deleted (p : Pthread) (t : TimerId) (o : Option ThreadId) (called acted : Nat) (ret : Ret) :
    [Event.deleted p t o called acted, .returned p ret].filterMap Event.acted = [acted] := rfl

theorem Effect.acted {s s' : State} {ev : List Event} (h : Effect s s' ev) :
    ev.filterMap Event.acted = [] ∨ ∃ u p o called,
      ev = [.deleted p u o called (s.timer u).event.reg, .returned p (.code 0)] ∧
      (s'.timer u).inuse ≠ .inuse ∧ (s'.timer u).event = (s.timer u).event := by
  have hplain (hp : ∀ e ∈ ev, e.plain = true) : ev.filterMap Event.acted = [] :=
    List.filterMap_eq_nil_iff.mpr fun e he => Event.acted_of_plain (hp e he)
  cases h with
  | none _ _ plain => exact .inl (hplain plain)
  | create _ _ _ _ _ _ _ _ _ plain => exact .inl (hplain plain)
  | fail _ _ _ _ _ _ plain => exact .inl (hplain plain)
  | arm _ _ _ _ _ _ _ _ _ _ _ plain =>
      refine .inl (List.filterMap_eq_nil_iff.mpr fun e he => ?_)
      rcases plain e he with hp | rfl
      · exact Event.acted_of_plain hp
      · rfl
  | stop _ _ _ _ _ _ _ _ plain => exact .inl (hplain plain)
  | refresh _ _ _ _ _ _ plain => exact .inl (hplain plain)
  | release u p o called _ _ isFree event _ events =>
      exact .inr ⟨u, p, o, called, events, by simp [isFree], event⟩
  | lose u p o called _ _ isDeleted event _ events =>
      exact .inr ⟨u, p, o, called, events, by simp [isDeleted], event⟩
  | pop _ _ _ _ _ _ _ _ _ events => exact .inl (by simp [events, Event.acted])

theorem Effect.deleted {s s' : State} {ev : List Event} (h : Effect s s' ev) {p : Pthread} {t : TimerId}
    {o : Option ThreadId} {called acted : Nat} (hmem : .deleted p t o called acted ∈ ev) :
    (s'.timer t).inuse ≠ .inuse ∧ (s'.timer t).event = (s.timer t).event := by
  rcases h.acted with hnone | ⟨u, q, o', called', rfl, hout, hevent⟩
  · have hacted := List.filterMap_eq_nil_iff.mp hnone _ hmem
    cases hacted
  · obtain ⟨-, rfl, -⟩ : p = q ∧ t = u ∧ _ := by simpa using hmem
    exact ⟨hout, hevent⟩

end Pc02.Timer

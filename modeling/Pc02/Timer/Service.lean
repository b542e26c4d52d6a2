import Pc02.Timer.Invariant

/-!
# Service threads

What a thread node says about the thread that serves it, at every point of `thread_func`.
-/

namespace Pc02.Timer

def ServicePc.serving : ServicePc → Option (TimerId × Nat)
  | .expiring t reg _ => some (t, reg)
  | .handling t reg _ => some (t, reg)
  | _ => none

/-- Threads run on active nodes, under the id that the node records, and the node announces the
timer that its thread is serving. -/
structure System.Manned (S : System) : Prop where
  active : ∀ th, S.pc th ≠ .absent → th ∈ S.svc.threadActiveList
  id : ∀ th ∈ S.svc.threadActiveList, (S.svc.thread th).id = some (.service th)
  current : ∀ th t reg, (S.pc th).serving = some (t, reg) → (S.svc.thread th).currentTimer = some t

theorem System.Manned.active_of_serving {S : System} (h : S.Manned) {th : ThreadId} {t : TimerId} {reg : Nat}
    (hs : (S.pc th).serving = some (t, reg)) : th ∈ S.svc.threadActiveList :=
  h.active th fun habsent => by simp [habsent, ServicePc.serving] at hs

theorem System.Manned.mustWait {S : System} (h : S.Manned) {th : ThreadId} {t : TimerId} {reg : Nat}
    (hs : (S.pc th).serving = some (t, reg)) (p : Pthread) :
    S.svc.deleteMustWait t th p = true ↔ p ≠ .service th := by
  have hcur := h.current th t reg hs
  have hid := h.id th (h.active_of_serving hs)
  simp only [State.deleteMustWait, hcur, hid, decide_eq_true_eq, true_and, ne_eq, Option.some.injEq]
  exact not_congr eq_comm

theorem System.Manned.same {S S' : System} (h : S.Manned) (hsvc : SameThreads S.svc S'.svc)
    (hpc : S'.pc = S.pc) : S'.Manned := by
  refine ⟨fun th hth => ?_, fun th hth => ?_, fun th t reg hs => ?_⟩
  · rw [hsvc.active]
    exact h.active th (hpc ▸ hth)
  · rw [hsvc.id]
    exact h.id th (hsvc.active ▸ hth)
  · rw [hsvc.currentTimer]
    exact h.current th t reg (hpc ▸ hs)

theorem System.Manned.setPc {S : System} (h : S.Manned) {th : ThreadId} {c : ServicePc}
    (hactive : S.pc th ≠ .absent)
    (hc : ∀ t reg, c.serving = some (t, reg) → (S.svc.thread th).currentTimer = some t) :
    (S.setPc th c).Manned := by
  refine ⟨fun x hx => ?_, h.id, fun x t reg hs => ?_⟩
  · by_cases hne : x = th
    · exact hne ▸ h.active th hactive
    · exact h.active x (by simpa [hne] using hx)
  · by_cases hne : x = th
    · subst hne
      exact hc t reg (by simpa using hs)
    · exact h.current x t reg (by simpa [hne] using hs)

theorem System.Manned.spawn {S : System} (h : S.Manned) {svc : State} (hr : Recruited S.svc svc) :
    (S.spawn svc).Manned := by
  refine ⟨fun x hx => ?_, fun x hx => ?_, fun x t reg hs => ?_⟩
  · simp only [System.spawn] at hx
    split at hx
    · rename_i hnew
      exact hr.started x hnew.1 hnew.2
    · exact (hr.kept x (h.active x hx)).1
  · rcases hr.active x hx with hold | ⟨-, hid⟩
    · exact (hr.kept x hold).2.2.1.trans (h.id x hold)
    · exact hid
  · simp only [System.spawn] at hs
    split at hs
    · simp [ServicePc.serving] at hs
    · exact (hr.kept x (h.active_of_serving hs)).2.2.2.trans (h.current x t reg hs)

theorem setPc_setPc (S : System) (th : ThreadId) (c c' : ServicePc) : (S.setPc th c).setPc th c' = S.setPc th c' := by
  simp [System.setPc]

theorem System.Manned.announce {S : System} {th : ThreadId} {c : ServicePc} {o : Option TimerId}
    (h : (S.setPc th .ready).Manned) (hc : ∀ t reg, c.serving = some (t, reg) → o = some t) :
    ({ S with svc := S.svc.setThread th fun n => { n with currentTimer := o } }.setPc th c).Manned := by
  refine ⟨fun x hx => ?_, fun x hx => ?_, fun x t reg hs => ?_⟩
  · by_cases hne : x = th
    · exact h.active x (by simp [hne])
    · exact h.active x (by simpa [hne] using hx)
  · have hid := h.id x hx
    by_cases hne : x = th
    · subst hne
      simpa using hid
    · simpa [hne] using hid
  · by_cases hne : x = th
    · subst hne
      simpa using hc t reg (by simpa using hs)
    · have hcur := h.current x t reg (by simpa [hne] using hs)
      simpa [hne] using hcur

theorem Served.manned {S S' : System} {th : ThreadId} {now : ClockReading} {ev : List Event}
    (h : (S.setPc th .ready).Manned) (hs : Served S th now (S', ev)) : S'.Manned := by
  have hready : (S.setPc th .ready).pc th ≠ .absent := by simp
  cases hs with
  | empty =>
      rw [← setPc_setPc S th .ready]
      exact h.setPc hready (by simp [ServicePc.serving])
  | early =>
      rw [← setPc_setPc S th .ready]
      exact h.setPc hready (by simp [ServicePc.serving])
  | @due t rest hq hdue =>
      rw [State.expireTimer_eq_move]
      have hmoved : ({ S with
          svc := S.svc.move t (State.expiredNode (S.svc.timer t) now) (State.expiredPlace (S.svc.timer t) th)
          }.setPc th .ready).Manned := h.same (SameThreads.move _ _ _ _) rfl
      refine hmoved.announce fun t' reg hs => ?_
      have hserving : t = t' ∧ (S.svc.timer t).event.reg = reg := by simpa [ServicePc.serving] using hs
      exact congrArg some hserving.1

theorem Trans.manned {S S' : System} {a : Action} {ev : List Event} (h : S.Inv) (ha : S.svc.Alive)
    (hm : S.Manned) (ht : Trans S a S' ev) : S'.Manned := by
  cases ht with
  | quiet => exact hm.same (.refl _) rfl
  | data => exact hm.same ⟨rfl, fun _ => rfl, fun _ => rfl, fun _ => rfl⟩ rfl
  | created _ _ _ _ hc => exact (hm.spawn (hc.recruited h.wf ha)).same (.refl _) rfl
  | notCreated _ _ _ hc => exact hm.spawn (hc.recruited h.wf ha)
  | settime _ _ hs => exact hm.same (by simpa using hs.sameThreads) (by simp)
  | delete _ hsvc => exact hm.same hsvc.sameThreads rfl
  | @wakeup p th ret hcall =>
      have hbroadcast : (S.broadcast th).Manned := by
        simp only [System.broadcast]
        split
        · rename_i hblocked
          exact hm.setPc (by simp [hblocked]) (by simp [ServicePc.serving])
        · exact hm
      exact hbroadcast.same (.refl _) rfl
  | look hpc hs =>
      refine hs.manned (hm.setPc (by simp [hpc]) (by simp [ServicePc.serving]))
  | @invoke th t reg now hpc =>
      refine hm.setPc (by simp [hpc]) fun t' reg' hs => ?_
      exact hm.current th t' reg' (by simpa [hpc, ServicePc.serving] using hs)
  | @finish th t reg now S' ev hpc hcall hs =>
      have hready : (S.setPc th .ready).Manned := hm.setPc (by simp [hpc]) (by simp [ServicePc.serving])
      exact hs.manned (hready.announce (by simp [ServicePc.serving]))
  | wake hpc => exact hm.setPc (by simp [hpc]) (by simp [ServicePc.serving])

end Pc02.Timer

import Pc02.Timer.Slots

/-!
# Firings and the starts they go back to

Every expiry that a service thread takes from its queue goes back to one start of the timer, since
which the timer has waited undisturbed: it was not stopped, deleted or started again. The expiry is a
whole number of periods after the start, and this number exceeds the firings that came before. This
holds in every run, also when handlers terminate their threads.
-/

namespace Pc02.Timer

open Function Machines

def Event.pops (t : TimerId) : Event → Bool
  | .popped _ u _ => u = t
  | _ => false

def Event.poppedBy (th : ThreadId) : Event → Bool
  | .popped x _ _ => x = th
  | _ => false

def Event.invokedBy (th : ThreadId) : Event → Bool
  | .invoked x _ => x = th
  | _ => false

def System.reading (S : System) (th : ThreadId) : Action → Option ClockReading
  | .look x now => if x = th then some now else none
  | .finish x =>
      match S.pc x with
      | .handling _ _ now => if x = th then some now else none
      | _ => none
  | _ => none

/-- The timer waits in the queue of `th`, and the action does not start it again. -/
def Undisturbed (th : ThreadId) (t : TimerId) (S : System) (a : Action) : Prop :=
  t ∈ S.svc.queue th ∧ ∀ i, S.started a ≠ some (t, i)

/-! ### One step -/

structure Pops (S : System) (a : Action) (S' : System) (ev : List Event) (th : ThreadId) (u : TimerId)
    (now : ClockReading) : Prop where
  events : ev = [.popped th u (S.svc.timer u).event.reg]
  queued : u ∈ S.svc.queue th
  reading : S.reading th a = some now
  due : S.svc.key u ≤ now.1.key
  started : S.started a = none
  rewrites : State.Rewrites S.svc S'.svc u (State.expiredNode (S.svc.timer u) now)
    (State.expiredPlace (S.svc.timer u) th)

def NoPop (ev : List Event) : Prop := ∀ e ∈ ev, ∀ t, e.pops t = false

theorem settimeDone_events {S : System} {p : Pthread} {t : TimerId} {r : State × Int × Option ThreadId}
    {ret : Ret} {e : Event} (he : e ∈ (S.settimeDone p t r ret).2) :
    (∃ reg, e = .armed t reg) ∨ ∃ ret, e = .returned p ret := by
  have harmed {b : Prop} [Decidable b] {reg : Nat} (h : e ∈ if b then [Event.armed t reg] else []) :
      e = .armed t reg := by
    split at h
    · exact List.mem_singleton.mp h
    · cases h
  simp only [System.settimeDone] at he
  split at he
  · exact .inl ⟨_, harmed he⟩
  · rcases List.mem_append.mp he with he | he
    · exact .inl ⟨_, harmed he⟩
    · exact .inr ⟨_, List.mem_singleton.mp he⟩

theorem settimeDone_noPop (S : System) (p : Pthread) (t : TimerId) (r : State × Int × Option ThreadId) (ret : Ret) :
    NoPop (S.settimeDone p t r ret).2 := by
  intro e he u
  obtain ⟨reg, rfl⟩ | ⟨ret, rfl⟩ := settimeDone_events he <;> rfl

theorem State.expireTimer_rewrites (s : State) (th : ThreadId) (t : TimerId) (now : Timespec) :
    State.Rewrites s (s.expireTimer th t now) t (State.expiredNode (s.timer t) now)
      (State.expiredPlace (s.timer t) th) := by
  rw [State.expireTimer_eq_move]
  exact (State.Rewrites.move _ _ _ _).keeps (State.setThread_keeps _ th rfl)

theorem Served.pops {S S₀ S₁ : System} {a : Action} {th : ThreadId} {now : ClockReading} {ev : List Event}
    (hkeeps : State.Keeps S.svc S₀.svc) (hread : S.reading th a = some now) (hstart : S.started a = none)
    (hs : Served S₀ th now (S₁, ev)) : NoPop ev ∨ ∃ u, Pops S a S₁ ev th u now := by
  cases hs with
  | empty => exact .inl (by simp [NoPop])
  | early => exact .inl (by simp [NoPop])
  | @due u rest hq hdue =>
      refine .inr ⟨u, ?_, hkeeps.queue th u (by rw [hq]; simp), hread, ?_, hstart, ?_⟩
      · rw [hkeeps.timer]
      · rwa [State.key, hkeeps.timer] at hdue
      · rw [← hkeeps.timer]
        exact hkeeps.rewrites (S₀.svc.expireTimer_rewrites th u now)

/-- A step pops a timer that is due at the head of a queue, or reports no expiry. -/
theorem step_pops {S S' : System} {a : Action} {ev : List Event} (hstep : S.step a = some (S', ev)) :
    NoPop ev ∨ ∃ th u now, Pops S a S' ev th u now := by
  have hnone : NoPop [] := by simp [NoPop]
  have hreturned (p : Pthread) (ret : Ret) : NoPop [.returned p ret] := by simp [NoPop, Event.pops]
  have hdelete (p : Pthread) (t : TimerId) (o : Option ThreadId) (called : Nat) :
      NoPop (S.deleteDone p t o called).2 := by simp [NoPop, System.deleteDone, Event.pops]
  cases step_stepped hstep with
  | addRefused => exact .inl (hreturned _ _)
  | addFailed => exact .inl (hreturned _ _)
  | add => exact .inl hnone
  | addInitFailed => exact .inl (hreturned _ _)
  | addInit => exact .inl hnone
  | addArm => exact .inl (settimeDone_noPop _ _ _ _ _)
  | startRefused => exact .inl (hreturned _ _)
  | start => exact .inl hnone
  | startArm => exact .inl (settimeDone_noPop _ _ _ _ _)
  | stopRefused => exact .inl (hreturned _ _)
  | stop => exact .inl (settimeDone_noPop _ _ _ _ _)
  | settimeRefused => exact .inl (hreturned _ _)
  | settime => exact .inl (hreturned _ _)
  | delRefused => exact .inl (hreturned _ _)
  | delWaits => exact .inl hnone
  | del => exact .inl (hdelete _ _ _ _)
  | delStillWaits => exact .inl hnone
  | delWake => exact .inl (hdelete _ _ _ _)
  | wakeup => exact .inl (hreturned _ _)
  | @look th now hpc =>
      have hserved := (serve_served S th now).pops (a := .look th now) (.refl _) (by simp [System.reading]) rfl
      exact hserved.imp id fun ⟨u, hu⟩ => ⟨th, u, now, hu⟩
  | invoke => exact .inl (by simp [NoPop, Event.pops])
  | @finish th t reg now hpc hcall =>
      have hdone : State.Keeps S.svc (S.svc.expireDone th) := State.setThread_keeps S.svc th rfl
      have hserved := (serve_served { S with svc := S.svc.expireDone th } th now).pops (a := .finish th) hdone
        (by simp [System.reading, hpc]) rfl
      exact hserved.imp id fun ⟨u, hu⟩ => ⟨th, u, now, hu⟩
  | wake => exact .inl hnone
  | exit => exact .inl hnone

def ServicePc.owes : ServicePc → Nat
  | .expiring .. => 1
  | _ => 0

theorem Served.owes {S S' : System} {x : ThreadId} {now : ClockReading} {ev : List Event}
    (hs : Served S x now (S', ev)) (th : ThreadId) :
    ev.countP (Event.invokedBy th) + (S'.pc th).owes ≤ ev.countP (Event.poppedBy th) + (S.pc th).owes := by
  by_cases hth : th = x
  · subst hth
    cases hs <;> simp [ServicePc.owes, Event.invokedBy, Event.poppedBy]
  · cases hs <;> simp [hth, Event.invokedBy, List.countP_cons]

theorem step_invoked {S S' : System} {a : Action} {ev : List Event} (hstep : S.step a = some (S', ev)) (th : ThreadId) :
    ev.countP (Event.invokedBy th) + (S'.pc th).owes ≤ ev.countP (Event.poppedBy th) + (S.pc th).owes := by
  have hquiet {ev : List Event} {S' : System} (hev : ∀ e ∈ ev, e.invokedBy th = false)
      (hpc : (S'.pc th).owes ≤ (S.pc th).owes) :
      ev.countP (Event.invokedBy th) + (S'.pc th).owes ≤ ev.countP (Event.poppedBy th) + (S.pc th).owes := by
    have hzero : ev.countP (Event.invokedBy th) = 0 := by simpa [List.countP_eq_zero] using hev
    omega
  have hsettime (p : Pthread) (t : TimerId) (r : State × Int × Option ThreadId) (ret : Ret) :
      ∀ e ∈ (S.settimeDone p t r ret).2, e.invokedBy th = false := by
    intro e he
    obtain ⟨reg, rfl⟩ | ⟨ret, rfl⟩ := settimeDone_events he <;> rfl
  have hdelete (p : Pthread) (t : TimerId) (o : Option ThreadId) (called : Nat) :
      ∀ e ∈ (S.deleteDone p t o called).2, e.invokedBy th = false := by
    simp [System.deleteDone, Event.invokedBy]
  have hspawn (svc : State) : ((S.spawn svc).pc th).owes ≤ (S.pc th).owes := by
    simp only [System.spawn]
    split
    · exact Nat.zero_le _
    · exact le_rfl
  have hset {x : ThreadId} {c : ServicePc} (hc : c.owes = 0) : (Function.update S.pc x c th).owes ≤ (S.pc th).owes := by
    by_cases hx : th = x
    · subst hx
      simp [hc]
    · simp [hx]
  cases step_stepped hstep with
  | addRefused => exact hquiet (by simp [Event.invokedBy]) le_rfl
  | addFailed => exact hquiet (by simp [Event.invokedBy]) (hspawn _)
  | add => exact hquiet (by simp) (hspawn _)
  | addInitFailed => exact hquiet (by simp [Event.invokedBy]) le_rfl
  | addInit => exact hquiet (by simp) le_rfl
  | addArm => exact hquiet (hsettime _ _ _ _) (by simp)
  | startRefused => exact hquiet (by simp [Event.invokedBy]) le_rfl
  | start => exact hquiet (by simp) le_rfl
  | startArm => exact hquiet (hsettime _ _ _ _) (by simp)
  | stopRefused => exact hquiet (by simp [Event.invokedBy]) le_rfl
  | stop => exact hquiet (hsettime _ _ _ _) (by simp)
  | settimeRefused => exact hquiet (by simp [Event.invokedBy]) le_rfl
  | settime => exact hquiet (by simp [Event.invokedBy]) le_rfl
  | delRefused => exact hquiet (by simp [Event.invokedBy]) le_rfl
  | delWaits => exact hquiet (by simp) le_rfl
  | del => exact hquiet (hdelete _ _ _ _) le_rfl
  | delStillWaits => exact hquiet (by simp) le_rfl
  | delWake => exact hquiet (hdelete _ _ _ _) le_rfl
  | @wakeup p x ret hcall =>
      refine hquiet (by simp [Event.invokedBy]) ?_
      simp only [System.setCall_pc, System.broadcast]
      split
      · exact hset rfl
      · exact le_rfl
  | @look x now hpc => exact (serve_served S x now).owes th
  | @invoke x t reg now hpc =>
      by_cases hx : th = x
      · subst hx
        simp [hpc, ServicePc.owes, Event.invokedBy, List.countP_cons]
      · have hx' : x ≠ th := fun heq => hx heq.symm
        simp [hx, hx', Event.invokedBy, List.countP_cons]
  | @finish x t reg now hpc hcall => exact (serve_served { S with svc := S.svc.expireDone x } x now).owes th
  | wake => exact hquiet (by simp) (hset rfl)
  | @exit x created c =>
      simp only [System.step, System.step_running hstep, Bool.false_eq_true, if_false] at hstep
      split at hstep
      case h_2 => cases hstep
      case h_1 =>
        have hpc := congrArg (fun r => (System.pc r.1 x).owes) (Option.some.inj hstep)
        simp only [System.setPc_pc, Function.update_self] at hpc
        refine hquiet (by simp) (hset ?_)
        rw [← hpc]
        split <;> rfl

/-! ### A waiting timer -/

/-- What a step leaves of a timer that waits before and after it: the expiry moves by whole periods, by at
least one if the timer is popped, and by none if it has no period. -/
structure Carried (S : System) (a : Action) (S' : System) (ev : List Event) (th : ThreadId) (t : TimerId) : Prop where
  undisturbed : Undisturbed th t S a
  event : (S'.svc.timer t).event = (S.svc.timer t).event
  value : (S'.svc.timer t).value = (S.svc.timer t).value
  expiry : ∃ j : Nat, ev.countP (Event.pops t) ≤ j ∧
    ((S.svc.timer t).value.interval = zeroTimespec → j = 0) ∧
    (S'.svc.timer t).expirytime.toNs = (S.svc.timer t).expirytime.toNs + j * (S.svc.timer t).value.interval.toNs

theorem Carried.of_eq {S S' : System} {a : Action} {ev : List Event} {th : ThreadId} {t : TimerId}
    (h : Undisturbed th t S a) (hev : ∀ e ∈ ev, e.pops t = false)
    (hevent : (S'.svc.timer t).event = (S.svc.timer t).event)
    (hvalue : (S'.svc.timer t).value = (S.svc.timer t).value)
    (hexpiry : (S'.svc.timer t).expirytime = (S.svc.timer t).expirytime) : Carried S a S' ev th t := by
  refine ⟨h, hevent, hvalue, 0, ?_, fun _ => rfl, by simp [hexpiry]⟩
  simpa [List.countP_eq_zero] using hev

theorem due_toNs {S : System} {th : ThreadId} {t : TimerId} (h : S.SlotsOk) (hq : t ∈ S.svc.queue th)
    (now : ClockReading) (hdue : S.svc.key t ≤ now.1.key) : (S.svc.timer t).expirytime.toNs ≤ now.1.toNs := by
  obtain ⟨-, -, hnormal⟩ := h.queued th t hq
  rw [State.key, ← not_lt, key_lt_iff_toNs now.2 hnormal] at hdue
  exact not_lt.mp hdue

theorem expired_requeued {S : System} {th x : ThreadId} {t : TimerId} (h : S.SlotsOk) (hq : t ∈ S.svc.queue x)
    (now : ClockReading) (hplace : State.expiredPlace (S.svc.timer t) x = .queue th) :
    x = th ∧ (S.svc.timer t).value.interval ≠ zeroTimespec ∧ ∃ j : Nat, 1 ≤ j ∧
      (State.expiredNode (S.svc.timer t) now).expirytime.toNs =
        (S.svc.timer t).expirytime.toNs + j * (S.svc.timer t).value.interval.toNs := by
  have hint : (S.svc.timer t).value.interval ≠ zeroTimespec := by
    intro hz
    rw [State.expiredPlace, if_pos hz] at hplace
    cases hplace
  rw [State.expiredPlace, if_neg hint] at hplace
  obtain ⟨-, -, hnormal⟩ := h.queued x t hq
  obtain ⟨j, hj, hnew, -⟩ := catchUp_spec now.2 (h.dataOk t).1 ((h.dataOk t).interval_pos hint) hnormal
  refine ⟨Place.queue.inj hplace, hint, j, hj, ?_⟩
  rw [State.expiredNode, if_neg hint, hnew]

theorem Carried.expired {S S' : System} {a : Action} {ev : List Event} {th x : ThreadId} {t : TimerId}
    {now : ClockReading} (h : S.SlotsOk) (hq : t ∈ S.svc.queue x) (hstart : S.started a = none)
    (hev : ev.countP (Event.pops t) ≤ 1)
    (hplace : State.expiredPlace (S.svc.timer t) x = .queue th)
    (hnode : S'.svc.timer t = State.expiredNode (S.svc.timer t) now) : Carried S a S' ev th t := by
  obtain ⟨rfl, hint, j, hj, hmoved⟩ := expired_requeued h hq now hplace
  have hvalue := (expiredNode_inuse (S.svc.timer t) now).2.2.2.2.1
  refine ⟨⟨hq, by simp [hstart]⟩, ?_, by rw [hnode, hvalue], j, hev.trans hj, fun hz => absurd hz hint, ?_⟩
  · rw [hnode, State.expiredNode, if_neg hint]
  · rw [hnode, hmoved]

/-- A step that leaves a timer in a queue has started it, or carries it on. -/
theorem step_carried {S S' : System} {a : Action} {ev : List Event} {th : ThreadId} {t : TimerId} (h : S.SlotsOk)
    (hstep : S.step a = some (S', ev)) (hq : t ∈ S'.svc.queue th) :
    (∃ i its, S.started a = some (t, i) ∧ its.Regular ∧ (S'.svc.timer t).event = (S.svc.timer t).event ∧
      (S'.svc.timer t).value = its ∧ (S'.svc.timer t).expirytime.toNs = i + its.value.toNs) ∨
    Carried S a S' ev th t := by
  -- a slot other than `t` is rewritten, in one of the ways that keep `t` in its queue
  have hother {u : TimerId} {n : TimerNode} {d : Place} (hrw : State.Rewrites S.svc S'.svc u n d) (hne : t ≠ u)
      (hin : t ∈ S.svc.queue th) (hstart : ∀ i, S.started a ≠ some (t, i)) (hev : ∀ e ∈ ev, e.pops t = false) :
      Carried S a S' ev th t := by
    have hnode : S'.svc.timer t = S.svc.timer t := by rw [hrw.timer, update_of_ne hne]
    exact .of_eq ⟨hin, hstart⟩ hev (by rw [hnode]) (by rw [hnode]) (by rw [hnode])
  rcases step_pops hstep with hno | ⟨x, u, now, hpop⟩
  · have hev : ∀ e ∈ ev, e.pops t = false := fun e he => hno e he t
    have hgone {u : TimerId} {n : TimerNode} {d : Place} (hrw : State.Rewrites S.svc S'.svc u n d)
        (hd : ∀ x, d ≠ .queue x) (hsame : ∀ v i, S.started a = some (v, i) → v = u) : Carried S a S' ev th t := by
      rcases hrw.queue th t hq with ⟨-, hplace⟩ | ⟨hne, hin⟩
      · exact absurd hplace (hd th)
      · exact hother hrw hne hin (fun i hi => hne (hsame t i hi)) hev
    have htouched := (step_touched h hstep).1
    generalize hs' : S'.svc = s' at htouched
    cases htouched with
    | keeps hk hfree =>
        subst hs'
        have hin := hk.queue th t hq
        refine .inr (.of_eq ⟨hin, fun i hi => ?_⟩ hev (by rw [hk.timer]) (by rw [hk.timer]) (by rw [hk.timer]))
        exact hfree t i hi (h.queued th t hin).1
    | @data u type millisec hnone hms =>
        have hin : t ∈ S.svc.queue th := by simpa [hs', State.queue, State.setTimer] using hq
        have hnode : S'.svc.timer t = { S.svc.timer t with
            type := (S'.svc.timer t).type, millisec := (S'.svc.timer t).millisec } := by
          rw [hs', State.setTimer_timer, update_apply]
          split
          · rename_i hu
            rw [hu]
          · rfl
        exact .inr (.of_eq ⟨hin, by simp [hnone]⟩ hev (by rw [hnode]) (by rw [hnode]) (by rw [hnode]))
    | created hnone hrw =>
        subst hs'
        exact .inr (hgone hrw (by simp) (by simp [hnone]))
    | freed hsame _ hrw =>
        subst hs'
        exact .inr (hgone hrw (by simp) hsame)
    | lost hnone _ hrw =>
        subst hs'
        exact .inr (hgone hrw (by simp) (by simp [hnone]))
    | stopped hsame _ _ hrw =>
        subst hs'
        exact .inr (hgone hrw (by simp) hsame)
    | @armed _ u x its abstime now i hstart hin hth hits htoNs hrw =>
        subst hs'
        rcases hrw.queue th t hq with ⟨rfl, -⟩ | ⟨hne, hwas⟩
        · have hnode : S'.svc.timer t = State.armedNode (S.svc.timer t) abstime its now := by
            rw [hrw.timer, update_self]
          exact .inl ⟨i, its, hstart, hits, by rw [hnode]; rfl, by rw [hnode]; rfl, by rw [hnode, htoNs]⟩
        · refine .inr (hother hrw hne hwas (fun j hj => hne ?_) hev)
          rw [hstart] at hj
          exact (Prod.mk.inj (Option.some.inj hj)).1.symm
    | @expired _ u x now hnone hmem hdue hrw =>
        subst hs'
        rcases hrw.queue th t hq with ⟨rfl, hplace⟩ | ⟨hne, hin⟩
        · have hzero : ev.countP (Event.pops t) = 0 := by simpa [List.countP_eq_zero] using hev
          exact .inr (.expired h hmem hnone (by omega) hplace (by rw [hrw.timer, update_self]))
        · exact .inr (hother hrw hne hin (by simp [hnone]) hev)
  · right
    rcases hpop.rewrites.queue th t hq with ⟨rfl, hplace⟩ | ⟨hne, hin⟩
    · refine .expired h hpop.queued hpop.started ?_ hplace (by rw [hpop.rewrites.timer, update_self])
      rw [hpop.events]
      exact List.countP_le_length
    · refine hother hpop.rewrites hne hin (by simp [hpop.started]) ?_
      have hne' : u ≠ t := fun heq => hne heq.symm
      simp [hpop.events, Event.pops, hne']

/-! ### Runs -/

/-- From `S₁`, in which the timer was started at the instant `i`, to `S` the timer has waited undisturbed in
the queue of `th`. Its expiry is a whole number of periods after the start, more than it has fired since. -/
structure Since (S₁ : System) (i : Int) (tr : List Event) (S : System) (th : ThreadId) (t : TimerId) : Prop where
  linked : t ∈ S₁.svc.queue th
  waited : Steps service (Undisturbed th t) S₁ tr S
  event : (S.svc.timer t).event = (S₁.svc.timer t).event
  value : (S.svc.timer t).value = (S₁.svc.timer t).value
  regular : (S.svc.timer t).value.Regular
  expiry : ∃ k : Nat, tr.countP (Event.pops t) + 1 ≤ k ∧
    ((S.svc.timer t).value.interval = zeroTimespec → k = 1) ∧
    (S.svc.timer t).expirytime.toNs = i + k * (S.svc.timer t).value.value.toNs

theorem Since.carried {S₁ S S' : System} {i : Int} {tr ev : List Event} {th : ThreadId} {t : TimerId} {a : Action}
    (h : Since S₁ i tr S th t) (hstep : service.step S a = some (S', ev)) (hc : Carried S a S' ev th t) :
    Since S₁ i (tr ++ ev) S' th t := by
  obtain ⟨k, hk, hone, hexp⟩ := h.expiry
  obtain ⟨j, hj, hnone, hmove⟩ := hc.expiry
  refine ⟨h.linked, .snoc h.waited hc.undisturbed hstep, hc.event.trans h.event, hc.value.trans h.value, ?_, k + j, ?_,
    ?_, ?_⟩
  · rw [hc.value]
    exact h.regular
  · rw [List.countP_append]
    omega
  · rw [hc.value]
    intro hz
    rw [hone hz, hnone hz]
  · rw [hmove, hexp, hc.value]
    rcases h.regular.2 with hz | heq
    · rw [hnone hz]
      simp
    · rw [heq]
      push_cast
      ring

/-- Every waiting timer goes back to a start. -/
theorem run_since {tr : List Event} {S : System} (h : Steps service (fun _ _ => True) service.init tr S) {th : ThreadId}
    {t : TimerId} (hq : t ∈ S.svc.queue th) :
    ∃ pre S₀ a S₁ ev post i, Steps service (fun _ _ => True) service.init pre S₀ ∧
      service.step S₀ a = some (S₁, ev) ∧ S₀.started a = some (t, i) ∧ tr = pre ++ ev ++ post ∧
      Since S₁ i post S th t := by
  induction h with
  | nil => simp [service, System.init, State.queue, initModule, zeroThreadNode] at hq
  | @snoc tr S S' a ev hrun _ hstep ih =>
      rcases step_carried (run_slotsOk hrun) hstep hq with ⟨i, its, hstart, hits, -, hvalue, hexp⟩ | hc
      · refine ⟨tr, S, a, S', ev, [], i, hrun, hstep, hstart, by simp, hq, .nil, rfl, rfl, ?_, 1, by simp,
          fun _ => rfl, ?_⟩
        · rw [hvalue]
          exact hits
        · rw [hexp, hvalue]
          simp
      · obtain ⟨pre, S₀, a₀, S₁, ev₀, post, i, hpre, hfirst, hstart, rfl, hsince⟩ := ih hc.undisturbed.1
        exact ⟨pre, S₀, a₀, S₁, ev₀, post ++ ev, i, hpre, hfirst, hstart, by simp, hsince.carried hstep hc⟩

theorem run_invoked {ok : System → Action → Prop} {tr : List Event} {S : System}
    (h : Steps service ok service.init tr S) (th : ThreadId) :
    tr.countP (Event.invokedBy th) + (S.pc th).owes ≤ tr.countP (Event.poppedBy th) := by
  induction h with
  | nil => simp [service, System.init, ServicePc.owes]
  | snoc _ _ hstep ih =>
      have hnext := step_invoked hstep th
      rw [List.countP_append, List.countP_append]
      omega

/-- The rate of a timer: a firing that follows others comes at least as many periods after the start. -/
theorem Since.rate {S₁ S : System} {i : Int} {tr : List Event} {th : ThreadId} {t : TimerId}
    (h : Since S₁ i tr S th t) :
    i + (tr.countP (Event.pops t) + 1) * (S.svc.timer t).value.value.toNs ≤ (S.svc.timer t).expirytime.toNs := by
  obtain ⟨k, hk, hone, hexp⟩ := h.expiry
  rw [hexp]
  rcases h.regular.2 with hz | heq
  · obtain rfl : k = 1 := hone hz
    have hzero : tr.countP (Event.pops t) = 0 := by omega
    simp [hzero]
  · have hpos : 0 ≤ (S.svc.timer t).value.value.toNs := by
      have hok := h.regular.1
      rw [Itimerspec.Ok, heq] at hok
      have hnsec := hok.1.1
      have hsec := hok.2.1
      simp only [Timespec.toNs, nsecPerSec]
      omega
    have hle : ((tr.countP (Event.pops t) : Int) + 1) ≤ k := by exact_mod_cast hk
    exact Int.add_le_add_left (Int.mul_le_mul_of_nonneg_right hle hpos) i

/-- In every run a thread enters a handler at most once for each timer it pops. A timer is popped only in
consequence of a start, under the registration it was started with: since then it has waited undisturbed in
the queue, its expiry is a whole number of the periods it was started with after the start, and the clock has
passed as many periods as this makes firings. Without a period it has not fired since. -/
theorem fires_as_started {tr : List Event} {S : System} (h : Steps service (fun _ _ => True) service.init tr S) :
    (∀ th, tr.countP (Event.invokedBy th) ≤ tr.countP (Event.poppedBy th)) ∧
    ∀ a S' ev th t reg, service.step S a = some (S', ev) → Event.popped th t reg ∈ ev →
      ∃ now pre S₀ a₀ S₁ ev₀ post i, S.reading th a = some now ∧
        Steps service (fun _ _ => True) service.init pre S₀ ∧ service.step S₀ a₀ = some (S₁, ev₀) ∧
        S₀.started a₀ = some (t, i) ∧ tr = pre ++ ev₀ ++ post ∧ Since S₁ i post S th t ∧
        reg = (S₁.svc.timer t).event.reg ∧
        ((S.svc.timer t).value.interval = zeroTimespec → post.countP (Event.pops t) = 0) ∧
        i + (post.countP (Event.pops t) + 1) * (S₁.svc.timer t).value.value.toNs ≤ now.1.toNs := by
  refine ⟨fun th => (Nat.le_add_right _ _).trans (run_invoked h th), ?_⟩
  intro a S' ev th t reg hstep hmem
  rcases step_pops hstep with hno | ⟨x, u, now, hpop⟩
  · have := hno _ hmem t
    simp [Event.pops] at this
  · rw [hpop.events, List.mem_singleton] at hmem
    obtain ⟨rfl, rfl, rfl⟩ : th = x ∧ t = u ∧ reg = (S.svc.timer u).event.reg := by simpa using hmem
    obtain ⟨pre, S₀, a₀, S₁, ev₀, post, i, hpre, hfirst, hstart, htr, hsince⟩ := run_since h hpop.queued
    refine ⟨now, pre, S₀, a₀, S₁, ev₀, post, i, hpop.reading, hpre, hfirst, hstart, htr, hsince,
      by rw [hsince.event], fun hz => ?_, ?_⟩
    · obtain ⟨k, hk, hone, -⟩ := hsince.expiry
      have := hone hz
      omega
    · rw [← hsince.value]
      exact hsince.rate.trans (due_toNs (run_slotsOk h) hpop.queued now hpop.due)

/-- A timer of one second that is started at the origin of the clock and served after one second and again after five:
the second firing comes more than two periods after the start. -/
theorem fires_as_started_periodic : ∃ tr S, Steps service (fun _ _ => True) service.init tr S ∧
    tr.countP (Event.pops 0) = 1 ∧ ∃ S' ev, service.step S (.look 0 (atSec 5)) = some (S', ev) ∧
      Event.popped 0 0 1 ∈ ev ∧ ∃ S₁ i post, Since S₁ i post S 0 0 ∧
        i + (post.countP (Event.pops 0) + 1) * (S₁.svc.timer 0).value.value.toNs ≤ (atSec 5).1.toNs := by
  obtain ⟨S, tr, hrun, htest⟩ := exists_steps_of_exec (m := service) (s := service.init)
    (addSteps 0 timerInterval 30 0 ++ [.look 0 (atSec 1), .invoke 0, .finish 0, .wake 0])
    (p := fun r => decide (r.2.countP (Event.pops 0) = 1) &&
      (r.1.step (.look 0 (atSec 5))).any fun q => q.2.any fun e => e = .popped 0 0 1)
    (show (service.exec (fun _ _ => True) _ _).any _ = true by decide +kernel)
  simp only [Bool.and_eq_true, decide_eq_true_eq] at htest
  obtain ⟨hone, hnext⟩ := htest
  obtain ⟨⟨S', ev⟩, hstep, hpop⟩ := (Option.any_eq_true _ _).mp hnext
  obtain ⟨e, he, heq⟩ := List.any_eq_true.mp hpop
  obtain rfl : e = .popped 0 0 1 := of_decide_eq_true heq
  obtain ⟨now, pre, S₀, a₀, S₁, ev₀, post, i, hread, -, -, -, -, hsince, -, -, hrate⟩ :=
    (fires_as_started hrun).2 (.look 0 (atSec 5)) S' ev 0 0 1 hstep he
  obtain rfl : atSec 5 = now := by simpa [System.reading] using hread
  exact ⟨tr, S, hrun, hone, S', ev, hstep, he, S₁, i, post, hsince, hrate⟩

end Pc02.Timer

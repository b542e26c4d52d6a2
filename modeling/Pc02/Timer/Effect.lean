import Pc02.Timer.Invariant

/-!
# The effect of a step on the timers

A step changes the life of at most one timer: it is created, armed, stopped, popped, released or
lost. `Effect` records which, and that every other timer keeps its node and its queue. Properties of
single timers and registrations are proved against this list.
-/

namespace Pc02.Timer

structure SameTimer (s s' : State) (t : TimerId) : Prop where
  inuse : (s'.timer t).inuse = (s.timer t).inuse
  armed : (s'.timer t).armed = (s.timer t).armed
  thread : (s'.timer t).thread = (s.timer t).thread
  event : (s'.timer t).event = (s.timer t).event
  queue : ∀ th, t ∈ s'.queue th ↔ t ∈ s.queue th

def Event.plain : Event → Bool
  | .returned .. => true
  | .invoked .. => true
  | _ => false

inductive Effect (s s' : State) (ev : List Event) : Prop
  | none (same : ∀ t, SameTimer s s' t) (next : s'.nextReg = s.nextReg) (plain : ∀ e ∈ ev, e.plain = true)
  | create (u : TimerId) (th : ThreadId) (same : ∀ t, t ≠ u → SameTimer s s' t)
      (wasFree : (s.timer u).inuse = .free) (isInuse : (s'.timer u).inuse = .inuse)
      (unarmed : (s'.timer u).armed = false) (thread : (s'.timer u).thread = some th)
      (reg : (s'.timer u).event.reg = s.nextReg) (next : s'.nextReg = s.nextReg + 1)
      (plain : ∀ e ∈ ev, e.plain = true)
  | fail (u : TimerId) (same : ∀ t, t ≠ u → SameTimer s s' t)
      (wasFree : (s.timer u).inuse = .free) (isFree : (s'.timer u).inuse = .free)
      (reg : (s'.timer u).event.reg = s.nextReg) (next : s'.nextReg = s.nextReg + 1)
      (plain : ∀ e ∈ ev, e.plain = true)
  | arm (u : TimerId) (th : ThreadId) (same : ∀ t, t ≠ u → SameTimer s s' t)
      (wasInuse : (s.timer u).inuse = .inuse) (isInuse : (s'.timer u).inuse = .inuse)
      (armed : (s'.timer u).armed = true) (thread : (s.timer u).thread = some th)
      (thread' : (s'.timer u).thread = some th) (event : (s'.timer u).event = (s.timer u).event)
      (queued : u ∈ s'.queue th) (next : s'.nextReg = s.nextReg)
      (plain : ∀ e ∈ ev, e.plain = true ∨ e = .armed u (s.timer u).event.reg)
  | stop (u : TimerId) (same : ∀ t, t ≠ u → SameTimer s s' t)
      (wasInuse : (s.timer u).inuse = .inuse) (isInuse : (s'.timer u).inuse = .inuse)
      (unarmed : (s'.timer u).armed = false) (thread : (s'.timer u).thread = (s.timer u).thread)
      (event : (s'.timer u).event = (s.timer u).event) (next : s'.nextReg = s.nextReg)
      (plain : ∀ e ∈ ev, e.plain = true)
  | refresh (u : TimerId) (same : ∀ t, t ≠ u → SameTimer s s' t)
      (wasFree : (s.timer u).inuse = .free) (isFree : (s'.timer u).inuse = .free)
      (event : (s'.timer u).event = (s.timer u).event) (next : s'.nextReg = s.nextReg)
      (plain : ∀ e ∈ ev, e.plain = true)
  | release (u : TimerId) (p : Pthread) (th : Option ThreadId) (called : Nat)
      (same : ∀ t, t ≠ u → SameTimer s s' t) (wasInuse : (s.timer u).inuse = .inuse)
      (isFree : (s'.timer u).inuse = .free) (event : (s'.timer u).event = (s.timer u).event)
      (next : s'.nextReg = s.nextReg)
      (events : ev = [.deleted p u th called (s.timer u).event.reg, .returned p (.code 0)])
  | lose (u : TimerId) (p : Pthread) (th : Option ThreadId) (called : Nat)
      (same : ∀ t, t ≠ u → SameTimer s s' t) (unused : (s.timer u).inuse ≠ .inuse)
      (isDeleted : (s'.timer u).inuse = .deleted) (event : (s'.timer u).event = (s.timer u).event)
      (next : s'.nextReg = s.nextReg)
      (events : ev = [.deleted p u th called (s.timer u).event.reg, .returned p (.code 0)])
  | pop (u : TimerId) (th : ThreadId) (same : ∀ t, t ≠ u → SameTimer s s' t)
      (queued : u ∈ s.queue th) (inuse : (s'.timer u).inuse = (s.timer u).inuse)
      (armed : (s'.timer u).armed = (s.timer u).armed) (thread : (s'.timer u).thread = (s.timer u).thread)
      (event : (s'.timer u).event = (s.timer u).event) (next : s'.nextReg = s.nextReg)
      (events : ev = [.popped th u (s.timer u).event.reg])

section Same

variable {s s' s'' : State} {t u : TimerId}

theorem SameTimer.refl (s : State) (t : TimerId) : SameTimer s s t := ⟨rfl, rfl, rfl, rfl, fun _ => Iff.rfl⟩

theorem SameTimer.trans (h : SameTimer s s' t) (h' : SameTimer s' s'' t) : SameTimer s s'' t :=
  ⟨h'.inuse.trans h.inuse, h'.armed.trans h.armed, h'.thread.trans h.thread, h'.event.trans h.event,
    fun th => (h'.queue th).trans (h.queue th)⟩

theorem SameTimer.of_eq (htimer : s'.timer = s.timer) (hqueue : ∀ th, s'.queue th = s.queue th) (t : TimerId) :
    SameTimer s s' t :=
  ⟨by rw [htimer], by rw [htimer], by rw [htimer], by rw [htimer], fun th => by rw [hqueue]⟩

theorem SameTimer.move {n : TimerNode} {d : Place} (hne : t ≠ u) : SameTimer s (s.move u n d) t := by
  refine ⟨by simp [hne], by simp [hne], by simp [hne], by simp [hne], fun th => ?_⟩
  rw [State.mem_move_queue]
  simp [hne]

theorem SameTimer.setThread {th : ThreadId} {f : ThreadNode → ThreadNode}
    (hf : (f (s.thread th)).timerQueue = (s.thread th).timerQueue) (t : TimerId) :
    SameTimer s (s.setThread th f) t :=
  .of_eq (State.setThread_timer s th f) (State.queue_setThread hf) t

theorem SameTimer.expireDone (s : State) (th : ThreadId) (t : TimerId) : SameTimer s (s.expireDone th) t := by
  simp only [State.expireDone]
  exact SameTimer.setThread rfl t

theorem SameTimer.bump (h : SameTimer s s' t) : SameTimer s s'.bump t :=
  ⟨h.inuse, h.armed, h.thread, h.event, h.queue⟩

theorem SameTimer.dealloc (h : SameTimer s s' t) (th : ThreadId) : SameTimer s (s'.timerThreadDealloc th) t :=
  ⟨h.inuse, h.armed, h.thread, h.event, h.queue⟩

theorem State.ThreadGot.same {u : State} {th : ThreadId} (h : State.ThreadGot s u th) (t : TimerId) :
    SameTimer s u t := .of_eq h.timer h.queue t

end Same

theorem State.Created.effect {s s' : State} {clock : ClockId} {event : Sigevent} {attr : Attr}
    {created : Bool} {r : Option TimerId} {ev : List Event} (h : s.Wf) (hreg : event.reg = s.nextReg)
    (hc : State.Created s clock event attr created (s', r)) (hplain : ∀ e ∈ ev, e.plain = true) :
    Effect s s' ev := by
  have hfreeHead {t : TimerId} {rest : List TimerId} (hfree : s.timerFreeList = t :: rest) :
      (s.timer t).inuse = .free := (h.freeIff t).mp (by simp [hfree])
  cases hc with
  | full => exact .none (SameTimer.refl _) rfl hplain
  | @noThread t _ hfree hget =>
      refine .fail t (fun x hx => (SameTimer.move hx).bump) (hfreeHead hfree) ?_ ?_ ?_ hplain
      · simp [State.bump, State.freedNode]
      · simpa [State.bump, State.freedNode, State.pendingNode] using hreg
      · simp [State.bump]
  | @noStart t _ v v' th hfree hget hens =>
      have hgot := State.timerThreadEnsure_got (State.timerThreadGet_got h hget) hens
      have hdealloc : (v'.timerThreadDealloc th).nextReg = s.nextReg := hgot.nextReg
      refine .fail t (fun x hx => (((hgot.same x).dealloc th).trans (SameTimer.move hx)).bump) (hfreeHead hfree)
        ?_ ?_ ?_ hplain
      · simp [State.bump, State.freedNode]
      · simpa [State.bump, State.freedNode, State.pendingNode] using hreg
      · simp [State.bump, hdealloc]
  | @ok t _ v v' th hfree hget hens =>
      have hgot := State.timerThreadEnsure_got (State.timerThreadGet_got h hget) hens
      refine .create t th (fun x hx => ((hgot.same x).trans (SameTimer.move hx)).bump) (hfreeHead hfree)
        ?_ ?_ ?_ ?_ ?_ hplain
      · simp [State.bump, State.createdNode, State.pendingNode]
      · simp [State.bump, State.createdNode]
      · simp [State.bump, State.createdNode]
      · simpa [State.bump, State.createdNode, State.pendingNode] using hreg
      · simp [State.bump, hgot.nextReg]

theorem Served.effect {S S' : System} {th : ThreadId} {now : ClockReading} {ev : List Event}
    (hs : Served S th now (S', ev)) : Effect S.svc S'.svc ev := by
  cases hs with
  | empty => exact .none (SameTimer.refl _) rfl (by simp)
  | early => exact .none (SameTimer.refl _) rfl (by simp)
  | @due u rest hq hdue =>
      have hsvc : (S.svc.expireTimer th u now).timer u = State.expiredNode (S.svc.timer u) now := by
        rw [State.expireTimer_eq_move]
        simp
      refine .pop u th (fun t ht => ?_) (by simp [hq]) ?_ ?_ ?_ ?_ ?_ rfl
      · change SameTimer S.svc (S.svc.expireTimer th u now) t
        rw [State.expireTimer_eq_move]
        exact (SameTimer.move ht).trans (SameTimer.setThread rfl t)
      all_goals simp only [System.setPc, hsvc]
      all_goals first
        | (simp only [State.expiredNode]; split <;> rfl)
        | (rw [State.expireTimer_eq_move]; simp)

theorem Effect.of_same {s s₀ s' : State} {ev : List Event} (h : Effect s₀ s' ev)
    (hsame : ∀ t, SameTimer s s₀ t) (hnext : s₀.nextReg = s.nextReg) (htimer : s₀.timer = s.timer) :
    Effect s s' ev := by
  have hqueue (t : TimerId) (th : ThreadId) := (hsame t).queue th
  cases h with
  | none same next plain => exact .none (fun t => (hsame t).trans (same t)) (next.trans hnext) plain
  | create u th same a b c d e f g =>
      exact .create u th (fun t ht => (hsame t).trans (same t ht)) (htimer ▸ a) b c d (hnext ▸ e) (hnext ▸ f) g
  | fail u same a b c d e =>
      exact .fail u (fun t ht => (hsame t).trans (same t ht)) (htimer ▸ a) b (hnext ▸ c) (hnext ▸ d) e
  | arm u th same a b c d e f g k l =>
      exact .arm u th (fun t ht => (hsame t).trans (same t ht)) (htimer ▸ a) b c (htimer ▸ d) e (htimer ▸ f) g
        (hnext ▸ k) (htimer ▸ l)
  | stop u same a b c d e f g =>
      exact .stop u (fun t ht => (hsame t).trans (same t ht)) (htimer ▸ a) b c (htimer ▸ d) (htimer ▸ e)
        (hnext ▸ f) g
  | refresh u same a b c d e =>
      exact .refresh u (fun t ht => (hsame t).trans (same t ht)) (htimer ▸ a) b (htimer ▸ c) (hnext ▸ d) e
  | release u p th called same a b c d e =>
      exact .release u p th called (fun t ht => (hsame t).trans (same t ht)) (htimer ▸ a) b (htimer ▸ c)
        (hnext ▸ d) (htimer ▸ e)
  | lose u p th called same a b c d e =>
      exact .lose u p th called (fun t ht => (hsame t).trans (same t ht)) (htimer ▸ a) b (htimer ▸ c)
        (hnext ▸ d) (htimer ▸ e)
  | pop u th same a b c d e f g =>
      exact .pop u th (fun t ht => (hsame t).trans (same t ht)) ((hqueue u th).mp a) (htimer ▸ b) (htimer ▸ c)
        (htimer ▸ d) (htimer ▸ e) (hnext ▸ f) (htimer ▸ g)

/-- Every effect of a step on the module is one on a single timer. -/
theorem Trans.effect {S S' : System} {a : Action} {ev : List Event} (h : S.Inv) (ht : Trans S a S' ev) :
    Effect S.svc S'.svc ev := by
  have hreturned {p : Pthread} {ev : List Event} (hev : ∀ e ∈ ev, ∃ r, e = Event.returned p r) :
      ∀ e ∈ ev, e.plain = true := by
    intro e he
    obtain ⟨r, rfl⟩ := hev e he
    rfl
  cases ht with
  | quiet _ _ hev => exact .none (SameTimer.refl _) rfl (hreturned hev)
  | @data p c ev u type millisec _ _ _ hev =>
      refine .none (fun t => ?_) rfl (hreturned hev)
      by_cases hu : t = u
      · subst hu
        exact ⟨by simp [System.setCall], by simp [System.setCall], by simp [System.setCall],
          by simp [System.setCall], fun _ => Iff.rfl⟩
      · exact ⟨by simp [System.setCall, hu], by simp [System.setCall, hu], by simp [System.setCall, hu],
          by simp [System.setCall, hu], fun _ => Iff.rfl⟩
  | created _ _ hreg _ hc => exact hc.effect h.wf hreg (by simp)
  | notCreated _ hreg _ hc => exact hc.effect h.wf hreg (by simp [Event.plain])
  | @settime p u abstime its now ret r _ hits hs =>
      have hev : ∀ e ∈ (S.settimeDone p u r ret).2, e.plain = true ∨
          (r.2.1 = 0 ∧ (r.1.timer u).armed = true ∧ e = .armed u (r.1.timer u).event.reg) := by
        intro e he
        simp only [System.settimeDone] at he
        split at he <;> split at he <;> simp_all [Event.plain]
        rcases he with rfl | rfl <;> simp
      rw [System.settimeDone_svc]
      cases hs with
      | @arm th hin hth hvalue =>
          dsimp only
          refine .arm u th (fun t ht => SameTimer.move ht) hin ?_ ?_ hth ?_ ?_ ?_ ?_ ?_
          · simpa [State.armedNode] using hin
          · simp [State.armedNode]
          · simpa [State.armedNode] using hth
          · simp [State.armedNode]
          · exact (State.mem_move_queue _ u u th _ _).mpr (.inl ⟨rfl, rfl⟩)
          · simp
          · intro e he
            refine (hev e he).imp id fun h => ?_
            simpa [State.armedNode] using h.2.2
      | stop hin hvalue =>
          dsimp only
          refine .stop u (fun t ht => SameTimer.move ht) hin ?_ ?_ ?_ ?_ ?_ ?_
          · simpa [State.stoppedNode] using hin
          · simp [State.stoppedNode]
          · simp [State.stoppedNode]
          · simp [State.stoppedNode]
          · simp
          · intro e he
            refine (hev e he).resolve_right fun h => ?_
            simpa [State.stoppedNode] using h.2.1
      | free hin =>
          dsimp only
          refine .refresh u (fun t ht => SameTimer.move ht) hin ?_ ?_ ?_ ?_
          · simp [State.freedNode]
          · simp [State.freedNode]
          · simp
          · intro e he
            exact (hev e he).resolve_right fun h => by simp at h
      | lost hin =>
          refine .none (SameTimer.refl _) rfl fun e he => ?_
          exact (hev e he).resolve_right fun h => by simp at h
  | @delete p u th called svc hd hsvc =>
      rw [System.setCall_svc]
      cases hsvc with
      | released hin =>
          dsimp only
          refine .release u p th called (fun t ht => SameTimer.move ht) hin ?_ ?_ ?_ rfl
          · simp [State.freedNode]
          · simp [State.freedNode]
          · simp
      | lost hin =>
          dsimp only
          exact .lose u p th called (fun t ht => SameTimer.move ht) hin (by simp) (by simp) (by simp) rfl
  | wakeup =>
      rw [System.setCall_svc, System.broadcast_svc]
      exact .none (SameTimer.refl _) rfl (by simp [Event.plain])
  | look _ hs => exact hs.effect
  | invoke => exact .none (SameTimer.refl _) rfl (by simp [Event.plain])
  | @finish th u reg now S' ev _ _ hs =>
      exact hs.effect.of_same (SameTimer.expireDone S.svc th) rfl rfl
  | wake => exact .none (SameTimer.refl _) rfl (by simp)

theorem Trans.deletes {S S' : System} {a : Action} {ev : List Event} (ht : Trans S a S' ev) {p : Pthread}
    {t : TimerId} {o : Option ThreadId} {called acted : Nat} (hmem : .deleted p t o called acted ∈ ev) :
    Deletes S a p t o called := by
  have hserved {S₀ : System} {th : ThreadId} {now : ClockReading} (hs : Served S₀ th now (S', ev)) : False := by
    cases hs <;> simp at hmem
  cases ht with
  | quiet _ _ hev =>
      obtain ⟨r, hr⟩ := hev _ hmem
      cases hr
  | data _ _ _ hev =>
      obtain ⟨r, hr⟩ := hev _ hmem
      cases hr
  | created => simp at hmem
  | notCreated => simp at hmem
  | settime =>
      simp only [System.settimeDone] at hmem
      split at hmem <;> split at hmem <;> simp at hmem
  | delete hd =>
      obtain ⟨rfl, rfl, rfl, rfl, -⟩ : _ ∧ _ ∧ _ ∧ _ ∧ _ := by simpa using hmem
      exact hd
  | wakeup => simp at hmem
  | look _ hs => exact (hserved hs).elim
  | invoke => simp at hmem
  | finish _ _ hs => exact (hserved hs).elim
  | wake => simp at hmem

end Pc02.Timer

import Pc02.Timer.FailedAdd
import Pc02.Timer.Pool

/-!
# Sharing threads and running out of them

Timers of one priority share one thread, which outlives them. Next to the state it is recorded which
priority each timer was added with and which priorities were used at all; the active threads are those
of the priorities that were used, and `os_timer_add` fails when there is no slot, or no thread for a
priority that is new.
-/

namespace Pc02.Timer

open Function Machines

def AddArgs.prioOk (a : AddArgs) : Bool := 1 ≤ a.prio ∧ a.prio ≤ 99

/-- `pthread_create` succeeds, priorities are in range and handlers return. -/
def Action.accommodated : Action → Bool
  | .add _ args created => created && args.prioOk
  | a => a.returns

/-- The priority that each timer was added with last, and all that timers were added with. -/
structure Record where
  prio : TimerId → Int
  used : List Int

/-- A timer is on record once `__timer_create` has succeeded. -/
def Record.note (R : Record) (a : Action) (S' : System) : Record :=
  match a with
  | .add p args _ =>
      match S'.call p with
      | .adding _ t => ⟨Function.update R.prio t args.prio, args.prio :: R.used⟩
      | _ => R
  | _ => R

def recorded : Machine (System × Record) Action Event where
  init := (System.init, ⟨fun _ => 0, []⟩)
  step := fun P a => (P.1.step a).map fun r => ((r.1, P.2.note a r.1), r.2)

/-- The thread nodes are shared by priority, and `os_timer_add` makes use of every slot and node. -/
structure Accommodates (s : State) (R : Record) : Prop where
  distinct : s.threadActiveList.Pairwise fun th th' =>
    ((s.thread th).attr.policy, (s.thread th).attr.priority, (s.thread th).clockId) ≠
      ((s.thread th').attr.policy, (s.thread th').attr.priority, (s.thread th').clockId)
  bounded : s.threadActiveList.length ≤ threadMaxnodes
  served : ∀ t, (s.timer t).inuse = .inuse →
    ∃ th ∈ s.threadActiveList, (s.timer t).thread = some th ∧ (s.thread th).attr = ⟨.rr, R.prio t⟩
  add_iff : ∀ (args : AddArgs) (now : Timespec), 0 < args.millisec → args.handler ≠ none → args.timerid = true →
    args.prioOk = true →
    ((s.osTimerAdd args true now).2 ≠ none ↔
      (Finset.univ.filter fun t => (s.timer t).inuse = .inuse).card < timerMax ∧
        ((∃ th ∈ s.threadActiveList, (s.thread th).attr = ⟨.rr, args.prio⟩) ∨
          R.used.toFinset.card < threadMaxnodes))

theorem AddArgs.attr_eq {a : AddArgs} (h : a.prioOk = true) : a.attr = ⟨.rr, a.prio⟩ := by
  simp only [AddArgs.prioOk, decide_eq_true_eq] at h
  simp [AddArgs.attr, pthreadAttrSetschedparam, h]

/-! ### Steps that leave the thread nodes alone -/

structure Steady (s s' : State) : Prop where
  active : s'.threadActiveList = s.threadActiveList
  thread : ∀ th ∈ s.threadActiveList,
    (s'.thread th).attr = (s.thread th).attr ∧ (s'.thread th).clockId = (s.thread th).clockId
  timer : ∀ t, (s'.timer t).inuse = .inuse →
    (s.timer t).inuse = .inuse ∧ (s'.timer t).thread = (s.timer t).thread

namespace Steady

variable {s s' s'' : State} {t : TimerId} {th : ThreadId}

theorem refl (s : State) : Steady s s := ⟨rfl, fun _ _ => ⟨rfl, rfl⟩, fun _ h => ⟨h, rfl⟩⟩

theorem trans (h : Steady s s') (h' : Steady s' s'') : Steady s s'' := by
  constructor
  · rw [h'.active, h.active]
  · intro th hth
    have hth' := h'.thread th (by rw [h.active]; exact hth)
    rw [hth'.1, hth'.2]
    exact h.thread th hth
  · intro t ht
    have ht' := h'.timer t ht
    rw [ht'.2]
    exact h.timer t ht'.1

theorem setTimer {f : TimerNode → TimerNode} (hf : ∀ n, (f n).inuse = .inuse → n.inuse = .inuse ∧ (f n).thread = n.thread) :
    Steady s (s.setTimer t f) := by
  refine ⟨rfl, fun _ _ => ⟨rfl, rfl⟩, fun u hu => ?_⟩
  by_cases hut : u = t
  · subst hut
    rw [State.setTimer_timer, Function.update_self] at hu ⊢
    exact hf _ hu
  · rw [State.setTimer_timer, Function.update_of_ne hut] at hu ⊢
    exact ⟨hu, rfl⟩

theorem setThread {f : ThreadNode → ThreadNode} (hf : ∀ n, (f n).attr = n.attr ∧ (f n).clockId = n.clockId) :
    Steady s (s.setThread th f) := by
  refine ⟨rfl, fun x _ => ?_, fun _ h => ⟨h, rfl⟩⟩
  by_cases hx : x = th
  · subst hx
    rw [State.setThread_thread, Function.update_self]
    exact hf _
  · rw [State.setThread_thread, Function.update_of_ne hx]
    exact ⟨rfl, rfl⟩

theorem move {n : TimerNode} (d : Place)
    (hn : n.inuse = .inuse → (s.timer t).inuse = .inuse ∧ n.thread = (s.timer t).thread) :
    Steady s (s.move t n d) := by
  refine ⟨s.move_threadActiveList t n d, fun x _ => ⟨s.move_attr t x n d, s.move_clockId t x n d⟩, fun u hu => ?_⟩
  by_cases hut : u = t
  · subst hut
    rw [State.move_timer, Function.update_self] at hu ⊢
    exact hn hu
  · rw [State.move_timer, Function.update_of_ne hut] at hu ⊢
    exact ⟨hu, rfl⟩

theorem settimed {abstime : Bool} {its : Itimerspec} {now : Timespec} {r : Int × Option ThreadId}
    (h : State.Settimed s t abstime its now (s', r)) : Steady s s' := by
  cases h with
  | arm =>
      apply move
      intro hin
      exact ⟨hin, rfl⟩
  | stop =>
      apply move
      intro hin
      exact ⟨hin, rfl⟩
  | free =>
      apply move
      intro hin
      cases hin
  | lost => exact refl s

theorem deleted (h : State.Deleted s t s') : Steady s s' := by
  cases h with
  | released =>
      apply move
      intro hin
      cases hin
  | lost =>
      apply move
      intro hin
      cases hin

theorem announce (h : Steady s s') (o : Option TimerId) :
    Steady s (s'.setThread th fun n => { n with currentTimer := o }) := by
  apply h.trans
  apply setThread
  intro n
  exact ⟨rfl, rfl⟩

theorem served {S S' : System} {now : ClockReading} {ev : List Event} (h : Served S th now (S', ev)) :
    Steady S.svc S'.svc := by
  cases h with
  | empty => exact refl _
  | early => exact refl _
  | @due t rest hq hdue =>
      obtain ⟨hinuse, -, hthread, -⟩ := expiredNode_inuse (S.svc.timer t) now
      change Steady S.svc (S.svc.expireTimer th t now)
      rw [State.expireTimer_eq_move]
      apply announce
      apply move
      intro hin
      rw [hinuse] at hin
      exact ⟨hin, hthread⟩

theorem timerThreadEnsure (s : State) (th : ThreadId) (created : Bool) :
    Steady s (s.timerThreadEnsure th created).1 := by
  have hassert : Steady s (s.assert (!(s.thread th).existsFlag)) :=
    ⟨rfl, fun _ _ => ⟨rfl, rfl⟩, fun _ h => ⟨h, rfl⟩⟩
  simp only [State.timerThreadEnsure, State.timerThreadStart]
  split
  · exact refl s
  · split
    · dsimp only
      apply hassert.trans
      apply setThread
      exact fun _ => ⟨rfl, rfl⟩
    · dsimp only
      apply hassert.trans
      apply setThread
      exact fun _ => ⟨rfl, rfl⟩

theorem settimeDone {S : System} {p : Pthread} {abstime : Bool} {its : Itimerspec} {now : ClockReading} {ret : Ret}
    (h : S.Inv) (hits : its.Ok) :
    Steady S.svc (S.settimeDone p t (S.svc.timerSettime (some t) abstime its now) ret).1.svc := by
  rw [System.settimeDone_svc]
  exact settimed (State.timerSettime_settimed h.wf hits t abstime now)

end Steady

theorem step_steady {S S' : System} {a : Action} {ev : List Event} (h : S.Inv) (hret : a.returns = true)
    (hadd : ∀ p args created, a ≠ .add p args created) (hstep : S.step a = some (S', ev)) : Steady S.svc S'.svc := by
  cases step_stepped hstep with
  | addRefused => exact absurd rfl (hadd _ _ _)
  | addFailed => exact absurd rfl (hadd _ _ _)
  | add => exact absurd rfl (hadd _ _ _)
  | addInit =>
      dsimp only [System.setCall_svc]
      apply Steady.setTimer
      exact fun _ hin => ⟨hin, rfl⟩
  | @addArm p now args t hcall =>
      have hms : 0 < args.millisec := by simpa [hcall, Call.Ok] using h.calls p
      exact Steady.settimeDone h (AddArgs.its_ok hms)
  | @startArm p now t its hcall =>
      have hits : its.Ok := by simpa [hcall, Call.Ok] using h.calls p
      exact Steady.settimeDone h hits
  | stop => exact Steady.settimeDone h zeroItimerspec_ok
  | settime =>
      dsimp only
      apply Steady.setTimer
      exact fun _ hin => ⟨hin, rfl⟩
  | @del p t => exact Steady.deleted (State.timerDelete_deleted h.wf t)
  | @delWake p t => exact Steady.deleted (State.timerDelete_deleted h.wf t)
  | wakeup =>
      rw [System.setCall_svc, System.broadcast_svc]
      exact .refl _
  | @look th now => exact Steady.served (serve_served S th now)
  | @finish th _ _ now =>
      exact ((Steady.refl S.svc).announce none).trans
        (Steady.served (serve_served { S with svc := S.svc.expireDone th } th now))
  | exit => cases hret
  | _ => exact .refl _

/-! ### The invariant -/

/-- There is one active node for each priority that was used, and timers are on the node of theirs. -/
structure Shared (s : State) (R : Record) : Prop where
  plain : ∀ th ∈ s.threadActiveList, (s.thread th).attr.policy = .rr ∧ (s.thread th).clockId = .monotonic
  distinct : ∀ th ∈ s.threadActiveList, ∀ th' ∈ s.threadActiveList,
    (s.thread th).attr.priority = (s.thread th').attr.priority → th = th'
  served : ∀ t, (s.timer t).inuse = .inuse →
    ∃ th ∈ s.threadActiveList, (s.timer t).thread = some th ∧ (s.thread th).attr.priority = R.prio t
  used : ∀ prio, prio ∈ R.used ↔ ∃ th ∈ s.threadActiveList, (s.thread th).attr.priority = prio

section Create

variable {s s' u u' : State} {R : Record} {th : ThreadId} {t : TimerId} {attr : Attr} {clock : ClockId}
  {event : Sigevent} {created b : Bool} {prio : Int}

theorem Shared.congr (h : Shared s R) (hactive : s'.threadActiveList = s.threadActiveList)
    (hthread : ∀ x ∈ s.threadActiveList,
      (s'.thread x).attr = (s.thread x).attr ∧ (s'.thread x).clockId = (s.thread x).clockId)
    {prioOf : TimerId → Int} (hserved : ∀ t, (s'.timer t).inuse = .inuse →
      ∃ th ∈ s.threadActiveList, (s'.timer t).thread = some th ∧ (s.thread th).attr.priority = prioOf t) :
    Shared s' ⟨prioOf, R.used⟩ := by
  constructor
  · intro x hx
    rw [hactive] at hx
    rw [(hthread x hx).1, (hthread x hx).2]
    exact h.plain x hx
  · intro x hx y hy heq
    rw [hactive] at hx hy
    rw [(hthread x hx).1, (hthread y hy).1] at heq
    exact h.distinct x hx y hy heq
  · intro t ht
    obtain ⟨x, hx, hserves, hprio⟩ := hserved t ht
    rw [hactive]
    exact ⟨x, hx, hserves, by rw [(hthread x hx).1, hprio]⟩
  · intro q
    rw [hactive, h.used]
    constructor
    · intro hq
      obtain ⟨x, hx, hprio⟩ := hq
      exact ⟨x, hx, by rw [(hthread x hx).1, hprio]⟩
    · intro hq
      obtain ⟨x, hx, hprio⟩ := hq
      exact ⟨x, hx, by rw [← (hthread x hx).1, hprio]⟩

theorem Steady.shared (h : Steady s s') (hs : Shared s R) : Shared s' R := by
  apply hs.congr h.active h.thread
  intro t ht
  obtain ⟨hin, hthread⟩ := h.timer t ht
  rw [hthread]
  exact hs.served t hin

theorem GivenBack.steady (h : GivenBack s s') : Steady s s' := by
  constructor
  · exact h.active
  · intro th hth
    rw [h.thread th hth]
    exact ⟨rfl, rfl⟩
  · intro t ht
    rw [h.inuse] at ht
    rw [h.timer t ht]
    exact ⟨ht, rfl⟩

theorem threadAttrCompare_iff (left right : Attr) : State.threadAttrCompare left right = true ↔ right = left := by
  cases left
  cases right
  simp only [State.threadAttrCompare, decide_eq_true_eq, Attr.mk.injEq]
  exact and_congr eq_comm eq_comm

theorem matching_iff (s : State) (attr : Attr) (clock : ClockId) (th : ThreadId) :
    (State.threadAttrCompare attr (s.thread th).attr && decide (clock = (s.thread th).clockId)) = true ↔
      (s.thread th).attr = attr ∧ (s.thread th).clockId = clock := by
  rw [Bool.and_eq_true, threadAttrCompare_iff, decide_eq_true_eq, eq_comm (a := clock)]

theorem findMatching_eq_none (s : State) (attr : Attr) (clock : ClockId) : s.timerThreadFindMatching attr clock = none ↔
    ∀ th ∈ s.threadActiveList, ¬ ((s.thread th).attr = attr ∧ (s.thread th).clockId = clock) := by
  rw [State.timerThreadFindMatching, List.find?_eq_none]
  apply forall₂_congr
  intro th _
  rw [matching_iff]

/-- The node that `__timer_create` gets: the active one with the attributes, or a new one that is given
them. -/
theorem timerThreadGet_attr (h : s.Wf) (hget : s.timerThreadGet attr clock = some (u, th)) :
    (u = s ∧ th ∈ s.threadActiveList ∧ (s.thread th).attr = attr) ∨
    ((∀ x ∈ s.threadActiveList, ¬ ((s.thread x).attr = attr ∧ (s.thread x).clockId = clock)) ∧
      u.threadActiveList = s.threadActiveList ++ [th] ∧ (u.thread th).attr = attr ∧ (u.thread th).clockId = clock ∧
      ∀ x ∈ s.threadActiveList, u.thread x = s.thread x) := by
  rcases State.timerThreadGet_eq_some hget with ⟨hfind, rfl⟩ | ⟨hfind, halloc⟩
  · left
    have htest := List.find?_some hfind
    rw [matching_iff] at htest
    exact ⟨rfl, List.mem_of_find?_eq_some hfind, htest.1⟩
  · right
    obtain ⟨rest, hfree, rfl⟩ := State.timerThreadAlloc_eq_some halloc
    refine ⟨(findMatching_eq_none s attr clock).mp hfind, rfl, by simp [State.threadInit], by simp [State.threadInit], ?_⟩
    intro x hx
    have hne : x ≠ th := by
      intro heq
      exact (List.nodup_append.mp h.threadNodup).2.2 th (by simp [hfree]) x hx heq.symm
    simp [State.threadInit, hne]

theorem Shared.join (h : Shared s R) (hth : th ∈ s.threadActiveList) (hprio : (s.thread th).attr.priority = prio)
    (hactive : s'.threadActiveList = s.threadActiveList)
    (hthread : ∀ x ∈ s.threadActiveList,
      (s'.thread x).attr = (s.thread x).attr ∧ (s'.thread x).clockId = (s.thread x).clockId)
    (hnew : (s'.timer t).thread = some th) (hold : ∀ u, u ≠ t → s'.timer u = s.timer u) :
    Shared s' ⟨Function.update R.prio t prio, R.used⟩ := by
  apply h.congr hactive hthread
  intro u hu
  by_cases hut : u = t
  · subst hut
    exact ⟨th, hth, hnew, by rw [Function.update_self, hprio]⟩
  · rw [hold u hut] at hu ⊢
    rw [Function.update_of_ne hut]
    exact h.served u hu

theorem Shared.enlist (h : Shared s R) (hnone : ∀ x ∈ s.threadActiveList, (s.thread x).attr.priority ≠ prio)
    (hactive : u.threadActiveList = s.threadActiveList ++ [th]) (hattr : (u.thread th).attr = ⟨.rr, prio⟩)
    (hclock : (u.thread th).clockId = .monotonic) (hthread : ∀ x ∈ s.threadActiveList, u.thread x = s.thread x)
    (htimer : u.timer = s.timer) : Shared u ⟨R.prio, prio :: R.used⟩ := by
  have hmem (x : ThreadId) : x ∈ u.threadActiveList ↔ x ∈ s.threadActiveList ∨ x = th := by
    rw [hactive, List.mem_append, List.mem_singleton]
  constructor
  · intro x hx
    rcases (hmem x).mp hx with hx | rfl
    · rw [hthread x hx]
      exact h.plain x hx
    · rw [hattr]
      exact ⟨rfl, hclock⟩
  · intro x hx y hy heq
    rcases (hmem x).mp hx with hx | rfl
    · rcases (hmem y).mp hy with hy | rfl
      · rw [hthread x hx, hthread y hy] at heq
        exact h.distinct x hx y hy heq
      · rw [hthread x hx, hattr] at heq
        exact absurd heq (hnone x hx)
    · rcases (hmem y).mp hy with hy | rfl
      · rw [hthread y hy, hattr] at heq
        exact absurd heq.symm (hnone y hy)
      · rfl
  · intro t ht
    rw [htimer] at ht ⊢
    obtain ⟨x, hx, hserves, hx'⟩ := h.served t ht
    exact ⟨x, (hmem x).mpr (.inl hx), hserves, by rw [hthread x hx, hx']⟩
  · intro q
    rw [List.mem_cons, h.used]
    constructor
    · intro hq
      rcases hq with rfl | ⟨x, hx, hx'⟩
      · exact ⟨th, (hmem th).mpr (.inr rfl), by rw [hattr]⟩
      · exact ⟨x, (hmem x).mpr (.inl hx), by rw [hthread x hx, hx']⟩
    · intro hq
      obtain ⟨x, hx, hx'⟩ := hq
      rcases (hmem x).mp hx with hx | rfl
      · exact .inr ⟨x, hx, by rw [← hthread x hx, hx']⟩
      · exact .inl (by rw [← hx', hattr])

theorem State.Created.shared (h : s.Wf) (hs : Shared s R)
    (hc : State.Created s .monotonic event ⟨.rr, prio⟩ created (s', some t)) :
    Shared s' ⟨Function.update R.prio t prio, prio :: R.used⟩ := by
  cases hc with
  | @ok _ _ u u' th hfree hget hens =>
      have hgot := State.timerThreadGet_got h hget
      have hensured : Steady u u' := by
        have hsteady := Steady.timerThreadEnsure u th created
        rwa [hens] at hsteady
      have htimer : u'.timer = s.timer := (State.timerThreadEnsure_got hgot hens).timer
      have hjoin {R' : Record} (hu : Shared u R') (hprio : (u.thread th).attr.priority = prio) :
          Shared (u'.move t (State.createdNode (s.timer t) event ⟨.rr, prio⟩ .monotonic th) .nowhere).bump
            ⟨Function.update R'.prio t prio, R'.used⟩ := by
        apply hu.join hgot.active hprio
        · exact hensured.active
        · intro x hx
          exact hensured.thread x hx
        · simp [State.bump, State.createdNode]
        · intro v hv
          simp [State.bump, hv, htimer, hgot.timer]
      rcases timerThreadGet_attr h hget with ⟨rfl, hth, hattr⟩ | ⟨hnone, hactive, hattr, hclock, hthread⟩
      · have hused : prio ∈ R.used := (hs.used prio).mpr ⟨th, hth, by rw [hattr]⟩
        have hjoined := hjoin hs (by rw [hattr])
        refine ⟨hjoined.plain, hjoined.distinct, hjoined.served, ?_⟩
        intro q
        rw [← hjoined.used, List.mem_cons]
        constructor
        · intro hq
          rcases hq with rfl | hq
          · exact hused
          · exact hq
        · exact .inr
      · have hfresh : ∀ x ∈ s.threadActiveList, (s.thread x).attr.priority ≠ prio := by
          intro x hx heq
          obtain ⟨hpolicy, hclock'⟩ := hs.plain x hx
          apply hnone x hx
          refine ⟨?_, hclock'⟩
          rw [← hpolicy, ← heq]
        exact hjoin (hs.enlist hfresh hactive hattr hclock hthread hgot.timer) (by rw [hattr])

end Create

structure Held (P : System × Record) : Prop where
  inv : P.1.Inv
  alive : P.1.svc.Alive
  covered : P.1.svc.Covered
  shared : Shared P.1.svc P.2

theorem accommodated_returns {a : Action} (h : a.accommodated = true) : a.returns = true := by
  cases a with
  | add => rfl
  | _ => exact h

theorem note_other {R : Record} {a : Action} (hadd : ∀ p args created, a ≠ .add p args created) (S' : System) :
    R.note a S' = R := by
  cases a with
  | add p args created => exact absurd rfl (hadd p args created)
  | _ => rfl

theorem Held.add {S S' : System} {R : Record} {p : Pthread} {args : AddArgs} {created : Bool} {ev : List Event}
    (h : Held (S, R)) (hok : (Action.add p args created).accommodated = true)
    (hstep : S.step (.add p args created) = some (S', ev)) :
    Shared S'.svc (R.note (.add p args created) S') := by
  have hinv : S.Inv := h.inv
  have hwf := hinv.wf
  have halive : S.svc.Alive := h.alive
  have hc := State.osTimerAddCreate_created hwf (halive.createSafe args.attr .monotonic created)
  have hprio : args.prioOk = true := by
    simp only [Action.accommodated, Bool.and_eq_true] at hok
    exact hok.2
  cases step_stepped hstep with
  | addRefused hp =>
      have hnote : R.note (.add p args created) S = R := by simp only [Record.note, canCall_idle hp]
      rw [hnote]
      exact h.shared
  | @addFailed _ _ _ svc hp _ hres =>
      have hnote : R.note (.add p args created) (S.spawn svc) = R := by
        simp only [Record.note, System.spawn_call, canCall_idle hp]
      rw [hnote]
      rw [hres] at hc
      exact (hc.givenBack hwf halive).steady.shared h.shared
  | @add _ _ _ svc t _ _ hres =>
      have hnote : R.note (.add p args created) ((S.spawn svc).setCall p (.adding args t)) =
          ⟨Function.update R.prio t args.prio, args.prio :: R.used⟩ := by simp [Record.note]
      rw [hnote]
      rw [hres, AddArgs.attr_eq hprio] at hc
      exact hc.shared hwf h.shared

theorem Held.step {P P' : System × Record} {a : Action} {ev : List Event} (h : Held P) (hok : a.accommodated = true)
    (hstep : recorded.step P a = some (P', ev)) : P.1.step a = some (P'.1, ev) ∧ Held P' := by
  obtain ⟨S, R⟩ := P
  simp only [recorded] at hstep
  cases hS : S.step a with
  | none =>
      rw [hS] at hstep
      cases hstep
  | some r =>
      obtain ⟨S', ev'⟩ := r
      rw [hS] at hstep
      obtain ⟨rfl, rfl⟩ := Prod.mk.inj (Option.some.inj hstep)
      have hret := accommodated_returns hok
      have ht := step_trans h.inv (h.alive.safe hret) hret hS
      refine ⟨rfl, ht.inv h.inv, ht.alive h.inv h.alive, ht.covered h.covered, ?_⟩
      by_cases hadd : ∃ p args created, a = .add p args created
      · obtain ⟨p, args, created, rfl⟩ := hadd
        exact h.add hok hS
      · have hother : ∀ p args created, a ≠ .add p args created := by
          intro p args created heq
          exact hadd ⟨p, args, created, heq⟩
        change Shared S'.svc (R.note a S')
        rw [note_other hother]
        exact (step_steady h.inv hret hother hS).shared h.shared

theorem init_held : Held recorded.init where
  inv := init_inv
  alive := fun th hth => (List.not_mem_nil hth).elim
  covered := init_covered
  shared :=
    { plain := fun th hth => (List.not_mem_nil hth).elim
      distinct := fun th hth => (List.not_mem_nil hth).elim
      served := fun t ht => (Inuse.noConfusion ht)
      used := fun q => by simp [recorded, System.init, initModule] }

/-! ### Capacity -/

section Capacity

variable {s : State} {R : Record} {args : AddArgs}

theorem timerThreadEnsure_starts {u u' : State} {th : ThreadId} (hens : u.timerThreadEnsure th true = (u', false)) :
    False := by
  cases hex : (u.thread th).existsFlag <;>
    simp [State.timerThreadEnsure, State.timerThreadStart, hex] at hens

/-- With `pthread_create` succeeding, a call fails without a slot or without a thread node. -/
theorem osTimerAdd_isSome (h : s.Wf) (ha : s.Alive) (hacc : args.accepted = true) (now : Timespec) :
    (s.osTimerAdd args true now).2 ≠ none ↔
      s.timerFreeList ≠ [] ∧ s.timerThreadGet args.attr .monotonic ≠ none := by
  have hc := State.osTimerAddCreate_created h (ha.createSafe args.attr .monotonic true)
  rw [ne_eq, osTimerAdd_result h ha hacc]
  generalize s.osTimerAddCreate args true = r at hc
  cases hc with
  | full hfree => simp [hfree]
  | noThread hfree hget => simp [hget]
  | noStart hfree hget hens => exact (timerThreadEnsure_starts hens).elim
  | ok hfree hget hens => simp [hfree, hget]

theorem timerThreadGet_ne_none : s.timerThreadGet args.attr .monotonic ≠ none ↔
    (∃ th ∈ s.threadActiveList, (s.thread th).attr = args.attr ∧ (s.thread th).clockId = .monotonic) ∨
      s.threadFreeList ≠ [] := by
  have hfind := findMatching_eq_none s args.attr .monotonic
  simp only [State.timerThreadGet]
  cases hm : s.timerThreadFindMatching args.attr .monotonic with
  | some th =>
      have hex := mt hfind.mpr (by simp [hm])
      push Not at hex
      simpa using .inl hex
  | none =>
      have hno := hfind.mp hm
      have hfalse : ¬ ∃ th ∈ s.threadActiveList, (s.thread th).attr = args.attr ∧ (s.thread th).clockId = .monotonic := by
        intro hex
        obtain ⟨th, hth, hmatch⟩ := hex
        exact hno th hth hmatch
      simp only [hfalse, false_or, State.timerThreadAlloc]
      cases s.threadFreeList <;> simp

theorem Shared.nodes (hs : Shared s R) (h : s.Wf) (hcov : s.Covered) :
    s.threadFreeList.length + R.used.toFinset.card = threadMaxnodes := by
  obtain ⟨-, hactive, -⟩ := List.nodup_append.mp h.threadNodup
  let prioOf : ThreadId → Int := fun th => (s.thread th).attr.priority
  have hmap : (s.threadActiveList.map prioOf).Nodup := by
    apply hactive.map_on
    exact fun x hx y hy heq => hs.distinct x hx y hy heq
  have hused : R.used.toFinset = (s.threadActiveList.map prioOf).toFinset := by
    ext q
    rw [List.mem_toFinset, List.mem_toFinset, List.mem_map]
    exact hs.used q
  have hall : (s.threadFreeList ++ s.threadActiveList).toFinset = Finset.univ := by
    ext x
    simpa using hcov x
  calc s.threadFreeList.length + R.used.toFinset.card
      = s.threadFreeList.length + s.threadActiveList.length := by
        rw [hused, List.toFinset_card_of_nodup hmap, List.length_map]
    _ = (s.threadFreeList ++ s.threadActiveList).length := List.length_append.symm
    _ = threadMaxnodes := by rw [← List.toFinset_card_of_nodup h.threadNodup, hall, Finset.card_univ, Fintype.card_fin]

theorem Shared.accommodates (hs : Shared s R) (h : s.Wf) (ha : s.Alive) (hcov : s.Covered)
    (hkept : ∀ t, (s.timer t).inuse ≠ .deleted) : Accommodates s R where
  distinct := by
    apply (List.nodup_append.mp h.threadNodup).2.1.imp_of_mem
    intro th th' hth hth' hne heq
    apply hne
    apply hs.distinct th hth th' hth'
    exact congrArg (fun k : SchedPolicy × Int × ClockId => k.2.1) heq
  bounded := by
    have hle := (List.nodup_append.mp h.threadNodup).2.1.length_le_card
    rwa [Fintype.card_fin] at hle
  served := by
    intro t ht
    obtain ⟨th, hth, hserves, hprio⟩ := hs.served t ht
    refine ⟨th, hth, hserves, ?_⟩
    rw [← (hs.plain th hth).1, ← hprio]
  add_iff := by
    intro args now hms hhandler htimerid hprio
    have hacc : args.accepted = true := by
      simp only [AddArgs.accepted, decide_eq_true_eq, not_or]
      exact ⟨not_le.mpr hms, hhandler, by simp [htimerid]⟩
    have hpool := h.pool_size hkept
    have hnodes := hs.nodes h hcov
    have hslot : s.timerFreeList ≠ [] ↔
        (Finset.univ.filter fun t => (s.timer t).inuse = .inuse).card < timerMax := by
      rw [← List.length_pos_iff]
      omega
    have hnode : s.threadFreeList ≠ [] ↔ R.used.toFinset.card < threadMaxnodes := by
      rw [← List.length_pos_iff]
      omega
    have hactive : (∃ th ∈ s.threadActiveList, (s.thread th).attr = args.attr ∧ (s.thread th).clockId = .monotonic) ↔
        ∃ th ∈ s.threadActiveList, (s.thread th).attr = ⟨.rr, args.prio⟩ := by
      rw [AddArgs.attr_eq hprio]
      constructor
      · intro hex
        obtain ⟨th, hth, hmatch, -⟩ := hex
        exact ⟨th, hth, hmatch⟩
      · intro hex
        obtain ⟨th, hth, hmatch⟩ := hex
        exact ⟨th, hth, hmatch, (hs.plain th hth).2⟩
    rw [osTimerAdd_isSome h ha hacc, timerThreadGet_ne_none, hslot, hnode, hactive]

end Capacity

/-! ### Every slot taken -/

def spare : AddArgs := ⟨30, 1000, timerStopped, some 1, 0, true⟩

theorem Held.steps {P P' : System × Record} {tr : List Event} (h : Held P)
    (hrun : Steps recorded (fun _ a => a.accommodated = true) P tr P') : Held P' :=
  hrun.invariant (I := Held) (fun _ _ _ _ hP hok hstep => (hP.step hok hstep).2) h

theorem Held.initSpare {S : System} {R : Record} {t : TimerId} (h : Held (S, R))
    (hcall : S.call (.client 0) = .adding spare t) (hin : (S.svc.timer t).inuse = .inuse) :
    ∃ tr S', Steps recorded (fun _ a => a.accommodated = true) (S, R) tr (S', R) ∧ S'.call (.client 0) = .idle ∧
      ∀ u, (S'.svc.timer u).inuse = (S.svc.timer u).inuse := by
  let S₁ : System := { S with svc := S.svc.setTimer t fun n =>
    { n with type := spare.type, millisec := spare.millisec } }.setCall (.client 0) (.addArming spare t)
  have hinit : recorded.step (S, R) (.addInit (.client 0)) = some ((S₁, R), []) := by
    simp only [recorded, addInit_step h.inv hcall hin, Option.map_some]
    rfl
  have hkept (u : TimerId) : (S₁.svc.timer u).inuse = (S.svc.timer u).inuse := by
    by_cases hu : u = t
    · subst hu
      simp [S₁]
    · simp [S₁, hu]
  have h₁ : Held (S₁, R) := (h.step rfl hinit).2
  have hs := State.timerSettime_settimed h₁.inv.wf (AddArgs.its_ok (show 0 < spare.millisec by decide)) t false (atSec 0).1
  cases hr : S₁.svc.timerSettime (some t) false spare.its (atSec 0) with
  | mk svc r =>
      rw [hr] at hs
      have hstop : svc = S₁.svc.move t (State.stoppedNode (S₁.svc.timer t) spare.its) .nowhere ∧ r = (0, none) := by
        have hused := (hkept t).trans hin
        cases hs with
        | arm _ _ hvalue => exact absurd (by decide) hvalue
        | stop => exact ⟨rfl, rfl⟩
        | free hfree => cases hfree.symm.trans hused
        | lost hlost => cases hlost.symm.trans hused
      obtain ⟨rfl, rfl⟩ := hstop
      let S₂ : System := { S₁ with svc := S₁.svc.move t (State.stoppedNode (S₁.svc.timer t) spare.its) .nowhere }.setCall
        (.client 0) .idle
      have harm : recorded.step (S₁, R) (.addArm (.client 0) (atSec 0)) =
          some ((S₂, R), [.returned (.client 0) (.added t)]) := by
        have hrun : S₁.svc.aborted = false := h₁.inv.wf.running
        have hcall₁ : S₁.call (.client 0) = .addArming spare t := by simp [S₁]
        have habs : hasFlag spare.flag timerAbstime = false := by decide
        have hnode : ((S₁.svc.move t (State.stoppedNode (S₁.svc.timer t) spare.its) .nowhere).timer t).armed = false := by
          simp [State.stoppedNode]
        simp only [recorded, System.step, hrun, Bool.false_eq_true, if_false, hcall₁, State.osTimerAddArm,
          habs, hr, System.settimeDone, hnode, and_false, List.nil_append, if_true, Option.map_some]
        rfl
      refine ⟨_, S₂, .snoc (.snoc .nil rfl hinit) rfl harm, by simp [S₂], fun u => ?_⟩
      rw [← hkept u]
      by_cases hu : u = t
      · subst hu
        simp [S₂, State.stoppedNode]
      · simp [S₂, hu]

theorem State.Created.took {s s' : State} {t : TimerId} {clock : ClockId} {event : Sigevent} {attr : Attr}
    {created : Bool} (h : s.Wf) (hc : State.Created s clock event attr created (s', some t)) :
    (s.timer t).inuse = .free ∧ (s'.timer t).inuse = .inuse ∧
      ∀ u, u ≠ t → (s'.timer u).inuse = (s.timer u).inuse := by
  cases hc with
  | @ok _ rest u u' th hfree hget hens =>
      have hgot := State.timerThreadEnsure_got (State.timerThreadGet_got h hget) hens
      refine ⟨(h.freeIff t).mp (by simp [hfree]), by simp [State.bump, State.createdNode, State.pendingNode], ?_⟩
      intro v hv
      simp [State.bump, hv, hgot.timer]

/-- A whole call of `os_timer_add`: a slot that was free comes into use. -/
theorem Held.addSpare {P : System × Record} (h : Held P) (hidle : P.1.call (.client 0) = .idle) (hprio : 30 ∈ P.2.used)
    (hslot : P.1.svc.timerFreeList ≠ []) :
    ∃ tr P' t, Steps recorded (fun _ a => a.accommodated = true) P tr P' ∧ P'.1.call (.client 0) = .idle ∧
      30 ∈ P'.2.used ∧ (P.1.svc.timer t).inuse = .free ∧ (P'.1.svc.timer t).inuse = .inuse ∧
      ∀ u, u ≠ t → (P'.1.svc.timer u).inuse = (P.1.svc.timer u).inuse := by
  obtain ⟨S, R⟩ := P
  have hwf : S.svc.Wf := h.inv.wf
  have hidle : S.call (.client 0) = .idle := hidle
  have hnode : S.svc.timerThreadGet spare.attr .monotonic ≠ none := by
    obtain ⟨th, hth, heq⟩ := (h.shared.used 30).mp hprio
    obtain ⟨hpolicy, hclock⟩ := h.shared.plain th hth
    have hattr : (S.svc.thread th).attr = spare.attr := by
      rw [AddArgs.attr_eq (by decide), ← hpolicy, show spare.prio = 30 from rfl, ← heq]
    exact timerThreadGet_ne_none.mpr (.inl ⟨th, hth, hattr, hclock⟩)
  have hacc : spare.accepted = true := by decide
  have hsome := (osTimerAdd_isSome hwf h.alive hacc zeroTimespec).mpr ⟨hslot, hnode⟩
  rw [osTimerAdd_result hwf h.alive hacc] at hsome
  have hc := State.osTimerAddCreate_created hwf (h.alive.createSafe spare.attr .monotonic true)
  cases hres : S.svc.osTimerAddCreate spare true with
  | mk svc o =>
      rw [hres] at hc hsome
      obtain ⟨t, rfl⟩ := Option.ne_none_iff_exists'.mp hsome
      obtain ⟨hfree, hin, hother⟩ := hc.took hwf
      let S₁ : System := (S.spawn svc).setCall (.client 0) (.adding spare t)
      have hadd : S.step (.add (.client 0) spare true) = some (S₁, []) := by
        simp [System.step, hwf.running, System.canCall, hidle, hacc, hres, S₁]
      have hstep : recorded.step (S, R) (.add (.client 0) spare true) =
          some ((S₁, R.note (.add (.client 0) spare true) S₁), []) := by
        simp only [recorded, hadd, Option.map_some]
      have hcall : S₁.call (.client 0) = .adding spare t := by simp [S₁]
      have hnote : 30 ∈ (R.note (.add (.client 0) spare true) S₁).used := by
        simp [Record.note, hcall, spare]
      obtain ⟨tr, S', hrest, hidle', hkept⟩ := (h.step rfl hstep).2.initSpare hcall hin
      have hfirst : Steps recorded (fun _ a => a.accommodated = true) (S, R) ([] ++ []) _ := .snoc .nil rfl hstep
      refine ⟨_, _, t, hfirst.trans hrest, hidle', hnote, hfree, (hkept t).trans hin, fun u hu => ?_⟩
      exact (hkept u).trans (hother u hu)

/-- Calls of `os_timer_add` take every slot that is free. -/
theorem Held.fill (n : Nat) : ∀ P : System × Record, Held P → P.1.call (.client 0) = .idle → 30 ∈ P.2.used →
    P.1.svc.timerFreeList.length = n →
    ∃ tr P', Steps recorded (fun _ a => a.accommodated = true) P tr P' ∧ 30 ∈ P'.2.used ∧
      P'.1.svc.timerFreeList = [] ∧
      ∀ t, (P'.1.svc.timer t).inuse = .deleted ↔ (P.1.svc.timer t).inuse = .deleted := by
  induction n with
  | zero =>
      intro P _ _ hprio hlen
      exact ⟨_, P, .nil, hprio, List.length_eq_zero_iff.mp hlen, fun _ => Iff.rfl⟩
  | succ n ih =>
      intro P h hidle hprio hlen
      have hslot : P.1.svc.timerFreeList ≠ [] := List.ne_nil_of_length_eq_add_one hlen
      obtain ⟨tr, P₁, t, hrun, hidle₁, hprio₁, hfree, hin, hother⟩ := h.addSpare hidle hprio hslot
      have h₁ : Held P₁ := h.steps hrun
      have hperm : P.1.svc.timerFreeList.Perm (t :: P₁.1.svc.timerFreeList) := by
        refine (List.perm_ext_iff_of_nodup h.inv.wf.freeNodup ?_).mpr fun u => ?_
        · refine List.nodup_cons.mpr ⟨fun hmem => ?_, h₁.inv.wf.freeNodup⟩
          cases hin.symm.trans ((h₁.inv.wf.freeIff t).mp hmem)
        · rw [List.mem_cons, h.inv.wf.freeIff, h₁.inv.wf.freeIff]
          by_cases hu : u = t
          · simp [hu, hfree]
          · simp [hu, hother u hu]
      have hlen₁ : P₁.1.svc.timerFreeList.length = n := by
        have heq := hperm.length_eq
        rw [hlen, List.length_cons] at heq
        omega
      obtain ⟨tr', P', hrun', hprio', hnil, hdeleted⟩ := ih P₁ h₁ hidle₁ hprio₁ hlen₁
      refine ⟨_, P', hrun.trans hrun', hprio', hnil, fun u => (hdeleted u).trans ?_⟩
      by_cases hu : u = t
      · simp [hu, hfree, hin]
      · rw [hother u hu]

/-- In every run in which threads are started, priorities are taken, handlers return, and each delete that has waited
finds its timer still valid, the timers of a priority share a thread, and `os_timer_add` succeeds as long as there
is a slot and a thread. -/
theorem threads_accommodate {tr : List Event} {S : System} {R : Record}
    (h : Steps recorded (fun P a => a.accommodated = true ∧ a.stillValid P.1 = true) recorded.init tr (S, R)) :
    Accommodates S.svc R := by
  have hrun : Held (S, R) ∧ ∀ t, (S.svc.timer t).inuse ≠ .deleted := by
    apply h.invariant (I := fun P => Held P ∧ ∀ t, (P.1.svc.timer t).inuse ≠ .deleted)
    · intro P a P' ev hP hok hstep
      obtain ⟨hheld, hkept⟩ := hP
      obtain ⟨hS, hheld'⟩ := hheld.step hok.1 hstep
      have hret := accommodated_returns hok.1
      have ht := step_trans hheld.inv (hheld.alive.safe hret) hret hS
      exact ⟨hheld', ht.not_deleted hheld.inv hok.2 hkept⟩
    · exact ⟨init_held, nofun⟩
  exact hrun.1.shared.accommodates hrun.1.inv.wf hrun.1.alive hrun.1.covered hrun.2

/-- While a client waits to delete a timer, its handler deletes it. The client deletes it once more, and the slot
is lost. -/
def deletedInHandler : List Action :=
  addSteps 0 timerInterval 30 0 ++ [.look 0 (atSec 2), .invoke 0, .del (.client 1) (some 0), .del (.service 0) (some 0),
    .finish 0, .delWake (.client 1)]

/-- When the other slots have been taken, `os_timer_add` fails with fewer timers in use than there are slots. -/
theorem lost_slot_refused : ∃ tr S R, Steps recorded (fun _ a => a.accommodated = true) recorded.init tr (S, R) ∧
    (Finset.univ.filter fun t => (S.svc.timer t).inuse = .inuse).card < timerMax ∧
    (∃ th ∈ S.svc.threadActiveList, (S.svc.thread th).attr = ⟨.rr, 30⟩) ∧
    (S.svc.osTimerAdd ⟨30, 1000, timerStopped, some 1, 0, true⟩ true (atSec 3)).2 = none ∧ ¬ Accommodates S.svc R := by
  obtain ⟨P, tr, hrun, htest⟩ := exists_steps_of_exec (m := recorded) (s := recorded.init) deletedInHandler
    (p := fun r => decide (r.1.1.call (.client 0) = .idle) && decide (30 ∈ r.1.2.used) &&
      decide ((r.1.1.svc.timer 0).inuse = .deleted))
    (show (recorded.exec (fun _ a => a.accommodated = true) _ _).any _ = true by decide +kernel)
  simp only [Bool.and_eq_true, decide_eq_true_eq] at htest
  obtain ⟨⟨hidle, hprio⟩, hlost⟩ := htest
  have hheld : Held P := init_held.steps hrun
  obtain ⟨tr', ⟨S, R⟩, hrun', hprio', hnil, hdeleted⟩ := Held.fill _ P hheld hidle hprio rfl
  have hheld' : Held (S, R) := hheld.steps hrun'
  have hless : (Finset.univ.filter fun t => (S.svc.timer t).inuse = .inuse).card < timerMax := by
    have hne : (Finset.univ.filter fun t => (S.svc.timer t).inuse = .inuse) ⊂ Finset.univ := by
      refine Finset.filter_ssubset.mpr ⟨0, Finset.mem_univ _, ?_⟩
      rw [(hdeleted 0).mpr hlost]
      simp
    simpa using Finset.card_lt_card hne
  have hactive : ∃ th ∈ S.svc.threadActiveList, (S.svc.thread th).attr = ⟨.rr, 30⟩ := by
    obtain ⟨th, hth, heq⟩ := (hheld'.shared.used 30).mp hprio'
    exact ⟨th, hth, by rw [← (hheld'.shared.plain th hth).1, ← heq]⟩
  have hnone : (S.svc.osTimerAdd ⟨30, 1000, timerStopped, some 1, 0, true⟩ true (atSec 3)).2 = none := by
    by_contra hsome
    exact ((osTimerAdd_isSome hheld'.inv.wf hheld'.alive (by decide) _).mp hsome).1 hnil
  refine ⟨_, S, R, hrun.trans hrun', hless, hactive, hnone, fun hacc => ?_⟩
  exact (hacc.add_iff ⟨30, 1000, timerStopped, some 1, 0, true⟩ (atSec 3) (by decide) (by decide) rfl (by decide)).mpr
    ⟨hless, .inl hactive⟩ hnone

/-- Two timers of one priority are on one thread, also when a third was deleted while its handler ran; there is
room for more. -/
theorem threads_accommodate_two : ∃ tr S R,
    Steps recorded (fun P a => a.accommodated = true ∧ a.stillValid P.1 = true) recorded.init tr (S, R) ∧
    Event.deleted (.client 2) 0 (some 0) 1 1 ∈ tr ∧
    (∃ th ∈ S.svc.threadActiveList, (S.svc.timer 1).thread = some th ∧ (S.svc.thread th).attr = ⟨.rr, 30⟩) ∧
    (S.svc.osTimerAdd ⟨40, 1000, timerOneshot, some 1, 0, true⟩ true (atSec 3)).2 ≠ none := by
  obtain ⟨P, tr, hrun, htest⟩ := exists_steps_of_exec (m := recorded) (s := recorded.init)
    (addSteps 0 timerOneshot 30 0 ++ (addSteps 1 timerInterval 30 1).take 3 ++
      [.look 0 (atSec 1), .invoke 0, .del (.client 2) (some 0), .finish 0, .delWake (.client 2)])
    (p := fun r => decide (Event.deleted (.client 2) 0 (some 0) 1 1 ∈ r.2) && decide ((r.1.1.svc.timer 1).inuse = .inuse) &&
      decide (r.1.2.prio 1 = 30) && decide (r.1.2.used.toFinset.card < threadMaxnodes) &&
      decide ((Finset.univ.filter fun t => (r.1.1.svc.timer t).inuse = .inuse).card < timerMax))
    (show (recorded.exec (fun P a => a.accommodated = true ∧ a.stillValid P.1 = true) _ _).any _ = true by decide +kernel)
  simp only [Bool.and_eq_true, decide_eq_true_eq] at htest
  obtain ⟨⟨⟨⟨hdeleted, hin⟩, hprio⟩, hused⟩, hless⟩ := htest
  have haccommodates := threads_accommodate hrun
  have hserved := haccommodates.served 1 hin
  rw [hprio] at hserved
  refine ⟨tr, P.1, P.2, hrun, hdeleted, hserved, ?_⟩
  exact (haccommodates.add_iff ⟨40, 1000, timerOneshot, some 1, 0, true⟩ (atSec 3) (by decide) (by decide) rfl
    (by decide)).mpr ⟨hless, .inr hused⟩

end Pc02.Timer

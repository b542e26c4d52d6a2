import Pc02.Timer.Sections

/-!
# Thread nodes

Which thread nodes are active, and what their fields say about the threads that serve them.
-/

namespace Pc02.Timer

def State.Alive (s : State) : Prop := ∀ th ∈ s.threadActiveList, (s.thread th).existsFlag = true

/-- No thread node is lost: each is on one of the two lists. -/
def State.Covered (s : State) : Prop := ∀ th, th ∈ s.threadFreeList ∨ th ∈ s.threadActiveList

structure SameThreads (s s' : State) : Prop where
  active : s'.threadActiveList = s.threadActiveList
  existsFlag : ∀ x, (s'.thread x).existsFlag = (s.thread x).existsFlag
  id : ∀ x, (s'.thread x).id = (s.thread x).id
  currentTimer : ∀ x, (s'.thread x).currentTimer = (s.thread x).currentTimer

theorem SameThreads.refl (s : State) : SameThreads s s := ⟨rfl, fun _ => rfl, fun _ => rfl, fun _ => rfl⟩

theorem SameThreads.trans {s s' s'' : State} (h : SameThreads s s') (h' : SameThreads s' s'') :
    SameThreads s s'' :=
  ⟨h'.active.trans h.active, fun x => (h'.existsFlag x).trans (h.existsFlag x),
    fun x => (h'.id x).trans (h.id x), fun x => (h'.currentTimer x).trans (h.currentTimer x)⟩

theorem SameThreads.move (s : State) (t : TimerId) (n : TimerNode) (d : Place) : SameThreads s (s.move t n d) :=
  ⟨by simp, by simp, by simp, by simp⟩

theorem SameThreads.bump {s s' : State} (h : SameThreads s s') : SameThreads s s'.bump :=
  ⟨h.active, h.existsFlag, h.id, h.currentTimer⟩

/-- What `__timer_create` does to the thread nodes: it leaves the active ones alone, and a thread it
starts is on the active list under its own id. -/
structure Recruited (s s' : State) : Prop where
  kept : ∀ x ∈ s.threadActiveList, x ∈ s'.threadActiveList ∧ (s'.thread x).existsFlag = (s.thread x).existsFlag ∧
    (s'.thread x).id = (s.thread x).id ∧ (s'.thread x).currentTimer = (s.thread x).currentTimer
  active : ∀ x ∈ s'.threadActiveList, x ∈ s.threadActiveList ∨
    ((s'.thread x).existsFlag = true ∧ (s'.thread x).id = some (.service x))
  started : ∀ x, (s.thread x).existsFlag = false → (s'.thread x).existsFlag = true →
    x ∈ s'.threadActiveList
  idle : ∀ x, (s.thread x).currentTimer = none → (s'.thread x).currentTimer = none

theorem SameThreads.recruited {s s' : State} (h : SameThreads s s') : Recruited s s' := by
  refine ⟨fun x hx => ⟨h.active ▸ hx, h.existsFlag x, h.id x, h.currentTimer x⟩,
    fun x hx => .inl (h.active ▸ hx), fun x hno hyes => ?_, fun x hx => (h.currentTimer x).trans hx⟩
  rw [h.existsFlag, hno] at hyes
  cases hyes

theorem Recruited.of_same {s s' s'' : State} (h : Recruited s s') (h' : SameThreads s' s'') : Recruited s s'' := by
  refine ⟨fun x hx => ?_, fun x hx => ?_, fun x hno hyes => ?_, fun x hx => (h'.currentTimer x).trans (h.idle x hx)⟩
  · obtain ⟨hactive, hflag, hid, hcur⟩ := h.kept x hx
    exact ⟨h'.active ▸ hactive, (h'.existsFlag x).trans hflag, (h'.id x).trans hid, (h'.currentTimer x).trans hcur⟩
  · rw [h'.active] at hx
    rw [h'.existsFlag, h'.id]
    exact h.active x hx
  · rw [h'.active]
    exact h.started x hno (h'.existsFlag x ▸ hyes)

section Create

variable {s u u' : State} {th : ThreadId} {attr : Attr} {clock : ClockId} {created b : Bool}

theorem timerThreadGet_cases (h : s.Wf) (hget : s.timerThreadGet attr clock = some (u, th)) :
    (u = s ∧ th ∈ s.threadActiveList) ∨
    (th ∉ s.threadActiveList ∧ u.threadActiveList = s.threadActiveList ++ [th] ∧
      (u.thread th).existsFlag = false ∧ (u.thread th).currentTimer = none ∧
      ∀ x, x ≠ th → u.thread x = s.thread x) := by
  rcases State.timerThreadGet_eq_some hget with ⟨hfind, rfl⟩ | ⟨-, halloc⟩
  · exact .inl ⟨rfl, List.mem_of_find?_eq_some hfind⟩
  · obtain ⟨rest, hfree, rfl⟩ := State.timerThreadAlloc_eq_some halloc
    refine .inr ⟨fun hactive => ?_, rfl, by simp [State.threadInit], by simp [State.threadInit],
      fun x hx => by simp [State.threadInit, hx]⟩
    exact (List.nodup_append.mp h.threadNodup).2.2 th (by simp [hfree]) th hactive rfl

theorem timerThreadEnsure_cases (hens : u.timerThreadEnsure th created = (u', b)) :
    ((u.thread th).existsFlag = true ∧ u' = u ∧ b = true) ∨
    (u'.threadActiveList = u.threadActiveList ∧ (u'.thread th).existsFlag = b ∧
      (b = true → (u'.thread th).id = some (.service th)) ∧
      (u'.thread th).currentTimer = (u.thread th).currentTimer ∧ ∀ x, x ≠ th → u'.thread x = u.thread x) := by
  cases hex : (u.thread th).existsFlag with
  | true =>
      obtain ⟨rfl, rfl⟩ : u = u' ∧ true = b := by simpa [State.timerThreadEnsure, hex] using hens
      exact .inl ⟨rfl, rfl, rfl⟩
  | false =>
      refine .inr ?_
      cases created <;>
      · simp [State.timerThreadEnsure, hex, State.timerThreadStart, State.assert] at hens
        obtain ⟨rfl, rfl⟩ := hens
        exact ⟨rfl, by simp, by simp, by simp, fun x hx => by simp [hx]⟩

theorem State.Created.recruited {s' : State} {event : Sigevent} {r : Option TimerId} (h : s.Wf) (ha : s.Alive)
    (hc : State.Created s clock event attr created (s', r)) : Recruited s s' := by
  cases hc with
  | full => exact (SameThreads.refl s).recruited
  | noThread => exact (SameThreads.move s _ _ _).bump.recruited
  | @noStart t _ v v' x hfree hget hens =>
      refine Recruited.of_same ?_ (SameThreads.move (v'.timerThreadDealloc x) t _ _).bump
      rcases timerThreadEnsure_cases hens with ⟨-, -, hb⟩ | ⟨hlist', hflag', -, hcur', hother'⟩
      · cases hb
      rcases timerThreadGet_cases h hget with ⟨rfl, hactive⟩ | ⟨hnew, hlist, -, hcur, hother⟩
      · simp [State.timerThreadEnsure, ha x hactive] at hens
      have hsame (y : ThreadId) (hy : y ≠ x) : (v'.timerThreadDealloc x).thread y = s.thread y :=
        (hother' y hy).trans (hother y hy)
      have hmem (y : ThreadId) : y ∈ (v'.timerThreadDealloc x).threadActiveList ↔ y ∈ s.threadActiveList := by
        have hdealloc : (v'.timerThreadDealloc x).threadActiveList = v'.threadActiveList.filter (· ≠ x) := rfl
        rw [hdealloc, hlist', hlist]
        by_cases hy : y = x <;> simp [hy, hnew]
      refine ⟨fun y hy => ?_, fun y hy => .inl ((hmem y).mp hy), fun y hno hyes => ?_, fun y hy => ?_⟩
      · have hne : y ≠ x := fun heq => hnew (heq ▸ hy)
        rw [hsame y hne]
        exact ⟨(hmem y).mpr hy, rfl, rfl, rfl⟩
      · by_cases hy : y = x
        · subst hy
          have hdealloc : ((v'.timerThreadDealloc y).thread y).existsFlag = false := hflag'
          rw [hdealloc] at hyes
          cases hyes
        · rw [hsame y hy, hno] at hyes
          cases hyes
      · by_cases hne : y = x
        · subst hne
          exact hcur'.trans hcur
        · rw [hsame y hne]
          exact hy
  | @ok t _ v v' x hfree hget hens =>
      refine Recruited.of_same ?_ (SameThreads.move v' t _ _).bump
      rcases timerThreadGet_cases h hget with ⟨rfl, hactive⟩ | ⟨hnew, hlist, hflag, hcur, hother⟩
      · obtain rfl : v = v' := by simpa [State.timerThreadEnsure, ha x hactive] using hens
        exact (SameThreads.refl v).recruited
      rcases timerThreadEnsure_cases hens with ⟨hyes, -, -⟩ | ⟨hlist', hflag', hid, hcur', hother'⟩
      · rw [hflag] at hyes
        cases hyes
      have hsame (y : ThreadId) (hy : y ≠ x) : v'.thread y = s.thread y := (hother' y hy).trans (hother y hy)
      refine ⟨fun y hy => ?_, fun y hy => ?_, fun y hno hyes => ?_, fun y hy => ?_⟩
      · have hne : y ≠ x := fun heq => hnew (heq ▸ hy)
        rw [hsame y hne, hlist', hlist]
        exact ⟨by simp [hy], rfl, rfl, rfl⟩
      · by_cases hne : y = x
        · exact .inr ⟨hne ▸ hflag', hne ▸ hid rfl⟩
        · rw [hlist', hlist] at hy
          exact .inl (by simpa [hne] using hy)
      · by_cases hne : y = x
        · rw [hlist', hlist]
          simp [hne]
        · rw [hsame y hne, hno] at hyes
          cases hyes
      · by_cases hne : y = x
        · subst hne
          exact hcur'.trans hcur
        · rw [hsame y hne]
          exact hy

theorem State.Covered.timerThreadGet (h : s.Covered) (hget : s.timerThreadGet attr clock = some (u, th)) : u.Covered := by
  rcases State.timerThreadGet_eq_some hget with ⟨-, rfl⟩ | ⟨-, halloc⟩
  · exact h
  · obtain ⟨rest, hfree, rfl⟩ := State.timerThreadAlloc_eq_some halloc
    intro x
    have hx := h x
    rw [hfree, List.mem_cons] at hx
    change x ∈ rest ∨ x ∈ s.threadActiveList ++ [th]
    rw [List.mem_append, List.mem_singleton]
    tauto

theorem timerThreadEnsure_lists (hens : u.timerThreadEnsure th created = (u', b)) :
    u'.threadFreeList = u.threadFreeList ∧ u'.threadActiveList = u.threadActiveList := by
  cases hex : (u.thread th).existsFlag with
  | true =>
      obtain ⟨rfl, -⟩ : u = u' ∧ true = b := by simpa [State.timerThreadEnsure, hex] using hens
      exact ⟨rfl, rfl⟩
  | false =>
      cases created <;>
      · simp [State.timerThreadEnsure, hex, State.timerThreadStart, State.assert] at hens
        obtain ⟨rfl, -⟩ := hens
        exact ⟨rfl, rfl⟩

theorem State.Covered.timerThreadDealloc (h : s.Covered) (th : ThreadId) : (s.timerThreadDealloc th).Covered := by
  intro x
  change x ∈ s.threadFreeList.filter (· ≠ th) ++ [th] ∨ x ∈ s.threadActiveList.filter (· ≠ th)
  by_cases hx : x = th
  · simp [hx]
  · simpa [hx] using h x

theorem State.Created.covered {s' : State} {event : Sigevent} {r : Option TimerId} (h : s.Covered)
    (hc : State.Created s clock event attr created (s', r)) : s'.Covered := by
  have hgot {v v' : State} {x : ThreadId} {ok : Bool} (hget : s.timerThreadGet attr clock = some (v, x))
      (hens : v.timerThreadEnsure x created = (v', ok)) : v'.Covered := by
    intro y
    obtain ⟨hfree, hactive⟩ := timerThreadEnsure_lists hens
    rw [hfree, hactive]
    exact h.timerThreadGet hget y
  cases hc with
  | full => exact h
  | noThread => exact h
  | noStart _ hget hens => exact (hgot hget hens).timerThreadDealloc _
  | ok _ hget hens =>
      have hstarted := hgot hget hens
      exact hstarted

theorem Recruited.alive {s' : State} (h : Recruited s s') (ha : s.Alive) : s'.Alive := by
  intro x hx
  rcases h.active x hx with hold | ⟨hflag, -⟩
  · rw [(h.kept x hold).2.1]
    exact ha x hold
  · exact hflag

end Create

theorem SameThreads.alive {s s' : State} (h : SameThreads s s') (ha : s.Alive) : s'.Alive :=
  h.recruited.alive ha

theorem State.setThread_alive {s : State} {th : ThreadId} {f : ThreadNode → ThreadNode} (ha : s.Alive)
    (hf : (f (s.thread th)).existsFlag = (s.thread th).existsFlag) : (s.setThread th f).Alive := by
  intro x hx
  by_cases hne : x = th
  · subst hne
    rw [setThread_thread, Function.update_self, hf]
    exact ha x hx
  · rw [setThread_thread, Function.update_of_ne hne]
    exact ha x hx

end Pc02.Timer

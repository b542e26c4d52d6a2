import Mathlib.Algebra.Group.Action.Defs
import Mathlib.Algebra.Order.BigOperators.Group.List
import Pc02.Timer.Sequential

/-!
# What a pass of `thread_func` does

A pass pops every timer that is due, each at most twice: a periodic timer whose next expiry is the
clock reading itself is due again. It therefore ends, with no timer left that is due.
-/

namespace Pc02.Timer

variable {s s' s'' : State} {th : ThreadId} {t : TimerId} {now : ClockReading}

/-- What happens to one timer while its thread expires timers at clock reading `now`; the flag tells
whether its handler was called. -/
inductive Fate (th : ThreadId) (now : ClockReading) (s s' : State) (t : TimerId) : Bool → Prop
  | same : s'.timer t = s.timer t → (t ∈ s'.queue th ↔ t ∈ s.queue th) → Fate th now s s' t false
  | oneshot : t ∈ s.queue th → (s.timer t).expirytime.toNs ≤ now.1.toNs →
      (s.timer t).value.interval = zeroTimespec → s'.timer t = s.timer t → t ∉ s'.queue th →
      Fate th now s s' t true
  | periodic {next : Timespec} {overrun k : Nat} : t ∈ s.queue th →
      (s.timer t).expirytime.toNs ≤ now.1.toNs → (s.timer t).value.interval ≠ zeroTimespec →
      s'.timer t = { s.timer t with expirytime := next, overrunCount := overrun } → t ∈ s'.queue th → 1 ≤ k →
      next.toNs = (s.timer t).expirytime.toNs + k * (s.timer t).value.interval.toNs →
      (∀ j : Nat, j < k → (s.timer t).expirytime.toNs + j * (s.timer t).value.interval.toNs ≤ now.1.toNs) →
      Fate th now s s' t true

theorem Fate.trans {b b' : Bool} (h : Fate th now s s' t b) (h' : Fate th now s' s'' t b') :
    Fate th now s s'' t (b || b') := by
  cases h with
  | same htimer hqueue =>
      cases h' with
      | same htimer' hqueue' => exact .same (htimer'.trans htimer) (hqueue'.trans hqueue)
      | oneshot hmem hdue hinterval htimer' hout =>
          rw [htimer] at hdue hinterval htimer'
          exact .oneshot (hqueue.mp hmem) hdue hinterval htimer' hout
      | periodic hmem hdue hinterval htimer' hin hk hnext hpast =>
          rw [htimer] at hdue hinterval htimer' hnext hpast
          exact .periodic (hqueue.mp hmem) hdue hinterval htimer' hin hk hnext hpast
  | oneshot hmem hdue hinterval htimer hout =>
      cases h' with
      | same htimer' hqueue' =>
          exact .oneshot hmem hdue hinterval (htimer'.trans htimer) fun hin => hout (hqueue'.mp hin)
      | oneshot hmem' => exact absurd hmem' hout
      | periodic hmem' => exact absurd hmem' hout
  | @periodic next overrun k hmem hdue hinterval htimer hin hk hnext hpast =>
      cases h' with
      | same htimer' hqueue' =>
          exact .periodic hmem hdue hinterval (htimer'.trans htimer) (hqueue'.mpr hin) hk hnext hpast
      | oneshot hmem' hdue' hinterval' =>
          rw [htimer] at hinterval'
          exact absurd hinterval' hinterval
      | @periodic next' overrun' k' hmem' hdue' hinterval' htimer' hin' hk' hnext' hpast' =>
          rw [htimer] at hdue' htimer' hnext' hpast'
          simp only at hdue' htimer' hnext' hpast'
          refine .periodic (k := k + k') hmem hdue hinterval htimer' hin' (by omega) ?_ fun j hj => ?_
          · rw [hnext', hnext]
            push_cast
            ring
          · by_cases hjk : j < k
            · exact hpast j hjk
            · have hlater := hpast' (j - k) (by omega)
              rw [hnext, Nat.cast_sub (not_lt.mp hjk)] at hlater
              linarith

/-- One expiry, from popping the timer to the return of its handler. -/
def State.expire (s : State) (th : ThreadId) (t : TimerId) (now : Timespec) : State :=
  (s.expireTimer th t now).expireDone th

namespace State

theorem expire_timer : (s.expire th t now).timer = Function.update s.timer t (expiredNode (s.timer t) now) := by
  simp [expire, expireDone, expireTimer_eq_move]

theorem expire_queue (x : ThreadId) : (s.expire th t now).queue x =
    (s.move t (expiredNode (s.timer t) now) (expiredPlace (s.timer t) th)).queue x := by
  rw [expire, expireDone, expireTimer_eq_move]
  by_cases hx : x = th
  · subst hx
    simp [queue]
  · simp [queue, hx]

theorem expire_wf (h : s.Wf) (ht : t ∈ s.queue th) : (s.expire th t now).Wf :=
  expireDone_wf (expireTimer_wf h ht now) th

end State

theorem expire_fate (h : s.Wf) (ht : t ∈ s.queue th) (hdue : (s.timer t).expirytime.toNs ≤ now.1.toNs)
    (u : TimerId) : Fate th now s (s.expire th t now) u (decide (u = t)) := by
  have hmem := s.mem_move_queue t u th (State.expiredNode (s.timer t) now) (State.expiredPlace (s.timer t) th)
  rw [← State.expire_queue] at hmem
  by_cases hu : u = t
  · subst hu
    simp only [decide_true, ne_eq, not_true_eq_false, false_and, or_false, true_and] at hmem ⊢
    by_cases hz : (s.timer u).value.interval = zeroTimespec
    · refine .oneshot ht hdue hz ?_ ?_
      · simp [State.expire_timer, State.expiredNode, hz]
      · rw [hmem]
        simp [State.expiredPlace, hz]
    · obtain ⟨hinterval, hsec, hms⟩ := h.dataOk u
      have hpos := TimerNode.DataOk.interval_pos (h.dataOk u) hz
      obtain ⟨k, hk, hnext, -, hpast, -⟩ := catchUp_spec now.2 hinterval hpos (h.queued th u ht).2.2.2
      have hnode : (s.expire th u now).timer u =
          { s.timer u with
            expirytime := (catchUp now (s.timer u).value.interval (s.timer u).expirytime).1
            overrunCount := (catchUp now (s.timer u).value.interval (s.timer u).expirytime).2 } := by
        simp [State.expire_timer, State.expiredNode, hz]
      refine .periodic ht hdue hz hnode ?_ hk hnext fun j hj => ?_
      · rw [hmem]
        simp [State.expiredPlace, hz]
      · by_cases hj0 : j = 0
        · simpa [hj0] using hdue
        · exact (hpast j (by omega) hj).le
  · rw [decide_eq_false hu]
    refine .same ?_ ?_
    · simp [State.expire_timer, hu]
    · rw [hmem]
      simp [hu]

def TimerNode.pops (now : Timespec) (n : TimerNode) : Nat :=
  if now.toNs < n.expirytime.toNs then 0
  else if n.value.interval = zeroTimespec then 1
  else if n.expirytime.toNs < now.toNs then 2 else 1

def State.pops (s : State) (th : ThreadId) (now : Timespec) : Nat :=
  ((s.queue th).map fun u => (s.timer u).pops now).sum

theorem State.pops_le (s : State) (th : ThreadId) (now : Timespec) :
    s.pops th now ≤ 2 * (s.thread th).timerQueue.length := by
  have hle : ∀ x ∈ (s.queue th).map fun u => (s.timer u).pops now, x ≤ 2 := by
    intro x hx
    obtain ⟨u, -, rfl⟩ := List.mem_map.mp hx
    simp only [TimerNode.pops]
    split_ifs <;> omega
  have hsum := List.sum_le_card_nsmul _ 2 hle
  rw [List.length_map, smul_eq_mul, mul_comm] at hsum
  exact hsum

theorem expiredNode_pops {n : TimerNode} (h : n.DataOk) (hexpiry : n.expirytime.Normal)
    (hz : n.value.interval ≠ zeroTimespec) (hdue : n.expirytime.toNs ≤ now.1.toNs) :
    (State.expiredNode n now).pops now < n.pops now := by
  have hpos := h.interval_pos hz
  obtain ⟨k, hk, hnext, hreach, -, -⟩ := catchUp_spec now.2 h.1 hpos hexpiry
  have hlater : n.expirytime.toNs < (catchUp now n.value.interval n.expirytime).1.toNs := by
    have hmul : 0 < (k : Int) * n.value.interval.toNs := mul_pos (by exact_mod_cast hk) hpos
    omega
  simp only [State.expiredNode, if_neg hz, TimerNode.pops, not_lt.mpr hdue, if_false]
  split_ifs <;> omega

theorem expire_pops (h : s.Wf) {rest : List TimerId} (hq : s.queue th = t :: rest)
    (hdue : (s.timer t).expirytime.toNs ≤ now.1.toNs) :
    (s.expire th t now).pops th now < s.pops th now := by
  have hnotin : t ∉ rest := (List.nodup_cons.mp (hq ▸ h.queueNodup th)).1
  have hmem : t ∈ s.queue th := by simp [hq]
  have hrest : rest.filter (fun u => decide (u ≠ t)) = rest :=
    List.filter_eq_self.mpr fun u hu => by simpa using fun heq : u = t => hnotin (heq ▸ hu)
  have hsame : (rest.map fun u => ((s.expire th t now).timer u).pops now) =
      rest.map fun u => (s.timer u).pops now := by
    refine List.map_congr_left fun u hu => ?_
    have hne : u ≠ t := fun heq => hnotin (heq ▸ hu)
    simp [State.expire_timer, hne]
  have hold : s.pops th now = (s.timer t).pops now + (rest.map fun u => (s.timer u).pops now).sum := by
    simp [State.pops, hq]
  have hmove := s.move_queue t th (State.expiredNode (s.timer t) now) (State.expiredPlace (s.timer t) th)
  rw [← State.expire_queue, hq, List.filter_cons_of_neg (by simp), hrest] at hmove
  by_cases hz : (s.timer t).value.interval = zeroTimespec
  · have hnew : (s.expire th t now).queue th = rest := by
      rw [hmove, if_neg (by simp [State.expiredPlace, hz])]
    have hone : (s.timer t).pops now = 1 := by simp [TimerNode.pops, not_lt.mpr hdue, hz]
    rw [hold, hone, State.pops, hnew, hsame]
    omega
  · rw [if_pos (by simp [State.expiredPlace, hz])] at hmove
    have hpops := expiredNode_pops (h.dataOk t) (h.queued th t hmem).2.2.2 hz hdue
    have hnode : (s.expire th t now).timer t = State.expiredNode (s.timer t) now := by simp [State.expire_timer]
    have hperm : ((s.expire th t now).queue th).Perm (t :: rest) := hmove ▸ SortedQueue.insert_perm
    have hsum := (hperm.map fun u => ((s.expire th t now).timer u).pops now).sum_eq
    rw [List.map_cons, List.sum_cons, hsame, hnode] at hsum
    rw [hold, State.pops, hsum]
    omega

def State.Idle (s : State) : Prop := ∀ x, (s.thread x).currentTimer = none

theorem SameThreads.idle (h : SameThreads s s') (hidle : s.Idle) : s'.Idle :=
  fun x => (h.currentTimer x).trans (hidle x)

theorem expire_sameThreads (hidle : s.Idle) : SameThreads s (s.expire th t now) := by
  have hmove := SameThreads.move s t (State.expiredNode (s.timer t) now) (State.expiredPlace (s.timer t) th)
  rw [State.expire, State.expireDone, State.expireTimer_eq_move]
  refine ⟨hmove.active, fun x => ?_, fun x => ?_, fun x => ?_⟩
  · by_cases hx : x = th
    · subst hx
      simp
    · simp [hx]
  · by_cases hx : x = th
    · subst hx
      simp
    · simp [hx]
  · by_cases hx : x = th
    · subst hx
      simp [hidle x]
    · simp [hx]

/-- Everything a pass does, given what it passed to handlers. -/
structure Passed (th : ThreadId) (now : ClockReading) (s s' : State) (out : List (TimerId × Sigevent)) : Prop where
  wf : s'.Wf
  threads : SameThreads s s'
  fate : ∀ t, Fate th now s s' t (decide (t ∈ out.map Prod.fst))
  others : ∀ x, x ≠ th → ∀ t, t ∈ s'.queue x ↔ t ∈ s.queue x
  events : ∀ e ∈ out, e.2 = (s.timer e.1).event
  quiet : ∀ t ∈ s'.queue th, now.1.toNs < (s'.timer t).expirytime.toNs

theorem Fate.event {b : Bool} (h : Fate th now s s' t b) : (s'.timer t).event = (s.timer t).event := by
  cases h with
  | same htimer => rw [htimer]
  | oneshot _ _ _ htimer => rw [htimer]
  | periodic _ _ _ htimer => rw [htimer]

theorem Passed.stop (h : s.Wf) (hquiet : ∀ t ∈ s.queue th, now.1.toNs < (s.timer t).expirytime.toNs) :
    Passed th now s s [] where
  wf := h
  threads := .refl s
  fate := fun _ => .same rfl Iff.rfl
  others := fun _ _ _ => Iff.rfl
  events := by simp
  quiet := hquiet

theorem Passed.cons (h : s.Wf) (hidle : s.Idle) (ht : t ∈ s.queue th)
    (hdue : (s.timer t).expirytime.toNs ≤ now.1.toNs) {out : List (TimerId × Sigevent)}
    (hp : Passed th now (s.expire th t now) s' out) :
    Passed th now s s' ((t, (s.timer t).event) :: out) where
  wf := hp.wf
  threads := (expire_sameThreads hidle).trans hp.threads
  fate := fun u => by
    have hfate := (expire_fate h ht hdue u).trans (hp.fate u)
    have hflag : decide (u ∈ ((t, (s.timer t).event) :: out).map Prod.fst) =
        (decide (u = t) || decide (u ∈ out.map Prod.fst)) := by
      rw [Bool.eq_iff_iff]
      simp only [List.map_cons, List.mem_cons, Bool.or_eq_true, decide_eq_true_eq]
    exact hflag ▸ hfate
  others := fun x hx u => by
    rw [hp.others x hx u, State.expire_queue, State.mem_move_queue]
    have hplace : State.expiredPlace (s.timer t) th ≠ .queue x := by
      simp only [State.expiredPlace]
      split <;> simp [Ne.symm hx]
    have hne : u ∈ s.queue x → u ≠ t := by
      rintro hu rfl
      exact hx (h.queue_unique hu ht)
    simp only [hplace, and_false, false_or]
    exact ⟨fun hu => hu.2, fun hu => ⟨hne hu, hu⟩⟩
  events := fun e he => by
    rcases List.mem_cons.mp he with rfl | he
    · rfl
    · rw [hp.events e he]
      exact (expire_fate h ht hdue e.1).event
  quiet := hp.quiet

theorem head_le (h : s.Wf) {rest : List TimerId} (hq : s.queue th = t :: rest) {u : TimerId} (hu : u ∈ s.queue th) :
    (s.timer t).expirytime.toNs ≤ (s.timer u).expirytime.toNs := by
  have hmem : t ∈ s.queue th := by simp [hq]
  have hle : s.key t ≤ s.key u := SortedQueue.le_of_head (h.sorted th) (by simp [hq]) hu
  have hnot := not_lt.mpr hle
  rw [State.key, State.key, key_lt_iff_toNs (h.queued th u hu).2.2.2 (h.queued th t hmem).2.2.2] at hnot
  exact not_lt.mp hnot

/-- With fuel for every expiry to come, the inner loop ends where no timer is due. -/
theorem expireLoop_passed (fuel : Nat) (h : s.Wf) (hidle : s.Idle) (hfuel : s.pops th now < fuel) :
    ∃ s' out, s.expireLoop th now fuel = some (s', out) ∧ Passed th now s s' out := by
  induction fuel generalizing s with
  | zero => exact absurd hfuel (Nat.not_lt_zero _)
  | succ fuel ih =>
      cases hq : s.queue th with
      | nil =>
          have hloop : s.expireLoop th now (fuel + 1) = some (s, []) := by
            simp [State.expireLoop, show (s.thread th).timerQueue = [] from hq]
          exact ⟨s, [], hloop, .stop h (by simp [hq])⟩
      | cons t rest =>
          have hmem : t ∈ s.queue th := by simp [hq]
          have hnormal := (h.queued th t hmem).2.2.2
          have hcmp := timespecCompare_lt_toNs now.2 hnormal
          by_cases hlt : now.1.toNs < (s.timer t).expirytime.toNs
          · have hloop : s.expireLoop th now (fuel + 1) = some (s, []) := by
              simp [State.expireLoop, show (s.thread th).timerQueue = t :: rest from hq, hcmp.mpr hlt]
            exact ⟨s, [], hloop, .stop h fun u hu => hlt.trans_le (head_le h hq hu)⟩
          · have hdue := not_lt.mp hlt
            have hpops := expire_pops h hq hdue
            obtain ⟨s', out, hrest, hp⟩ := ih (State.expire_wf h hmem)
              ((expire_sameThreads hidle).idle hidle) (hpops.trans_le (Nat.lt_succ_iff.mp hfuel))
            refine ⟨s', (t, (s.timer t).event) :: out, ?_, hp.cons h hidle hmem hdue⟩
            have hevent : ((s.expireTimer th t now).timer t).event = (s.timer t).event :=
              (expire_fate h hmem hdue t).event
            simp only [State.expireLoop, show (s.thread th).timerQueue = t :: rest from hq, mt hcmp.mp hlt,
              if_false]
            rw [show (s.expireTimer th t now).expireDone th = s.expire th t now from rfl, hrest, hevent]

theorem pass_passed (h : s.Wf) (hidle : s.Idle) (th : ThreadId) (now : ClockReading) :
    ∃ s' out, s.pass th now = some (s', out) ∧ Passed th now s s' out :=
  expireLoop_passed _ h hidle (Nat.lt_succ_of_le (s.pops_le th now))

end Pc02.Timer

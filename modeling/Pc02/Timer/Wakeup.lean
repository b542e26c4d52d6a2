import Pc02.Timer.Invariant

/-!
# No missed wakeup

`__timer_settime` broadcasts after it has released the lock, and only if the timer it queued became
the head. A blocked service thread therefore sleeps past its head only while such a broadcast is
still to come.
-/

namespace Pc02.Timer

open Machines

def HeadNotSooner (s s' : State) (th : ThreadId) : Prop :=
  ∀ t', (s'.queue th).head? = some t' → ∃ t, (s.queue th).head? = some t ∧ s.key t ≤ s'.key t'

theorem HeadNotSooner.of_eq {s s' : State} {th : ThreadId} (hqueue : s'.queue th = s.queue th)
    (hkey : ∀ t ∈ s.queue th, s'.key t = s.key t) : HeadNotSooner s s' th := by
  intro t ht
  rw [hqueue] at ht
  exact ⟨t, ht, (hkey t (List.mem_of_mem_head? ht)).ge⟩

theorem HeadNotSooner.move {s : State} (h : s.Wf) {t : TimerId} {n : TimerNode} {d : Place} {th : ThreadId}
    (hd : d = .queue th → SortedQueue.atHead (s.move t n d).key t ((s.queue th).filter (· ≠ t)) = false) :
    HeadNotSooner s (s.move t n d) th := by
  intro t' ht'
  have hhead : ((s.queue th).filter (· ≠ t)).head? = some t' := by
    rw [State.move_queue] at ht'
    split at ht'
    · rename_i hplace
      rwa [SortedQueue.head_insert (hd hplace)] at ht'
    · exact ht'
  obtain ⟨hmem, hne⟩ := List.mem_filter.mp (List.mem_of_mem_head? hhead)
  have hkey : (s.move t n d).key t' = s.key t' := by
    simp only [decide_eq_true_eq] at hne
    simp [State.key, hne]
  cases hq : s.queue th with
  | nil => simp [hq] at hmem
  | cons t₀ rest =>
      refine ⟨t₀, rfl, ?_⟩
      rw [hkey]
      exact SortedQueue.le_of_head (h.sorted th) (by simp [hq]) hmem

theorem HeadNotSooner.unlink {s : State} (h : s.Wf) {t : TimerId} {n : TimerNode} {d : Place} {th : ThreadId}
    (hd : d ≠ .queue th) : HeadNotSooner s (s.move t n d) th :=
  .move h fun hplace => absurd hplace hd

theorem HeadNotSooner.trans {s s' s'' : State} {th : ThreadId} (h : HeadNotSooner s s' th)
    (h' : HeadNotSooner s' s'' th) : HeadNotSooner s s'' th := by
  intro t'' ht''
  obtain ⟨t', ht', hle'⟩ := h' t'' ht''
  obtain ⟨t, ht, hle⟩ := h t' ht'
  exact ⟨t, ht, hle.trans hle'⟩

theorem HeadNotSooner.bump {s s' : State} {th : ThreadId} (h : HeadNotSooner s s' th) :
    HeadNotSooner s s'.bump th := h

theorem State.Created.headNotSooner {s s' : State} {clock : ClockId} {event : Sigevent} {attr : Attr}
    {created : Bool} {r : Option TimerId} (h : s.Wf)
    (hsafe : s.CreateSafe attr clock created)
    (hc : State.Created s clock event attr created (s', r)) (th : ThreadId) : HeadNotSooner s s' th := by
  have hgot {u : State} {x : ThreadId} (hg : State.ThreadGot s u x) : HeadNotSooner s u th :=
    .of_eq (hg.queue th) fun t _ => by simp only [State.key, hg.timer]
  cases hc with
  | full => exact .of_eq rfl fun _ _ => rfl
  | noThread => exact (HeadNotSooner.unlink h (by simp)).bump
  | noStart hfree hget hens =>
      have hg := State.timerThreadEnsure_got (State.timerThreadGet_got h hget) hens
      have hunused := State.unused_of_noStart h hsafe (by simp [hfree]) hget hens
      have hdealloc := (State.timerThreadDealloc_wf hg.wf hunused).2
      exact (hgot hg).trans (HeadNotSooner.unlink hdealloc (by simp)).bump
  | ok hfree hget hens =>
      have hg := State.timerThreadEnsure_got (State.timerThreadGet_got h hget) hens
      exact (hgot hg).trans (HeadNotSooner.unlink hg.wf (by simp)).bump

/-- A blocked service thread wakes up in time for its head, or some thread that has left its locked
section is still going to wake it. -/
def System.Wakes (S : System) (th : ThreadId) : Prop :=
  ∀ deadline t, S.pc th = .blocked deadline → (S.svc.queue th).head? = some t →
    (∃ d, deadline = some d ∧ d.key ≤ S.svc.key t) ∨ ∃ p ret, S.call p = .waking th ret

theorem System.Wakes.mono {S S' : System} {th : ThreadId} (h : S.Wakes th)
    (hpc : ∀ deadline, S'.pc th = .blocked deadline → S.pc th = .blocked deadline)
    (hcall : ∀ p ret, S.call p = .waking th ret → S'.call p = .waking th ret)
    (hhead : HeadNotSooner S.svc S'.svc th) : S'.Wakes th := by
  intro deadline t' hblocked ht'
  obtain ⟨t, ht, hle⟩ := hhead t' ht'
  rcases h deadline t (hpc _ hblocked) ht with ⟨d, hd, hdt⟩ | ⟨p, ret, hp⟩
  · exact .inl ⟨d, hd, hdt.trans hle⟩
  · exact .inr ⟨p, ret, hcall p ret hp⟩

theorem setCall_waking {S : System} {p : Pthread} {c : Call} {th : ThreadId}
    (hp : ∀ th r, S.call p ≠ .waking th r) (q : Pthread) (ret : Ret) (hq : S.call q = .waking th ret) :
    (S.setCall p c).call q = .waking th ret := by
  have hne : q ≠ p := by
    rintro rfl
    exact hp th ret hq
  simpa [hne] using hq

theorem Served.wakes {S S' : System} {th : ThreadId} {now : ClockReading} {ev : List Event}
    (h : S.svc.Wf) (hs : Served S th now (S', ev)) (x : ThreadId) (hx : x ≠ th → S.Wakes x) : S'.Wakes x := by
  by_cases hne : x = th
  · subst hne
    intro deadline t hblocked hhead
    cases hs with
    | empty hq => simp [hq] at hhead
    | @early t₀ rest hq hlt =>
        obtain rfl : t₀ = t := by simpa [hq] using hhead
        obtain rfl : some (S.svc.timer t₀).expirytime = deadline := by simpa using hblocked
        exact .inl ⟨_, rfl, le_rfl⟩
    | due => simp at hblocked
  · have hpc {c : ServicePc} (deadline : Option Timespec)
        (hb : Function.update S.pc th c x = .blocked deadline) : S.pc x = .blocked deadline := by
      simpa [hne] using hb
    cases hs with
    | empty => exact (hx hne).mono (fun _ => hpc _) (fun _ _ => id) (.of_eq rfl fun _ _ => rfl)
    | early => exact (hx hne).mono (fun _ => hpc _) (fun _ _ => id) (.of_eq rfl fun _ _ => rfl)
    | @due t rest hq hdue =>
        refine (hx hne).mono (fun _ => hpc _) (fun _ _ => id) ?_
        have hmove : HeadNotSooner S.svc (S.svc.move t (State.expiredNode (S.svc.timer t) now)
            (State.expiredPlace (S.svc.timer t) th)) x := by
          refine .unlink h ?_
          simp only [State.expiredPlace]
          split <;> simp [Ne.symm hne]
        change HeadNotSooner S.svc (S.svc.expireTimer th t now) x
        rw [State.expireTimer_eq_move]
        refine hmove.trans (.of_eq ?_ fun _ _ => rfl)
        simp [State.queue, hne]

/-- A `__timer_settime` that brings the head of a queue forward has still to wake up its thread. -/
theorem settimed_wakes {S : System} {p : Pthread} {t : TimerId} {abstime : Bool} {its : Itimerspec} {now : Timespec}
    {ret : Ret} {r : State × Int × Option ThreadId} (h : S.Inv) (hw : ∀ th, S.Wakes th)
    (hold : ∀ th r, S.call p ≠ .waking th r) (hs : State.Settimed S.svc t abstime its now r) (th : ThreadId) :
    (S.settimeDone p t r ret).1.Wakes th := by
  have hquiet {svc : State} {code : Int} (hhead : HeadNotSooner S.svc svc th) :
      (S.settimeDone p t (svc, code, none) ret).1.Wakes th :=
    (hw th).mono (fun _ => id) (setCall_waking (S := { S with svc := svc }) hold) hhead
  cases hs with
  | @arm x hin hth hvalue =>
      split
      · rename_i hhead
        by_cases hx : x = th
        · subst hx
          exact fun _ _ _ _ => .inr ⟨p, _, Function.update_self p _ _⟩
        · have hmove : HeadNotSooner S.svc
              (S.svc.move t (State.armedNode (S.svc.timer t) abstime its now) (.queue x)) th :=
            .unlink h.wf (by simp [hx])
          exact (hw th).mono (fun _ => id) (setCall_waking (S := { S with svc := _ }) hold) hmove
      · rename_i hhead
        refine hquiet (.move h.wf fun hplace => ?_)
        obtain rfl := Place.queue.inj hplace
        simpa using hhead
  | stop => exact hquiet (.unlink h.wf (by simp))
  | free => exact hquiet (.unlink h.wf (by simp))
  | lost => exact hquiet (.of_eq rfl fun _ _ => rfl)

theorem Trans.wakes {S S' : System} {a : Action} {ev : List Event} (h : S.Inv) (hw : ∀ th, S.Wakes th)
    (ht : Trans S a S' ev) (th : ThreadId) : S'.Wakes th := by
  have hsame {s : State} : HeadNotSooner s s th := .of_eq rfl fun _ _ => rfl
  -- a thread that was just created is at the top of `thread_func`
  have hspawn {svc : State} (deadline : Option Timespec) (hb : (S.spawn svc).pc th = .blocked deadline) :
      S.pc th = .blocked deadline := by
    simp only [System.spawn] at hb
    split at hb
    · cases hb
    · exact hb
  cases ht with
  | quiet hold => exact (hw th).mono (fun _ => id) (setCall_waking hold) hsame
  | @data p c ev t type millisec hold =>
      refine (hw th).mono (fun _ => id) (setCall_waking hold) (.of_eq rfl fun u _ => ?_)
      by_cases hu : u = t
      · subst hu
        simp [State.key, System.setCall]
      · simp [State.key, System.setCall, hu]
  | created hcall _ _ hsafe hc =>
      exact (hw th).mono (fun _ => hspawn _) (setCall_waking (S := S.spawn _) (by simp [hcall]))
        (hc.headNotSooner h.wf hsafe th)
  | notCreated hcall _ hsafe hc =>
      exact (hw th).mono (fun _ => hspawn _) (fun _ _ => id) (hc.headNotSooner h.wf hsafe th)
  | settime hold _ hs => exact settimed_wakes h hw hold hs th
  | @delete p t o called svc hd hsvc =>
      have hold : ∀ th r, S.call p ≠ .waking th r := by
        cases hd with
        | direct _ hcan => exact idle_not_waking (canCall_idle hcan)
        | resumed _ hcall => simp [hcall]
      have hhead : HeadNotSooner S.svc svc th := by
        cases hsvc with
        | released => exact .unlink h.wf (by simp)
        | lost => exact .unlink h.wf (by simp)
      exact (hw th).mono (fun _ => id) (setCall_waking (S := { S with svc := svc }) hold) hhead
  | @wakeup p x ret hcall =>
      by_cases hx : th = x
      · subst hx
        intro deadline _ hblocked
        simp only [System.broadcast, System.setCall_pc] at hblocked
        split at hblocked
        · simp at hblocked
        · rename_i hnot
          exact absurd hblocked (hnot deadline)
      · have hpc : (S.broadcast x).pc th = S.pc th := by
          simp only [System.broadcast]
          split
          · simp [hx]
          · rfl
        refine (hw th).mono (fun _ hb => hpc ▸ hb) (fun q ret' hq => ?_) ?_
        · have hne : q ≠ p := by
            rintro rfl
            rw [hcall] at hq
            exact hx (Call.waking.inj hq).1.symm
          simpa [hne] using hq
        · simpa using hsame
  | look hpc hs => exact hs.wakes h.wf th fun _ => hw th
  | @invoke x t reg now hpc =>
      refine (hw th).mono (fun deadline hb => ?_) (fun _ _ => id) hsame
      by_cases hx : th = x
      · subst hx
        simp at hb
      · simpa [hx] using hb
  | @finish x t reg now S' ev hpc hcall hs =>
      refine hs.wakes (State.expireDone_wf h.wf x) th fun hne => ?_
      refine (hw th).mono (fun _ => id) (fun _ _ => id) (.of_eq ?_ fun _ _ => rfl)
      simp [State.queue, State.expireDone, hne]
  | @wake x deadline hpc =>
      refine (hw th).mono (fun deadline hb => ?_) (fun _ _ => id) hsame
      by_cases hx : th = x
      · subst hx
        simp at hb
      · simpa [hx] using hb

theorem run_wakes {tr : List Event} {S : System} (h : Steps service Returns service.init tr S) :
    ∀ th, S.Wakes th :=
  (run_rule (I := fun _ S => ∀ th, S.Wakes th) (fun _ _ => id) (fun th deadline t hb => by cases hb)
    (fun _ _ _ _ _ hinv _ hw _ ht => ht.wakes hinv hw) h).2

/-- A service thread that is blocked while its queue is not empty either wakes up no later than the
head expires, or some thread has still to broadcast to it. -/
theorem no_missed_wakeup {tr : List Event} {S : System} (h : Steps service Returns service.init tr S)
    {th : ThreadId} {deadline : Option Timespec} {t : TimerId} {rest : List TimerId}
    (hblocked : S.pc th = .blocked deadline) (hqueue : S.svc.queue th = t :: rest) :
    (∃ d, deadline = some d ∧ timespecCompare d (S.svc.timer t).expirytime ≤ 0) ∨
      ∃ p ret, S.call p = .waking th ret := by
  rcases run_wakes h th deadline t hblocked (by simp [hqueue]) with ⟨d, hd, hle⟩ | hwaking
  · exact .inl ⟨d, hd, (timespecCompare_le _ _).mpr hle⟩
  · exact .inr hwaking

/-- A timer queued in front of the head that the thread went to sleep on: its broadcast is due. -/
theorem no_missed_wakeup_pending : ∃ tr S, Steps service Returns service.init tr S ∧
    S.pc 0 = .blocked (some ⟨6, 0⟩) ∧ S.svc.queue 0 = [1, 0] ∧ ∃ p ret, S.call p = .waking 0 ret := by
  obtain ⟨S, tr, hrun, htest⟩ := exists_steps_of_exec (m := service) (s := service.init)
    (addSteps 0 timerOneshot 30 5 ++ [.look 0 (atSec 5)] ++ (addSteps 1 timerOneshot 30 4).take 3)
    (p := fun r => decide (r.1.pc 0 = .blocked (some ⟨6, 0⟩)) && decide (r.1.svc.queue 0 = [1, 0]) &&
      decide (timespecCompare ⟨6, 0⟩ (r.1.svc.timer 1).expirytime > 0))
    (show (service.exec Returns _ _).any _ = true by decide +kernel)
  simp only [Bool.and_eq_true, decide_eq_true_eq] at htest
  obtain ⟨⟨hblocked, hqueue⟩, hlate⟩ := htest
  refine ⟨tr, S, hrun, hblocked, hqueue, ?_⟩
  rcases no_missed_wakeup hrun hblocked hqueue with ⟨d, hd, hle⟩ | hwaking
  · obtain rfl := Option.some.inj hd
    omega
  · exact hwaking

end Pc02.Timer

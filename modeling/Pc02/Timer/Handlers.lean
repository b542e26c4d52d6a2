import Mathlib.Algebra.Order.BigOperators.Group.Finset
import Pc02.Timer.FailedAdd
import Pc02.Timer.Pass

/-!
# Passes whose handlers call the API

The inner loop of `thread_func` with handlers that add, start, stop, change and delete timers. A timer
that a handler arms at a later reading of the clock is not due in the pass, so that the handlers only
take from what is left to do.
-/

namespace Pc02.Timer

open Function

inductive HandlerCall
  | add (args : AddArgs) (created : Bool) (now : ClockReading)
  | start (timerid : TimerT) (now : ClockReading)
  | stop (timerid : TimerT) (now : ClockReading)
  | settime (timerid : TimerT) (millisec : Int)
  | del (timerid : TimerT)

namespace State

/-- `os_timer_del` in a handler of `self`. If another thread is serving the timer, the call goes on when
that thread has cleared its announcement. -/
def osTimerDelIn (s : State) (self : ThreadId) (timerid : TimerT) : State × Int :=
  match timerid with
  | none => (s, -1)
  | some t =>
      if s.timerValid t then
        match (if (s.timer t).armed then (s.timer t).thread else none) with
        | some th =>
            if s.deleteMustWait t th (.service self) then ((s.expireDone th).timerDelete t, 0)
            else (s.timerDelete t, 0)
        | none => (s.timerDelete t, 0)
      else (s, -1)

def handle (s : State) (self : ThreadId) : HandlerCall → State
  | .add args created now => (s.osTimerAdd args created now).1
  | .start timerid now => (s.osTimerStart timerid now).1
  | .stop timerid now => (s.osTimerStop timerid now).1
  | .settime timerid millisec => (s.osTimerSettime timerid millisec).1
  | .del timerid => (s.osTimerDelIn self timerid).1

end State

structure Pop where
  timer : TimerId
  expirytime : Timespec
  interval : Timespec
deriving DecidableEq

def State.popOf (s : State) (t : TimerId) : Pop := ⟨t, (s.timer t).expirytime, (s.timer t).value.interval⟩

/-- The inner loop of `thread_func` at clock reading `now`. The handler sees the expiries so far, the last of
which is its own, and the state it is called in. The fuel only bounds the recursion: `none` says that it
ran out. -/
def State.expireLoopWith (handler : List Pop → State → List HandlerCall) (th : ThreadId) (now : Timespec) :
    Nat → List Pop → State → Option (State × List Pop)
  | 0, _, _ => none
  | fuel + 1, past, s =>
      match (s.thread th).timerQueue with
      | [] => some (s, past)
      | t :: _ =>
          if timespecCompare now (s.timer t).expirytime < 0 then some (s, past)
          else
            let past := past ++ [s.popOf t]
            let s := s.expireTimer th t now
            let s := (handler past s).foldl (fun s c => s.handle th c) s
            expireLoopWith handler th now fuel past (s.expireDone th)

/-- With handlers that call nothing, this is the loop without handlers. -/
theorem expireLoopWith_silent (th : ThreadId) (now : Timespec) (fuel : Nat) (past : List Pop) (s : State) :
    (s.expireLoopWith (fun _ _ => []) th now fuel past).map Prod.fst = (s.expireLoop th now fuel).map Prod.fst := by
  induction fuel generalizing past s with
  | zero => rfl
  | succ fuel ih =>
      simp only [State.expireLoopWith, State.expireLoop]
      cases (s.thread th).timerQueue with
      | nil => rfl
      | cons t rest =>
          dsimp only
          split
          · rfl
          · rw [List.foldl_nil, ih]
            cases State.expireLoop th now fuel ((s.expireTimer th t now).expireDone th) with
            | none => rfl
            | some r => rfl

/-- What a call arms is armed by a reading of the clock that is not before `now`. With `TIMER_ABSTIME` the
clock is not read, and the time given must itself be later. -/
def HandlerCall.Forward (now : Timespec) : HandlerCall → Prop
  | .add args _ reading => hasFlag args.flag timerStopped = false →
      if hasFlag args.flag timerAbstime then now.toNs < (ms2ts args.millisec).toNs else now.toNs ≤ reading.1.toNs
  | .start _ reading => now.toNs ≤ reading.1.toNs
  | _ => True

/-- `q` is the next expiry of the periodic timer that expired in `p`, and it is the clock reading itself. -/
structure Repeated (now : Timespec) (p q : Pop) : Prop where
  periodic : p.interval ≠ zeroTimespec
  recomputed : (catchUp now p.interval p.expirytime).1 = now
  expirytime : q.expirytime = now
  interval : q.interval = p.interval

def AtMostTwice (now : Timespec) : List Pop → Prop
  | [] => True
  | [_] => True
  | [p, q] => Repeated now p q
  | _ => False

/-! ### What a handler can do -/

/-- Every timer that is due in `s'` is due in `s`, and its expiry is the same. -/
def Calm (th : ThreadId) (now : Timespec) (s s' : State) : Prop :=
  ∀ t ∈ s'.queue th, (s'.timer t).expirytime.toNs ≤ now.toNs →
    t ∈ s.queue th ∧ (s'.timer t).expirytime = (s.timer t).expirytime ∧ (s'.timer t).value = (s.timer t).value

namespace Calm

variable {s s' s'' : State} {th : ThreadId} {now : Timespec} {t : TimerId}

theorem refl (th : ThreadId) (now : Timespec) (s : State) : Calm th now s s := fun _ ht _ => ⟨ht, rfl, rfl⟩

theorem trans (h : Calm th now s s') (h' : Calm th now s' s'') : Calm th now s s'' := by
  intro t ht hdue
  obtain ⟨ht', hexpiry', hvalue'⟩ := h' t ht hdue
  rw [hexpiry'] at hdue
  obtain ⟨ht'', hexpiry, hvalue⟩ := h t ht' hdue
  exact ⟨ht'', hexpiry'.trans hexpiry, hvalue'.trans hvalue⟩

theorem keeps (h : State.Keeps s s') : Calm th now s s' := by
  intro t ht _
  rw [h.timer]
  exact ⟨h.queue th t ht, rfl, rfl⟩

theorem rewrites {n : TimerNode} {d : Place} (h : State.Rewrites s s' t n d)
    (hn : d = .queue th → now.toNs < n.expirytime.toNs) : Calm th now s s' := by
  intro u hu hdue
  rw [h.timer] at hdue ⊢
  rcases h.queue th u hu with ⟨rfl, hd⟩ | ⟨hne, hold⟩
  · rw [update_self] at hdue
    exact absurd hdue (not_le.mpr (hn hd))
  · rw [update_of_ne hne]
    exact ⟨hold, rfl, rfl⟩

theorem away {n : TimerNode} {d : Place} (h : State.Rewrites s s' t n d) (hd : d ≠ .queue th) : Calm th now s s' := by
  apply rewrites h
  intro heq
  exact absurd heq hd

theorem data (s : State) (t : TimerId) {f : TimerNode → TimerNode}
    (hf : ∀ n, (f n).expirytime = n.expirytime ∧ (f n).value = n.value) : Calm th now s (s.setTimer t f) := by
  intro u hu _
  rw [State.setTimer_timer, update_apply]
  split
  · rename_i hut
    subst hut
    exact ⟨hu, (hf _).1, (hf _).2⟩
  · exact ⟨hu, rfl, rfl⟩

end Calm

structure Handled (th : ThreadId) (now : Timespec) (s s' : State) : Prop where
  wf : s'.Wf
  alive : s'.Alive
  calm : Calm th now s s'

section Calls

variable {s s' : State} {th : ThreadId} {now : Timespec} {t : TimerId}

theorem Handled.refl (h : s.Wf) (ha : s.Alive) : Handled th now s s := ⟨h, ha, .refl th now s⟩

theorem Handled.trans {s'' : State} (h : Handled th now s s') (h' : Handled th now s' s'') : Handled th now s s'' :=
  ⟨h'.wf, h'.alive, h.calm.trans h'.calm⟩

theorem Settimed.handled {abstime : Bool} {its : Itimerspec} {reading : ClockReading} {r : Int × Option ThreadId}
    (h : s.Wf) (ha : s.Alive) (hits : its.Ok) (hs : State.Settimed s t abstime its reading (s', r))
    (hlater : its.value ≠ zeroTimespec →
      now.toNs < (if abstime then 0 else reading.1.toNs) + its.value.toNs) : Handled th now s s' := by
  refine ⟨hs.wf h hits, hs.sameThreads.alive ha, ?_⟩
  cases hs with
  | @arm x hin hth hvalue =>
      apply Calm.rewrites (State.Rewrites.move s t _ _)
      intro _
      rw [armedNode_toNs]
      exact hlater hvalue
  | stop => exact .away (State.Rewrites.move s t _ _) (by simp)
  | free => exact .away (State.Rewrites.move s t _ _) (by simp)
  | lost => exact .refl th now s

theorem Deleted.handled (h : s.Wf) (ha : s.Alive) (hd : State.Deleted s t s') : Handled th now s s' := by
  refine ⟨hd.wf h, hd.sameThreads.alive ha, ?_⟩
  cases hd with
  | released => exact .away (State.Rewrites.move s t _ _) (by simp)
  | lost => exact .away (State.Rewrites.move s t _ _) (by simp)

theorem expireDone_handled (h : s.Wf) (ha : s.Alive) (x : ThreadId) : Handled th now s (s.expireDone x) :=
  ⟨State.expireDone_wf h x, State.setThread_alive ha rfl, .keeps (State.setThread_keeps s x rfl)⟩

theorem create_calm (s : State) (args : AddArgs) (created : Bool) : Calm th now s (s.osTimerAddCreate args created).1 := by
  rcases State.timerCreate_rewrites s .monotonic (args.handler.getD 0) args.arg args.attr created with
    hsame | ⟨u, event, -, hrw⟩ | ⟨u, event, x, -, hrw⟩
  · rw [State.osTimerAddCreate, hsame]
    exact .refl th now s
  · exact .away hrw (by simp)
  · exact .away hrw (by simp)

theorem AddArgs.its_later {args : AddArgs} {created : Bool} {reading : ClockReading} (hms : 0 < args.millisec)
    (hfwd : (HandlerCall.add args created reading).Forward now) (hvalue : args.its.value ≠ zeroTimespec) :
    now.toNs < (if hasFlag args.flag timerAbstime then 0 else reading.1.toNs) + args.its.value.toNs := by
  cases hstopped : hasFlag args.flag timerStopped with
  | true => simp [AddArgs.its, hstopped] at hvalue
  | false =>
      have hlater := hfwd hstopped
      have htoNs : args.its.value.toNs = args.millisec * 1000000 := by
        simp [AddArgs.its, hstopped, ms2ts_toNs]
      rw [ms2ts_toNs] at hlater
      rw [htoNs]
      cases habs : hasFlag args.flag timerAbstime with
      | true =>
          simp only [habs, if_true] at hlater ⊢
          omega
      | false =>
          simp only [habs, Bool.false_eq_true, if_false] at hlater ⊢
          omega

theorem add_handled (h : s.Wf) (ha : s.Alive) {args : AddArgs} {created : Bool} {reading : ClockReading}
    (hfwd : (HandlerCall.add args created reading).Forward now) :
    Handled th now s (s.osTimerAdd args created reading).1 := by
  cases hacc : args.accepted with
  | false =>
      have hsame : (s.osTimerAdd args created reading).1 = s := by simp [State.osTimerAdd, hacc]
      rw [hsame]
      exact .refl h ha
  | true =>
      have hms := AddArgs.millisec_pos hacc
      have hsafe := ha.createSafe args.attr .monotonic created
      have hc := State.osTimerAddCreate_created h hsafe
      have hcalm : Calm th now s (s.osTimerAddCreate args created).1 := create_calm s args created
      simp only [State.osTimerAdd, hacc, if_true]
      generalize s.osTimerAddCreate args created = r at hc hcalm
      obtain ⟨s₁, o⟩ := r
      have hcreated : Handled th now s s₁ := ⟨hc.wf h hsafe, (hc.recruited h ha).alive ha, hcalm⟩
      cases o with
      | none => exact hcreated
      | some t =>
          let s₂ := s₁.setTimer t fun n => { n with type := args.type, millisec := args.millisec }
          have hdata : Handled th now s₁ s₂ :=
            ⟨State.setTimer_data_wf hcreated.wf args.type hms.le, hcreated.alive, .data s₁ t fun _ => ⟨rfl, rfl⟩⟩
          have hits := AddArgs.its_ok hms
          have hs := State.timerSettime_settimed hdata.wf hits t (hasFlag args.flag timerAbstime) reading
          simp only [addInit_inuse hc.inuse, State.osTimerAddArm]
          exact (hcreated.trans hdata).trans
            (Settimed.handled hdata.wf hdata.alive hits hs (AddArgs.its_later hms hfwd))

theorem startRead_pos (h : s.Wf) {timerid : TimerT} {its : Itimerspec} (hread : s.osTimerStartRead timerid = some (t, its))
    (hvalue : its.value ≠ zeroTimespec) : 0 < its.value.toNs := by
  have hfrom : its.value = ms2ts (s.timer t).millisec := by
    cases timerid with
    | none => cases hread
    | some u =>
        simp only [State.osTimerStartRead] at hread
        split at hread
        · obtain ⟨rfl, rfl⟩ := Prod.mk.inj (Option.some.inj hread)
          rfl
        · cases hread
  have hnonneg := (h.dataOk t).2.2
  have hne : (s.timer t).millisec ≠ 0 := by
    intro hzero
    rw [hfrom, hzero] at hvalue
    exact hvalue rfl
  rw [hfrom, ms2ts_toNs]
  omega

theorem start_handled (h : s.Wf) (ha : s.Alive) (timerid : TimerT) {reading : ClockReading}
    (hfwd : now.toNs ≤ reading.1.toNs) : Handled th now s (s.osTimerStart timerid reading).1 := by
  simp only [State.osTimerStart]
  cases hread : s.osTimerStartRead timerid with
  | none => exact .refl h ha
  | some r =>
      obtain ⟨t, its⟩ := r
      have hits := osTimerStartRead_ok h hread
      apply Settimed.handled h ha hits (State.timerSettime_settimed h hits t false reading)
      intro hvalue
      have hpos := startRead_pos h hread hvalue
      simp only [Bool.false_eq_true, if_false]
      omega

theorem stop_handled (h : s.Wf) (ha : s.Alive) (timerid : TimerT) (reading : ClockReading) :
    Handled th now s (s.osTimerStop timerid reading).1 := by
  simp only [State.osTimerStop]
  cases timerid with
  | none => exact .refl h ha
  | some t =>
      apply Settimed.handled h ha zeroItimerspec_ok (State.timerSettime_settimed h zeroItimerspec_ok t false reading)
      intro hvalue
      exact absurd rfl hvalue

theorem settime_handled (h : s.Wf) (ha : s.Alive) (timerid : TimerT) (millisec : Int) :
    Handled th now s (s.osTimerSettime timerid millisec).1 := by
  simp only [State.osTimerSettime]
  split
  · exact .refl h ha
  · rename_i hms
    split
    · exact .refl h ha
    · rename_i t
      split
      · have hwf : (s.setTimer t fun n => { n with type := (s.timer t).type, millisec := millisec }).Wf :=
          State.setTimer_data_wf h (s.timer t).type (not_le.mp hms).le
        refine ⟨hwf, ha, ?_⟩
        dsimp only
        apply Calm.data
        exact fun _ => ⟨rfl, rfl⟩
      · exact .refl h ha

theorem del_handled (h : s.Wf) (ha : s.Alive) (self : ThreadId) (timerid : TimerT) :
    Handled th now s (s.osTimerDelIn self timerid).1 := by
  simp only [State.osTimerDelIn]
  split
  · exact .refl h ha
  · rename_i t
    have hdelete : Handled th now s (s.timerDelete t) := Deleted.handled h ha (State.timerDelete_deleted h t)
    split
    · split
      · rename_i x _
        split
        · have hdone : Handled th now s (s.expireDone x) := expireDone_handled h ha x
          exact hdone.trans (Deleted.handled hdone.wf hdone.alive (State.timerDelete_deleted hdone.wf t))
        · exact hdelete
      · exact hdelete
    · exact .refl h ha

/-- No call of a handler makes a timer due. -/
theorem handle_handled (h : s.Wf) (ha : s.Alive) (self : ThreadId) {c : HandlerCall} (hfwd : c.Forward now) :
    Handled th now s (s.handle self c) := by
  cases c with
  | add args created reading => exact add_handled h ha hfwd
  | start timerid reading => exact start_handled h ha timerid hfwd
  | stop timerid reading => exact stop_handled h ha timerid reading
  | settime timerid millisec => exact settime_handled h ha timerid millisec
  | del timerid => exact del_handled h ha self timerid

theorem handler_handled (h : s.Wf) (ha : s.Alive) (self : ThreadId) {calls : List HandlerCall}
    (hfwd : ∀ c ∈ calls, c.Forward now) : Handled th now s (calls.foldl (fun s c => s.handle self c) s) := by
  induction calls generalizing s with
  | nil => exact .refl h ha
  | cons c calls ih =>
      have hfirst : Handled th now s (s.handle self c) := handle_handled h ha self (hfwd c (.head _))
      exact hfirst.trans (ih hfirst.wf hfirst.alive fun c' hc' => hfwd c' (.tail _ hc'))

end Calls

/-! ### The loop -/

def State.DueAt (s : State) (th : ThreadId) (now : Timespec) (t : TimerId) : Prop :=
  t ∈ s.queue th ∧ (s.timer t).expirytime.toNs ≤ now.toNs

def Again (now : Timespec) (due : Prop) (next : Pop) : List Pop → Prop
  | [] => True
  | [p] => due → Repeated now p next
  | [p, q] => Repeated now p q ∧ ¬ due
  | _ => False

/-- The expiries so far are in order, none is later than what is still queued, and no timer has had more
than it should. -/
structure Orderly (th : ThreadId) (now : Timespec) (past : List Pop) (s : State) : Prop where
  sorted : past.Pairwise fun p q => p.expirytime.toNs ≤ q.expirytime.toNs
  due : ∀ p ∈ past, p.expirytime.toNs ≤ now.toNs
  before : ∀ p ∈ past, ∀ t ∈ s.queue th, p.expirytime.toNs ≤ (s.timer t).expirytime.toNs
  again : ∀ t, Again now (s.DueAt th now t) (s.popOf t) (past.filter fun p => p.timer = t)

section Again

variable {now : Timespec} {due due' : Prop} {next next' : Pop} {l : List Pop}

theorem Again.mono (h : Again now due next l) (hdue : due' → due ∧ next' = next) : Again now due' next' l := by
  rcases l with _ | ⟨p, _ | ⟨q, _ | ⟨r, l⟩⟩⟩
  · trivial
  · intro hnow
    obtain ⟨hold, rfl⟩ := hdue hnow
    exact h hold
  · exact ⟨h.1, fun hnow => h.2 (hdue hnow).1⟩
  · exact h

theorem Again.concat (h : Again now due next l) (hdue : due) (honce : due' → Repeated now next next')
    (htwice : next.expirytime = now → ¬ due') : Again now due' next' (l ++ [next]) := by
  rcases l with _ | ⟨p, _ | ⟨q, _ | ⟨r, l⟩⟩⟩
  · exact honce
  · have hrepeated : Repeated now p next := h hdue
    exact ⟨hrepeated, htwice hrepeated.expirytime⟩
  · exact absurd hdue h.2
  · exact h.elim

theorem Again.atMostTwice (h : Again now due next l) : AtMostTwice now l := by
  rcases l with _ | ⟨p, _ | ⟨q, _ | ⟨r, l⟩⟩⟩
  · trivial
  · trivial
  · exact h.1
  · exact h

end Again

section Loop

variable {s s' : State} {th : ThreadId} {now : ClockReading} {t : TimerId} {rest : List TimerId} {past : List Pop}

theorem Orderly.calm (h : Orderly th now past s) (hcalm : Calm th now s s') : Orderly th now past s' := by
  constructor
  · exact h.sorted
  · exact h.due
  · intro p hp t ht
    by_cases hdue : (s'.timer t).expirytime.toNs ≤ now.1.toNs
    · obtain ⟨hold, hexpiry, -⟩ := hcalm t ht hdue
      rw [hexpiry]
      exact h.before p hp t hold
    · have hle := h.due p hp
      omega
  · intro t
    apply (h.again t).mono
    intro hdue
    obtain ⟨hold, hexpiry, hvalue⟩ := hcalm t hdue.1 hdue.2
    refine ⟨⟨hold, hexpiry ▸ hdue.2⟩, ?_⟩
    simp only [State.popOf, hexpiry, hvalue]

theorem expire_mem_queue (s : State) (th : ThreadId) (t u : TimerId) (now : ClockReading) :
    u ∈ (s.expire th t now).queue th ↔
      u = t ∧ (s.timer t).value.interval ≠ zeroTimespec ∨ u ≠ t ∧ u ∈ s.queue th := by
  rw [State.expire_queue, State.mem_move_queue]
  by_cases hz : (s.timer t).value.interval = zeroTimespec
  · simp [State.expiredPlace, hz]
  · simp [State.expiredPlace, hz]

theorem expire_timer_self (th : ThreadId) (now : ClockReading) (hz : (s.timer t).value.interval ≠ zeroTimespec) :
    ((s.expire th t now).timer t).expirytime = (catchUp now (s.timer t).value.interval (s.timer t).expirytime).1 ∧
      ((s.expire th t now).timer t).value = (s.timer t).value := by
  rw [State.expire_timer, update_self]
  simp [State.expiredNode, hz]

theorem requeued_later (now : ClockReading) (h : s.Wf) (ht : t ∈ s.queue th)
    (hz : (s.timer t).value.interval ≠ zeroTimespec) :
    now.1.toNs ≤ ((s.expire th t now).timer t).expirytime.toNs ∧
      (s.timer t).expirytime.toNs < ((s.expire th t now).timer t).expirytime.toNs := by
  have hpos := (h.dataOk t).interval_pos hz
  obtain ⟨k, hk, hnext, hreach, -, -⟩ := catchUp_spec now.2 (h.dataOk t).1 hpos (h.queued th t ht).2.2.2
  have hmul : 0 < (k : Int) * (s.timer t).value.interval.toNs := mul_pos (by exact_mod_cast hk) hpos
  rw [(expire_timer_self th now hz).1]
  omega

theorem requeued_repeated (h : s.Wf) (ht : t ∈ s.queue th) (hagain : (s.expire th t now).DueAt th now t) :
    Repeated now (s.popOf t) ((s.expire th t now).popOf t) := by
  have hz : (s.timer t).value.interval ≠ zeroTimespec := by
    rcases (expire_mem_queue s th t t now).mp hagain.1 with ⟨-, hz⟩ | ⟨hne, -⟩
    · exact hz
    · exact absurd rfl hne
  obtain ⟨hexpiry, hvalue⟩ := expire_timer_self th now hz
  have hnormal := catchUp_normal now (h.dataOk t).1 (h.queued th t ht).2.2.2
  have hnow : (catchUp now (s.timer t).value.interval (s.timer t).expirytime).1 = now := by
    apply toNs_inj hnormal now.2
    apply le_antisymm
    · exact hexpiry ▸ hagain.2
    · exact hexpiry ▸ (requeued_later now h ht hz).1
  exact ⟨hz, hnow, hexpiry.trans hnow, congrArg Itimerspec.interval hvalue⟩

theorem expire_timer_other (s : State) (th : ThreadId) (now : ClockReading) {t u : TimerId} (hu : u ≠ t) :
    (s.expire th t now).timer u = s.timer u := by
  rw [State.expire_timer, update_of_ne hu]

/-- A timer that is due twice is not due a third time. -/
theorem Orderly.pop_self (h : s.Wf) (ht : t ∈ s.queue th) (hdue : (s.timer t).expirytime.toNs ≤ now.1.toNs)
    (ho : Orderly th now past s) :
    Again now ((s.expire th t now).DueAt th now t) ((s.expire th t now).popOf t)
      ((past.filter fun p => p.timer = t) ++ [s.popOf t]) := by
  apply (ho.again t).concat ⟨ht, hdue⟩ (requeued_repeated h ht)
  -- it was due at the clock reading itself, and its next expiry is later
  intro hnow hagain
  have hrepeated := requeued_repeated h ht hagain
  have hlater := (requeued_later now h ht hrepeated.periodic).2
  have hsame : (s.timer t).expirytime = now := hnow
  rw [hsame] at hlater
  exact absurd hagain.2 (not_le.mpr hlater)

theorem Orderly.pop_other {u : TimerId} (hu : u ≠ t) (ho : Orderly th now past s) :
    Again now ((s.expire th t now).DueAt th now u) ((s.expire th t now).popOf u) (past.filter fun p => p.timer = u) := by
  have hsame := expire_timer_other s th now hu
  apply (ho.again u).mono
  intro hagain
  have hold : u ∈ s.queue th := by
    rcases (expire_mem_queue s th t u now).mp hagain.1 with ⟨heq, -⟩ | ⟨-, hold⟩
    · exact absurd heq hu
    · exact hold
  refine ⟨⟨hold, hsame ▸ hagain.2⟩, ?_⟩
  simp only [State.popOf, hsame]

theorem Orderly.pop (h : s.Wf) (hq : s.queue th = t :: rest) (hdue : (s.timer t).expirytime.toNs ≤ now.1.toNs)
    (ho : Orderly th now past s) : Orderly th now (past ++ [s.popOf t]) (s.expire th t now) := by
  have ht : t ∈ s.queue th := by simp [hq]
  have hall : ∀ p ∈ past ++ [s.popOf t], p.expirytime.toNs ≤ now.1.toNs := by
    rw [List.forall_mem_append]
    exact ⟨ho.due, List.forall_mem_singleton.mpr hdue⟩
  constructor
  · apply List.pairwise_append.mpr
    refine ⟨ho.sorted, List.pairwise_singleton _ _, ?_⟩
    intro p hp q hq
    rw [List.mem_singleton.mp hq]
    exact ho.before p hp t ht
  · exact hall
  · intro p hp u hu
    rcases (expire_mem_queue s th t u now).mp hu with ⟨rfl, hz⟩ | ⟨hne, hold⟩
    · exact (hall p hp).trans (requeued_later now h ht hz).1
    · rw [expire_timer_other s th now hne]
      rcases List.mem_append.mp hp with hp | hp
      · exact ho.before p hp u hold
      · rw [List.mem_singleton.mp hp]
        exact head_le h hq hold
  · intro u
    rw [List.filter_append]
    by_cases hu : u = t
    · subst hu
      have hlast : [s.popOf u].filter (fun p => p.timer = u) = [s.popOf u] := by simp [State.popOf]
      rw [hlast]
      exact ho.pop_self h ht hdue
    · have hlast : [s.popOf t].filter (fun p => p.timer = u) = [] := by simp [State.popOf, Ne.symm hu]
      rw [hlast, List.append_nil]
      exact ho.pop_other hu

theorem pops_pos {n : TimerNode} (h : n.pops now ≠ 0) : n.expirytime.toNs ≤ now.1.toNs := by
  by_contra hlt
  rw [TimerNode.pops, if_pos (not_le.mp hlt)] at h
  exact h rfl

theorem Calm.pops_le (h : s.Wf) (h' : s'.Wf) (hcalm : Calm th now s s') : s'.pops th now ≤ s.pops th now := by
  have hkept : ∀ u ∈ (s'.queue th).toFinset.filter fun u => (s'.timer u).pops now ≠ 0,
      u ∈ (s.queue th).toFinset ∧ (s'.timer u).pops now = (s.timer u).pops now := by
    intro u hu
    obtain ⟨hmem, hpos⟩ := Finset.mem_filter.mp hu
    obtain ⟨hold, hexpiry, hvalue⟩ := hcalm u (List.mem_toFinset.mp hmem) (pops_pos hpos)
    refine ⟨List.mem_toFinset.mpr hold, ?_⟩
    simp only [TimerNode.pops, hexpiry, hvalue]
  calc s'.pops th now
      = ∑ u ∈ (s'.queue th).toFinset, (s'.timer u).pops now := (List.sum_toFinset _ (h'.queueNodup th)).symm
    _ = ∑ u ∈ (s'.queue th).toFinset.filter fun u => (s'.timer u).pops now ≠ 0, (s'.timer u).pops now :=
        (Finset.sum_filter_ne_zero _).symm
    _ = ∑ u ∈ (s'.queue th).toFinset.filter fun u => (s'.timer u).pops now ≠ 0, (s.timer u).pops now :=
        Finset.sum_congr rfl fun u hu => (hkept u hu).2
    _ ≤ ∑ u ∈ (s.queue th).toFinset, (s.timer u).pops now :=
        Finset.sum_le_sum_of_subset fun u hu => (hkept u hu).1
    _ = s.pops th now := List.sum_toFinset _ (h.queueNodup th)

theorem expireTimer_calm (s : State) (th : ThreadId) (t : TimerId) (now : ClockReading) :
    Calm th now (s.expire th t now) (s.expireTimer th t now) := by
  intro u hu _
  have hqueue : (s.expire th t now).queue th = (s.expireTimer th t now).queue th := by
    simp [State.expire, State.expireDone, State.queue]
  rw [hqueue]
  exact ⟨hu, rfl, rfl⟩

theorem popped_handled (h : s.Wf) (ha : s.Alive) (ht : t ∈ s.queue th) {calls : List HandlerCall}
    (hfwd : ∀ c ∈ calls, c.Forward now) :
    Handled th now (s.expire th t now)
      ((calls.foldl (fun s c => s.handle th c) (s.expireTimer th t now)).expireDone th) := by
  have hpop : Handled th now (s.expire th t now) (s.expireTimer th t now) :=
    ⟨State.expireTimer_wf h ht now, State.expireTimer_alive ha th t now, expireTimer_calm s th t now⟩
  have hcalls : Handled th now (s.expireTimer th t now) (calls.foldl (fun s c => s.handle th c) (s.expireTimer th t now)) :=
    handler_handled hpop.wf hpop.alive th hfwd
  exact (hpop.trans hcalls).trans (expireDone_handled hcalls.wf hcalls.alive th)

/-- With fuel for every expiry to come, the loop ends where no timer is due. -/
theorem expireLoopWith_orderly {handler : List Pop → State → List HandlerCall}
    (hforward : ∀ past s, ∀ c ∈ handler past s, c.Forward now) (fuel : Nat) (h : s.Wf) (ha : s.Alive)
    (ho : Orderly th now past s) (hfuel : s.pops th now < fuel) :
    ∃ s' pops, s.expireLoopWith handler th now fuel past = some (s', pops) ∧ Orderly th now pops s' ∧
      ∀ t ∈ s'.queue th, now.1.toNs < (s'.timer t).expirytime.toNs := by
  induction fuel generalizing s past with
  | zero => exact absurd hfuel (Nat.not_lt_zero _)
  | succ fuel ih =>
      cases hq : s.queue th with
      | nil =>
          refine ⟨s, past, ?_, ho, by simp [hq]⟩
          simp [State.expireLoopWith, show (s.thread th).timerQueue = [] from hq]
      | cons t rest =>
          have hmem : t ∈ s.queue th := by simp [hq]
          have hcmp := timespecCompare_lt_toNs now.2 (h.queued th t hmem).2.2.2
          by_cases hlt : now.1.toNs < (s.timer t).expirytime.toNs
          · refine ⟨s, past, ?_, ho, fun u hu => hlt.trans_le (head_le h hq hu)⟩
            simp [State.expireLoopWith, show (s.thread th).timerQueue = t :: rest from hq, hcmp.mpr hlt]
          · have hdue := not_lt.mp hlt
            have hstep := popped_handled h ha hmem
              (hforward (past ++ [s.popOf t]) (s.expireTimer th t now))
            have hpops : State.pops _ th now < s.pops th now :=
              (hstep.calm.pops_le (State.expire_wf h hmem) hstep.wf).trans_lt (expire_pops h hq hdue)
            have horderly := (ho.pop h hq hdue).calm hstep.calm
            obtain ⟨s', pops, hrest, hend⟩ := ih hstep.wf hstep.alive horderly (by omega)
            refine ⟨s', pops, ?_, hend⟩
            simp only [State.expireLoopWith, show (s.thread th).timerQueue = t :: rest from hq,
              mt hcmp.mp hlt, if_false]
            exact hrest

end Loop

theorem Orderly.nil (th : ThreadId) (now : Timespec) (s : State) : Orderly th now [] s where
  sorted := .nil
  due := by simp
  before := by simp
  again := fun _ => trivial

/-- Whatever the handlers do with timers, a pass ends: it pops timers in the order of their expiries, none
more than twice, and leaves no timer that is due. -/
theorem pass_chronological {s : State} (h : s.Wf) (ha : s.Alive) (th : ThreadId) (now : ClockReading)
    (handler : List Pop → State → List HandlerCall)
    (hforward : ∀ past u, ∀ c ∈ handler past u, c.Forward now) :
    ∃ s' pops, s.expireLoopWith handler th now (2 * (s.queue th).length + 1) [] = some (s', pops) ∧
      (pops.Pairwise fun p q => p.expirytime.toNs ≤ q.expirytime.toNs) ∧
      (∀ t, AtMostTwice now (pops.filter fun p => p.timer = t)) ∧
      ∀ t ∈ s'.queue th, now.1.toNs < (s'.timer t).expirytime.toNs := by
  have hfuel : s.pops th now < 2 * (s.queue th).length + 1 := Nat.lt_succ_of_le (s.pops_le th now)
  obtain ⟨s', pops, hloop, ho, hquiet⟩ := expireLoopWith_orderly hforward _ h ha (Orderly.nil th now s) hfuel
  exact ⟨s', pops, hloop, ho.sorted, fun t => (ho.again t).atMostTwice, hquiet⟩

/-- A timer of one second that is served in its third second, and whose handler adds a timer and starts it
again. -/
theorem pass_chronological_twice : ∃ (s : State) (handler : List Pop → State → List HandlerCall) (s' : State)
    (pops : List Pop), s.Wf ∧ s.Alive ∧
    s.expireLoopWith handler 0 (atSec 3) (2 * (s.queue 0).length + 1) [] = some (s', pops) ∧ pops.length = 2 ∧
    (pops.Pairwise fun p q => p.expirytime.toNs ≤ q.expirytime.toNs) ∧
    ∀ t ∈ s'.queue 0, (atSec 3).1.toNs < (s'.timer t).expirytime.toNs := by
  let s : State := (initModule.osTimerAdd ⟨30, 1000, 0#32, some 1, 0, true⟩ true (atSec 0)).1
  let handler : List Pop → State → List HandlerCall := fun _ _ =>
    [.add ⟨30, 1000, timerOneshot, some 1, 0, true⟩ true (atSec 3), .start (some 1) (atSec 3)]
  have hadd : (HandlerCall.add ⟨30, 1000, 0#32, some 1, 0, true⟩ true (atSec 0)).Forward (atSec 0) := fun _ => le_rfl
  have hs : Handled 0 (atSec 0) initModule s := add_handled initModule_wf (fun x hx => by cases hx) hadd
  have hforward : ∀ past u, ∀ c ∈ handler past u, c.Forward (atSec 3) := by
    intro past u c hc
    rcases List.mem_pair.mp hc with rfl | rfl
    · exact fun _ => le_rfl
    · exact le_refl (atSec 3).1.toNs
  obtain ⟨s', pops, hloop, hsorted, -, hquiet⟩ := pass_chronological hs.wf hs.alive 0 (atSec 3) handler hforward
  have hlength : (s.expireLoopWith handler 0 (atSec 3) (2 * (s.queue 0).length + 1) []).any
      (fun r => r.2.length = 2) = true := by decide +kernel
  rw [hloop] at hlength
  exact ⟨s, handler, s', pops, hs.wf, hs.alive, hloop, by simpa using hlength, hsorted, hquiet⟩

end Pc02.Timer

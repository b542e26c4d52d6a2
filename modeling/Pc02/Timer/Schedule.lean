import Pc02.Timer.Pass

/-!
# The schedule that the timer API implements

The abstract schedule knows nothing of queues and expiry times: a timer has a period, the start that
is in force, and whether it has fired since. It is computed from the calls, their results and the
handlers that were called. The module agrees with it after every sequential history.
-/

namespace Pc02.Timer

open Machines

/-- A timer as its users see it. `started` holds the clock reading of the start in force and the
period at that start, in nanoseconds. -/
structure Entry where
  periodic : Bool
  millisec : Int
  started : Option (Int × Int)
  fired : Bool
deriving DecidableEq, Repr

structure Schedule where
  entry : TimerId → Option Entry
  lastPass : ThreadId → Option Int

def AddArgs.entry (args : AddArgs) (now : Timespec) : Entry where
  periodic := !hasFlag args.flag timerOneshot
  millisec := args.millisec
  started := if hasFlag args.flag timerStopped then none else some (now.toNs, args.millisec * 1000000)
  fired := false

namespace Schedule

def init : Schedule := ⟨fun _ => none, fun _ => none⟩

def set (A : Schedule) (t : TimerId) (e : Option Entry) : Schedule :=
  { A with entry := Function.update A.entry t e }

def modify (A : Schedule) (t : TimerId) (f : Entry → Entry) : Schedule :=
  A.set t ((A.entry t).map f)

def start (A : Schedule) (t : TimerId) (now : Timespec) : Schedule :=
  A.modify t fun e => { e with started := some (now.toNs, e.millisec * 1000000), fired := false }

/-- What an operation and its result mean for the schedule. -/
def observe (A : Schedule) : Op × Out → Schedule
  | (.add args _ now, .added (some t)) =>
      A.set t (some (args.entry now))
  | (.start (some t) now, .code ret) => if ret = 0 then A.start t now else A
  | (.reset (some t) now, .code ret) => if ret = 0 then A.start t now else A
  | (.stop (some t) _, .code ret) => if ret = 0 then (A.modify t fun e => { e with started := none }) else A
  | (.settime (some t) millisec, .code ret) => if ret = 0 then (A.modify t fun e => { e with millisec := millisec }) else A
  | (.del (some t), .code ret) => if ret = 0 then A.set t none else A
  | (.pass th now, .invoked out) =>
      { entry := fun t => (A.entry t).map fun e => { e with fired := e.fired || decide (t ∈ out.map Prod.fst) }
        lastPass := Function.update A.lastPass th (some now.1.toNs) }
  | _ => A

/-- What a call on a timer is to return. -/
def answer (A : Schedule) : Op → Option Int
  | .start timerid _ => some (if (timerid.bind A.entry).isSome then 0 else -1)
  | .reset timerid _ => some (if (timerid.bind A.entry).isSome then 0 else -1)
  | .stop timerid _ => some (if (timerid.bind A.entry).isSome then 0 else -1)
  | .settime timerid millisec => some (if 0 < millisec ∧ (timerid.bind A.entry).isSome then 0 else -1)
  | .del timerid => some (if (timerid.bind A.entry).isSome then 0 else -1)
  | .add .. => none
  | .pass .. => none

def ofHistory (tr : List (Op × Out)) : Schedule := tr.foldl observe init

/-- A pass of `th` at clock reading `now` is to call the handler of `t`. -/
def Due (A : Schedule) (th : ThreadId) (now : Int) (t : TimerId) : Prop :=
  ∃ e start p, A.entry t = some e ∧ e.started = some (start, p) ∧
    if e.periodic then ∃ k : Nat, 1 ≤ k ∧ (∀ prev ∈ A.lastPass th, prev < start + k * p) ∧ start + k * p ≤ now
    else start + p ≤ now ∧ e.fired = false

end Schedule

/-- The calls succeed on the timers of the schedule, and `os_timer_add` makes new ones as long as there are a slot
and a thread node. -/
structure Schedule.Answered (A : Schedule) (Q : Sequential) : Prop where
  call : ∀ op ret, Q.admits op → A.answer op = some ret → ∃ Q', Q.step op = some (Q', [(op, .code ret)])
  add : ∀ args created now, Q.admits (.add args created now) →
    ∃ Q' o, Q.step (.add args created now) = some (Q', [(.add args created now, .added o)]) ∧
      (∀ t, o = some t → A.entry t = none) ∧
      (args.accepted = true → created = true → Q.svc.timerFreeList ≠ [] →
        Q.svc.timerThreadGet args.attr .monotonic ≠ none → o ≠ none)

/-- The expiry of a periodic timer is the first multiple of its period after the start that no pass
of its thread has reached. -/
def PeriodicAt (n : TimerNode) (last : Option Int) (start p : Int) : Prop :=
  n.value.interval.toNs = p ∧ ∃ k : Nat, 1 ≤ k ∧ n.expirytime.toNs = start + k * p ∧
    (∀ prev ∈ last, prev < start + k * p) ∧ ∀ j : Nat, 1 ≤ j → j < k → ∃ prev ∈ last, start + j * p ≤ prev

structure Entry.Agrees (s : State) (last : ThreadId → Option Int) (t : TimerId) (e : Entry) : Prop where
  inuse : (s.timer t).inuse = .inuse
  type : e.periodic = decide ((s.timer t).type ≠ .oneshot)
  millisec : (s.timer t).millisec = e.millisec
  pos : 0 < e.millisec
  stopped : e.started = none → ∀ th, t ∉ s.queue th
  period : ∀ start p, e.started = some (start, p) → 0 < p
  periodic : ∀ start p th, e.started = some (start, p) → e.periodic = true → (s.timer t).thread = some th →
    t ∈ s.queue th ∧ PeriodicAt (s.timer t) (last th) start p
  oneshot : ∀ start p th, e.started = some (start, p) → e.periodic = false → (s.timer t).thread = some th →
    (s.timer t).value.interval = zeroTimespec ∧ (t ∈ s.queue th ↔ e.fired = false) ∧
      (e.fired = false → (s.timer t).expirytime.toNs = start + p)

/-- The module implements the schedule; `clock` is the latest clock reading. -/
structure Agrees (s : State) (A : Schedule) (clock : Option ClockReading) : Prop where
  wf : s.Wf
  alive : s.Alive
  idle : s.Idle
  unknown : ∀ t, A.entry t = none → (s.timer t).inuse ≠ .inuse
  known : ∀ t e, A.entry t = some e → e.Agrees s A.lastPass t
  past : ∀ th prev, A.lastPass th = some prev → ∃ c ∈ clock, prev ≤ c.1.toNs

theorem PeriodicAt.due {n : TimerNode} {last : Option Int} {start p now : Int} (h : PeriodicAt n last start p)
    (hp : 0 < p) : n.expirytime.toNs ≤ now ↔
      ∃ k : Nat, 1 ≤ k ∧ (∀ prev ∈ last, prev < start + k * p) ∧ start + k * p ≤ now := by
  obtain ⟨-, k, hk, hexp, hafter, hbefore⟩ := h
  rw [hexp]
  constructor
  · exact fun hdue => ⟨k, hk, hafter, hdue⟩
  · rintro ⟨j, hj, hafter', hdue⟩
    by_cases hlt : j < k
    · obtain ⟨prev, hprev, hle⟩ := hbefore j hj hlt
      exact absurd (hafter' prev hprev) (not_lt.mpr hle)
    · have hmul : (k : Int) * p ≤ j * p := by
        have hcast : (k : Int) ≤ j := by exact_mod_cast not_lt.mp hlt
        exact mul_le_mul_of_nonneg_right hcast hp.le
      omega

theorem Agrees.due {s : State} {A : Schedule} {clock : Option ClockReading} (h : Agrees s A clock) {t : TimerId}
    {th : ThreadId} (hth : (s.timer t).thread = some th) (hin : (s.timer t).inuse = .inuse) (now : Int) :
    (t ∈ s.queue th ∧ (s.timer t).expirytime.toNs ≤ now) ↔ A.Due th now t := by
  cases hentry : A.entry t with
  | none => exact absurd hin (h.unknown t hentry)
  | some e =>
      have he := h.known t e hentry
      cases hstarted : e.started with
      | none =>
          refine iff_of_false (fun hdue => he.stopped hstarted th hdue.1) ?_
          rintro ⟨e', start, p, hentry', hstarted', -⟩
          obtain rfl : e = e' := Option.some.inj (hentry.symm.trans hentry')
          rw [hstarted] at hstarted'
          cases hstarted'
      | some sp =>
          obtain ⟨start, p⟩ := sp
          have hp := he.period start p hstarted
          have hiff : A.Due th now t ↔ if e.periodic then ∃ k : Nat, 1 ≤ k ∧
              (∀ prev ∈ A.lastPass th, prev < start + k * p) ∧ start + k * p ≤ now
              else start + p ≤ now ∧ e.fired = false := by
            constructor
            · rintro ⟨e', start', p', hentry', hstarted', hdue⟩
              obtain rfl : e = e' := Option.some.inj (hentry.symm.trans hentry')
              obtain ⟨rfl, rfl⟩ := Prod.mk.inj (Option.some.inj (hstarted.symm.trans hstarted'))
              exact hdue
            · exact fun hdue => ⟨e, start, p, hentry, hstarted, hdue⟩
          rw [hiff]
          cases hper : e.periodic with
          | true =>
              obtain ⟨hmem, hat⟩ := he.periodic start p th hstarted hper hth
              simp only [hmem, true_and, if_true]
              exact hat.due hp
          | false =>
              obtain ⟨-, hqueue, hexp⟩ := he.oneshot start p th hstarted hper hth
              simp only [Bool.false_eq_true, if_false]
              rw [hqueue, and_comm]
              exact and_congr_left fun hfired => by rw [hexp hfired]

section PassAgrees

variable {s s' : State} {th : ThreadId} {now : ClockReading} {out : List (TimerId × Sigevent)} {t : TimerId}

theorem Passed.invoked_iff (hp : Passed th now s s' out) (t : TimerId) :
    t ∈ out.map Prod.fst ↔ t ∈ s.queue th ∧ (s.timer t).expirytime.toNs ≤ now.1.toNs := by
  have hfate := hp.fate t
  by_cases hmem : t ∈ out.map Prod.fst
  · rw [decide_eq_true hmem] at hfate
    refine iff_of_true hmem ?_
    cases hfate with
    | oneshot hq hdue => exact ⟨hq, hdue⟩
    | periodic hq hdue => exact ⟨hq, hdue⟩
  · rw [decide_eq_false hmem] at hfate
    refine iff_of_false hmem ?_
    rintro ⟨hq, hdue⟩
    cases hfate with
    | same htimer hqueue =>
        have hlater := hp.quiet t (hqueue.mpr hq)
        rw [htimer] at hlater
        omega

theorem Fate.node {b : Bool} (h : Fate th now s s' t b) :
    (s'.timer t).inuse = (s.timer t).inuse ∧ (s'.timer t).type = (s.timer t).type ∧
      (s'.timer t).millisec = (s.timer t).millisec ∧ (s'.timer t).thread = (s.timer t).thread ∧
      (s'.timer t).value = (s.timer t).value := by
  cases h with
  | same htimer => simp [htimer]
  | oneshot _ _ _ htimer => simp [htimer]
  | periodic _ _ _ htimer => simp [htimer]

theorem PeriodicAt.later {n : TimerNode} {last : Option Int} {start p : Int} (h : PeriodicAt n last start p)
    {now : Int} (hlast : ∀ prev ∈ last, prev ≤ now) (hquiet : now < n.expirytime.toNs) :
    PeriodicAt n (some now) start p := by
  obtain ⟨hp, k, hk, hexp, -, hbefore⟩ := h
  refine ⟨hp, k, hk, hexp, ?_, fun j hj hjk => ?_⟩
  · rintro prev ⟨rfl⟩
    rwa [hexp] at hquiet
  · obtain ⟨prev, hprev, hle⟩ := hbefore j hj hjk
    exact ⟨now, rfl, hle.trans (hlast prev hprev)⟩

/-- A periodic timer that a pass pops is moved to the first multiple the pass has not reached. -/
theorem PeriodicAt.popped {n n' : TimerNode} {last : Option Int} {start p : Int} (h : PeriodicAt n last start p)
    {now : Int} (hlast : ∀ prev ∈ last, prev ≤ now) (hvalue : n'.value = n.value) {k : Nat}
    (hnext : n'.expirytime.toNs = n.expirytime.toNs + k * n.value.interval.toNs)
    (hpast : ∀ j : Nat, j < k → n.expirytime.toNs + j * n.value.interval.toNs ≤ now)
    (hquiet : now < n'.expirytime.toNs) : PeriodicAt n' (some now) start p := by
  obtain ⟨rfl, k₀, hk₀, hexp, -, hbefore⟩ := h
  refine ⟨by rw [hvalue], k₀ + k, by omega, ?_, ?_, fun j hj hjk => ⟨now, rfl, ?_⟩⟩
  · rw [hnext, hexp]
    push_cast
    ring
  · rintro prev ⟨rfl⟩
    rw [hnext, hexp] at hquiet
    push_cast
    linarith
  · by_cases hlt : j < k₀
    · obtain ⟨prev, hprev, hle⟩ := hbefore j hj hlt
      exact hle.trans (hlast prev hprev)
    · have hreached := hpast (j - k₀) (by omega)
      rw [hexp, Nat.cast_sub (not_lt.mp hlt)] at hreached
      linarith

theorem Entry.Agrees.pass {last : ThreadId → Option Int} {e : Entry} (he : e.Agrees s last t)
    (hwf : s.Wf) (hlast : ∀ prev ∈ last th, prev ≤ now.1.toNs) (hp : Passed th now s s' out) :
    ({ e with fired := e.fired || decide (t ∈ out.map Prod.fst) } : Entry).Agrees s'
      (Function.update last th (some now.1.toNs)) t := by
  have hfate := hp.fate t
  obtain ⟨hin, htype, hms, hthread, hvalue⟩ := hfate.node
  -- the timer is served by another thread, or its fate is decided by this pass
  have hother {x : ThreadId} (hx : x ≠ th) (hth : (s.timer t).thread = some x) :
      s'.timer t = s.timer t ∧ decide (t ∈ out.map Prod.fst) = false := by
    have hout : t ∉ s.queue th := by
      intro hq
      exact hx (Option.some.inj (hth.symm.trans (hwf.queued th t hq).2.2.1))
    have hnot : t ∉ out.map Prod.fst := fun hmem => hout ((hp.invoked_iff t).mp hmem).1
    rw [decide_eq_false hnot] at hfate
    cases hfate with
    | same htimer => exact ⟨htimer, decide_eq_false hnot⟩
  refine ⟨hin.trans he.inuse, by rw [htype]; exact he.type, hms.trans he.millisec, he.pos, ?_, he.period, ?_, ?_⟩
  · intro hstarted x
    have hout := he.stopped hstarted
    by_cases hx : x = th
    · subst hx
      have hnot : t ∉ out.map Prod.fst := fun hmem => hout x ((hp.invoked_iff t).mp hmem).1
      rw [decide_eq_false hnot] at hfate
      cases hfate with
      | same _ hqueue => exact fun hq => hout x (hqueue.mp hq)
    · rw [hp.others x hx]
      exact hout x
  · intro start p x hstarted hper hth
    rw [hthread] at hth
    obtain ⟨hmem, hat⟩ := he.periodic start p x hstarted hper hth
    by_cases hx : x = th
    · subst hx
      rw [Function.update_self]
      cases hflag : decide (t ∈ out.map Prod.fst) with
      | false =>
          rw [hflag] at hfate
          cases hfate with
          | same htimer hqueue =>
              have hmem' := hqueue.mpr hmem
              refine ⟨hmem', ?_⟩
              have hquiet := hp.quiet t hmem'
              rw [htimer] at hquiet ⊢
              exact hat.later hlast hquiet
      | true =>
          rw [hflag] at hfate
          cases hfate with
          | oneshot _ _ hzero =>
              have hpos := he.period start p hstarted
              rw [← hat.1, hzero] at hpos
              cases hpos
          | periodic hq hdue hne htimer hq' hk hnext hpast =>
              refine ⟨hq', hat.popped hlast hvalue ?_ hpast (hp.quiet t hq')⟩
              rw [htimer]
              exact hnext
    · rw [Function.update_of_ne hx, (hother hx hth).1, hp.others x hx]
      exact ⟨hmem, hat⟩
  · intro start p x hstarted hper hth
    rw [hthread] at hth
    obtain ⟨hzero, hqueue, hexp⟩ := he.oneshot start p x hstarted hper hth
    rw [hvalue]
    refine ⟨hzero, ?_⟩
    by_cases hx : x = th
    · subst hx
      cases hflag : decide (t ∈ out.map Prod.fst) with
      | false =>
          rw [hflag] at hfate
          cases hfate with
          | same htimer hqueue' =>
              rw [htimer, hqueue', Bool.or_false]
              exact ⟨hqueue, hexp⟩
      | true =>
          rw [hflag] at hfate
          cases hfate with
          | oneshot _ _ _ _ hout => simp [hout]
          | periodic _ _ hne => exact absurd hzero hne
    · obtain ⟨htimer, hflag⟩ := hother hx hth
      rw [hflag, htimer, hp.others x hx, Bool.or_false]
      exact ⟨hqueue, hexp⟩

end PassAgrees

end Pc02.Timer

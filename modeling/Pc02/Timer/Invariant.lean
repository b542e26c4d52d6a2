import Pc02.Timer.Threads
import Pc02.Timer.System

/-!
# What a step of the timer service can do

`Trans` lists the effects of a step; every later invariant is checked against this list. The
representation invariant `State.Wf` and the sanity of pending calls hold along every run in which a
thread node is given back only while no timer in use belongs to it (`Action.Safe`). Handlers that
return normally guarantee that condition.
-/

namespace Pc02.Timer

open Machines

def Itimerspec.Ok (v : Itimerspec) : Prop :=
  v.interval.Normal ∧ 0 ≤ v.interval.sec ∧ v.value.Normal

theorem Itimerspec.Ok.range {v : Itimerspec} (h : v.Ok) : State.settimeRange v = true := by
  obtain ⟨⟨hi, hi'⟩, -, hv, hv'⟩ := h
  simp only [State.settimeRange, decide_eq_true_eq, not_or, not_lt, ge_iff_le, not_le]
  exact ⟨hi, hi', hv, hv'⟩

/-- What a pending API call has already checked or computed. -/
def Call.Ok : Call → Prop
  | .adding args _ => 0 < args.millisec
  | .addArming args _ => 0 < args.millisec
  | .starting _ its => its.Ok
  | _ => True

def State.Unused (s : State) (th : ThreadId) : Prop :=
  ∀ t, (s.timer t).inuse = .inuse → (s.timer t).thread ≠ some th

instance (s : State) (th : ThreadId) : Decidable (s.Unused th) :=
  inferInstanceAs (Decidable (∀ t, (s.timer t).inuse = .inuse → (s.timer t).thread ≠ some th))

/-- If `__timer_create` finds a node without a thread and cannot start one, no timer in use belongs
to the node that it then gives back. -/
def State.CreateSafe (s : State) (attr : Attr) (clock : ClockId) (created : Bool) : Prop :=
  created = false → s.timerFreeList ≠ [] → ∀ th, s.timerThreadFindMatching attr clock = some th →
    (s.thread th).existsFlag = false → s.Unused th

/-- The two places that give a thread node back, `unlock_bail` in `__timer_create` and
`thread_cleanup`, do so only when no timer in use belongs to the node. -/
def Action.Safe (S : System) : Action → Prop
  | .add _ args created => S.svc.CreateSafe args.attr .monotonic created
  | .exit th _ => S.svc.queue th = [] → S.svc.Unused th
  | _ => True

/-! ### Creation -/

namespace State

variable {s s' : State} {t : TimerId} {th : ThreadId} {attr : Attr} {clock : ClockId} {created : Bool}

theorem Wf.unused_of_free (h : s.Wf) (hth : th ∈ s.threadFreeList) : s.Unused th := by
  intro t ht hthread
  obtain ⟨th', hactive, hthread'⟩ := h.placed t ht
  obtain rfl : th = th' := Option.some.inj (hthread.symm.trans hthread')
  exact (List.nodup_append.mp h.threadNodup).2.2 th hth th hactive rfl

theorem unused_of_noStart {u u' : State} (h : s.Wf)
    (hsafe : s.CreateSafe attr clock created) (hfree : s.timerFreeList ≠ [])
    (hget : s.timerThreadGet attr clock = some (u, th))
    (hens : u.timerThreadEnsure th created = (u', false)) : u'.Unused th := by
  have hgot := timerThreadGet_got h hget
  have hgot' := timerThreadEnsure_got hgot hens
  have hflag : (u.thread th).existsFlag = false ∧ created = false := by
    cases hex : (u.thread th).existsFlag <;> cases created <;>
      simp_all [timerThreadEnsure, timerThreadStart]
  have hunused : s.Unused th := by
    rcases timerThreadGet_eq_some hget with ⟨hfind, rfl⟩ | ⟨-, halloc⟩
    · exact hsafe hflag.2 hfree th hfind hflag.1
    · obtain ⟨rest, hnodes, -⟩ := timerThreadAlloc_eq_some halloc
      exact h.unused_of_free (by simp [hnodes])
  intro t
  rw [hgot'.timer]
  exact hunused t

theorem osTimerAddCreate_created {args : AddArgs} (h : s.Wf) (hsafe : s.CreateSafe args.attr .monotonic created) :
    Created s .monotonic ⟨args.handler.getD 0, args.arg, s.nextReg⟩ args.attr created
      (s.osTimerAddCreate args created) :=
  timerCreate_created h fun hfree _ _ _ hget hens =>
    (timerThreadDealloc_wf (timerThreadEnsure_got (timerThreadGet_got h hget) hens).wf
      (unused_of_noStart h hsafe hfree hget hens)).1

theorem freedNode_suits {n : TimerNode} (hn : n.DataOk) (active : List ThreadId) :
    (freedNode n).Suits active .free :=
  ⟨rfl, hn, by simp [freedNode], by simp, by simp [freedNode], by simp [freedNode]⟩

theorem bump_wf (h : s.Wf) : s.bump.Wf := h.congr rfl (fun _ => rfl) rfl rfl rfl rfl

theorem Created.wf {event : Sigevent} {r : Option TimerId} (h : s.Wf)
    (hsafe : s.CreateSafe attr clock created)
    (hc : Created s clock event attr created (s', r)) : s'.Wf := by
  cases hc with
  | full => exact h
  | @noThread t _ hfree hget =>
      have hdata : (pendingNode (s.timer t) event attr).DataOk := h.dataOk t
      exact bump_wf (h.move (freedNode_suits hdata _))
  | @noStart t _ u u' th hfree hget hens =>
      have hgot := timerThreadEnsure_got (timerThreadGet_got h hget) hens
      have hunused := unused_of_noStart h hsafe (by simp [hfree]) hget hens
      have hdata : (pendingNode (s.timer t) event attr).DataOk := h.dataOk t
      exact bump_wf ((timerThreadDealloc_wf hgot.wf hunused).2.move (freedNode_suits hdata _))
  | @ok t _ u u' th hfree hget hens =>
      have hgot := timerThreadEnsure_got (timerThreadGet_got h hget) hens
      refine bump_wf (hgot.wf.move ⟨rfl, h.dataOk t, by simp [createdNode, pendingNode], by simp,
        fun _ => ⟨th, hgot.active, rfl⟩, by simp [createdNode]⟩)

end State

/-! ### The other sections -/

namespace State

variable {s s' : State} {t : TimerId} {th : ThreadId}

inductive Settimed (s : State) (t : TimerId) (abstime : Bool) (its : Itimerspec) (now : Timespec) :
    State × Int × Option ThreadId → Prop
  | arm {th : ThreadId} : (s.timer t).inuse = .inuse → (s.timer t).thread = some th →
      its.value ≠ zeroTimespec →
      Settimed s t abstime its now (s.move t (armedNode (s.timer t) abstime its now) (.queue th), 0,
        if SortedQueue.atHead (s.move t (armedNode (s.timer t) abstime its now) (.queue th)).key t
          ((s.queue th).filter (· ≠ t)) then some th else none)
  | stop : (s.timer t).inuse = .inuse → its.value = zeroTimespec →
      Settimed s t abstime its now (s.move t (stoppedNode (s.timer t) its) .nowhere, 0, none)
  | free : (s.timer t).inuse = .free →
      Settimed s t abstime its now (s.move t (freedNode (s.timer t)) .free, -1, none)
  | lost : (s.timer t).inuse = .deleted → Settimed s t abstime its now (s, -1, none)

theorem timerSettime_ends (href : (s.timer t).RefOk) (hrun : s.aborted = false)
    (hthread : (s.timer t).inuse = .inuse → ∃ th, (s.timer t).thread = some th) {its : Itimerspec} (hits : its.Ok)
    (abstime : Bool) (now : Timespec) :
    Settimed s t abstime its now (s.timerSettime (some t) abstime its now) := by
  have hrange := hits.range
  cases hin : (s.timer t).inuse with
  | inuse =>
      rw [TimerNode.RefOk, hin] at href
      by_cases hvalue : its.value = zeroTimespec
      · rw [timerSettime_stop href hin hrange hvalue]
        exact .stop hin hvalue
      · obtain ⟨th, hth⟩ := hthread hin
        rw [timerSettime_arm href hin hth hrange hvalue]
        exact .arm hin hth hvalue
  | free =>
      rw [TimerNode.RefOk, hin] at href
      rw [timerSettime_free href hin hrun hrange]
      exact .free hin
  | deleted =>
      rw [TimerNode.RefOk, hin] at href
      rw [timerSettime_deleted href hin hrange]
      exact .lost hin

theorem timerSettime_settimed (h : s.Wf) {its : Itimerspec} (hits : its.Ok) (t : TimerId)
    (abstime : Bool) (now : Timespec) :
    Settimed s t abstime its now (s.timerSettime (some t) abstime its now) := by
  apply timerSettime_ends (h.refOk t) h.running _ hits
  intro hin
  obtain ⟨th, -, hth⟩ := h.placed t hin
  exact ⟨th, hth⟩

theorem Settimed.wf {abstime : Bool} {its : Itimerspec} {now : ClockReading} {r : Int × Option ThreadId}
    (h : s.Wf) (hits : its.Ok) (hs : Settimed s t abstime its now (s', r)) : s'.Wf := by
  have hdata : (stoppedNode (s.timer t) its).DataOk := ⟨hits.1, hits.2.1, (h.dataOk t).2.2⟩
  have href := h.refOk t
  cases hs with
  | @arm th hin hth hvalue =>
      rw [TimerNode.RefOk, hin] at href
      refine h.move ⟨by simpa [TimerNode.RefOk, armedNode, hin] using href, hdata, by simp [armedNode, hin],
        ?_, ?_, ?_⟩
      · rintro th' hth'
        obtain rfl : th = th' := Place.queue.inj hth'
        refine ⟨hin, rfl, hth, ?_⟩
        change Timespec.Normal (if abstime then its.value else timespecAdd now its.value)
        split
        · exact hits.2.2
        · exact timespecAdd_normal now.2 hits.2.2
      · exact fun _ => h.placed t hin
      · intro _ _ hplace
        exact absurd rfl (hplace th)
  | stop hin hvalue =>
      rw [TimerNode.RefOk, hin] at href
      exact h.move ⟨by simpa [TimerNode.RefOk, stoppedNode, hin] using href, hdata,
        by simp [stoppedNode, hin], by simp, fun _ => h.placed t hin, by simp [stoppedNode]⟩
  | free hin => exact h.move (freedNode_suits (h.dataOk t) _)
  | lost => exact h

inductive Deleted (s : State) (t : TimerId) : State → Prop
  | released : (s.timer t).inuse = .inuse → Deleted s t (s.move t (freedNode (s.timer t)) .free)
  | lost : (s.timer t).inuse ≠ .inuse → Deleted s t
      (s.move t { s.timer t with inuse := .deleted, refcount := (s.timer t).refcount - 1 } .nowhere)

theorem timerDelete_ends (href : (s.timer t).RefOk) (hrun : s.aborted = false) : Deleted s t (s.timerDelete t) := by
  rw [TimerNode.RefOk] at href
  cases hin : (s.timer t).inuse with
  | inuse =>
      rw [hin] at href
      rw [timerDelete_inuse href hrun]
      exact .released hin
  | free =>
      rw [hin] at href
      have hne : (s.timer t).refcount ≠ 1 := by simp only at href; omega
      rw [timerDelete_stale hne]
      exact .lost (by simp [hin])
  | deleted =>
      rw [hin] at href
      have hne : (s.timer t).refcount ≠ 1 := by simp only at href; omega
      rw [timerDelete_stale hne]
      exact .lost (by simp [hin])

theorem timerDelete_deleted (h : s.Wf) (t : TimerId) : Deleted s t (s.timerDelete t) :=
  timerDelete_ends (h.refOk t) h.running

theorem Deleted.wf (h : s.Wf) (hd : Deleted s t s') : s'.Wf := by
  have href := h.refOk t
  cases hd with
  | released hin => exact h.move (freedNode_suits (h.dataOk t) _)
  | lost hin =>
      refine h.move ⟨?_, h.dataOk t, by simp, by simp, by simp, by simp⟩
      rw [TimerNode.RefOk] at href ⊢
      cases hin' : (s.timer t).inuse with
      | inuse => exact absurd hin' hin
      | free =>
          rw [hin'] at href
          simp only at href ⊢
          omega
      | deleted =>
          rw [hin'] at href
          simp only at href ⊢
          omega

theorem setThread_wf (h : s.Wf) (f : ThreadNode → ThreadNode)
    (hf : (f (s.thread th)).timerQueue = (s.thread th).timerQueue) : (s.setThread th f).Wf := by
  exact h.congr rfl (queue_setThread hf) rfl rfl rfl rfl

theorem expireDone_wf (h : s.Wf) (th : ThreadId) : (s.expireDone th).Wf := by
  simp only [expireDone]
  exact setThread_wf h _ rfl

theorem expireTimer_wf (h : s.Wf) (ht : t ∈ s.queue th) (now : ClockReading) :
    (s.expireTimer th t now).Wf := by
  obtain ⟨hin, harmed, hth, hnormal⟩ := h.queued th t ht
  have href := h.refOk t
  obtain ⟨hinterval, hsec, hms⟩ := h.dataOk t
  rw [expireTimer_eq_move]
  refine setThread_wf (h.move ?_) _ rfl
  by_cases hz : (s.timer t).value.interval = zeroTimespec
  · rw [expiredNode, expiredPlace, if_pos hz, if_pos hz]
    exact ⟨href, h.dataOk t, by simp [hin], by simp, fun _ => h.placed t hin, fun _ _ _ => hz⟩
  · rw [expiredNode, expiredPlace, if_neg hz, if_neg hz]
    refine ⟨href, ⟨hinterval, hsec, hms⟩, by simp [hin], ?_, fun _ => h.placed t hin, ?_⟩
    · rintro th' hth'
      obtain rfl : th = th' := Place.queue.inj hth'
      exact ⟨hin, harmed, hth, catchUp_normal _ hinterval hnormal⟩
    · intro _ _ hplace
      exact absurd rfl (hplace th)

theorem timerThreadStart_wf (h : s.Wf) (hflag : (s.thread th).existsFlag = false) (created : Bool) :
    (s.timerThreadStart th created).1.Wf := by
  have hassert : s.assert (!(s.thread th).existsFlag) = s := by
    simp [State.assert, hflag]
  cases created with
  | false =>
      simp only [timerThreadStart, hassert, Bool.false_eq_true, if_false]
      exact setThread_wf h _ rfl
  | true =>
      simp only [timerThreadStart, hassert, if_true]
      exact setThread_wf h _ rfl

theorem threadCleanup_wf (h : s.Wf) (hunused : s.queue th = [] → s.Unused th) (created : Bool) :
    (s.threadCleanup th created).1.Wf := by
  let u := s.setThread th fun n => { n with existsFlag := false, currentTimer := none }
  have hu : u.Wf := setThread_wf h _ rfl
  have hqueue : (u.thread th).timerQueue = s.queue th := by simp [u, State.queue]
  simp only [threadCleanup]
  change (if (u.thread th).timerQueue.isEmpty then (u.timerThreadDealloc th, false)
    else u.timerThreadStart th created).1.Wf
  split
  · rename_i hempty
    rw [hqueue, List.isEmpty_iff] at hempty
    exact (timerThreadDealloc_wf hu (hunused hempty)).2
  · exact timerThreadStart_wf hu (by simp [u]) created

theorem setTimer_data_wf (h : s.Wf) (type : TimerType) {millisec : Int} (hms : 0 ≤ millisec) :
    (s.setTimer t fun n => { n with type := type, millisec := millisec }).Wf := by
  let s' := s.setTimer t fun n => { n with type := type, millisec := millisec }
  have hnode (u : TimerId) : s'.timer u = s.timer u ∨
      s'.timer u = { s.timer u with type := type, millisec := millisec } := by
    by_cases hu : u = t
    · subst hu
      exact .inr (by simp [s'])
    · exact .inl (by simp [s', hu])
  have hinuse (u : TimerId) : (s'.timer u).inuse = (s.timer u).inuse := by
    rcases hnode u with hu | hu <;> rw [hu]
  have harmed (u : TimerId) : (s'.timer u).armed = (s.timer u).armed := by
    rcases hnode u with hu | hu <;> rw [hu]
  have hthread (u : TimerId) : (s'.timer u).thread = (s.timer u).thread := by
    rcases hnode u with hu | hu <;> rw [hu]
  have hexpiry (u : TimerId) : (s'.timer u).expirytime = (s.timer u).expirytime := by
    rcases hnode u with hu | hu <;> rw [hu]
  have hvalue (u : TimerId) : (s'.timer u).value = (s.timer u).value := by
    rcases hnode u with hu | hu <;> rw [hu]
  have hkey : s'.key = s.key := by
    funext u
    simp only [State.key, hexpiry]
  refine ⟨h.running, h.freeNodup, ?_, ?_, ?_, h.queueNodup, ?_, ?_, ?_, ?_, h.threadNodup⟩
  · intro u
    rw [hinuse]
    exact h.freeIff u
  · intro u
    have hu := h.refOk u
    rcases hnode u with hn | hn
    · rw [hn]; exact hu
    · rw [hn]; exact hu
  · intro u
    obtain ⟨hi, hsec, hms'⟩ := h.dataOk u
    rcases hnode u with hn | hn
    · rw [hn]; exact ⟨hi, hsec, hms'⟩
    · rw [hn]; exact ⟨hi, hsec, hms⟩
  · intro th
    rw [hkey]
    exact h.sorted th
  · intro th u hu
    rw [hinuse, harmed, hthread, hexpiry]
    exact h.queued th u hu
  · intro u hu
    rw [hinuse] at hu
    rw [hthread]
    exact h.placed u hu
  · intro u th hu ha hth hout
    rw [hinuse] at hu
    rw [harmed] at ha
    rw [hthread] at hth
    rw [hvalue]
    exact h.dequeued u th hu ha hth hout

theorem Settimed.sameThreads {abstime : Bool} {its : Itimerspec}
    {now : Timespec} {r : Int × Option ThreadId} (hs : Settimed s t abstime its now (s', r)) :
    SameThreads s s' := by
  cases hs with
  | arm => exact .move _ _ _ _
  | stop => exact .move _ _ _ _
  | free => exact .move _ _ _ _
  | lost => exact .refl _

theorem Deleted.sameThreads (hd : Deleted s t s') :
    SameThreads s s' := by
  cases hd with
  | released => exact .move _ _ _ _
  | lost => exact .move _ _ _ _

end State

inductive Served (S : System) (th : ThreadId) (now : ClockReading) : System × List Event → Prop
  | empty : S.svc.queue th = [] → Served S th now (S.setPc th (.blocked none), [])
  | early {t : TimerId} {rest : List TimerId} : S.svc.queue th = t :: rest →
      now.1.key < S.svc.key t →
      Served S th now (S.setPc th (.blocked (some (S.svc.timer t).expirytime)), [])
  | due {t : TimerId} {rest : List TimerId} : S.svc.queue th = t :: rest → S.svc.key t ≤ now.1.key →
      Served S th now
        ({ S with svc := S.svc.expireTimer th t now }.setPc th
          (.expiring t (S.svc.timer t).event.reg now), [.popped th t (S.svc.timer t).event.reg])

theorem serve_served (S : System) (th : ThreadId) (now : ClockReading) :
    Served S th now (S.serve th now) := by
  simp only [System.serve]
  split
  · rename_i hq
    exact .empty hq
  · rename_i t rest hq
    split
    · rename_i hcmp
      exact .early hq ((timespecCompare_lt _ _).mp hcmp)
    · rename_i hcmp
      exact .due hq (not_lt.mp (mt (timespecCompare_lt _ _).mpr hcmp))

theorem Served.inv_svc {S S' : System} {th : ThreadId} {now : ClockReading} {ev : List Event}
    (h : S.svc.Wf) (hs : Served S th now (S', ev)) : S'.svc.Wf ∧ S'.call = S.call := by
  cases hs with
  | empty => exact ⟨h, rfl⟩
  | early => exact ⟨h, rfl⟩
  | due hq => exact ⟨State.expireTimer_wf h (by simp [hq]) now, rfl⟩

/-! ### The list of effects -/

inductive Entered (S : System) (p : Pthread) : Call → Prop
  | idle : Entered S p .idle
  | same : Entered S p (S.call p)
  | starting {t : TimerId} {its : Itimerspec} : its.Ok → Entered S p (.starting t its)
  | deleting {t : TimerId} {th : ThreadId} : (S.svc.timer t).inuse = .inuse →
      (S.svc.timer t).armed = true → (S.svc.timer t).thread = some th →
      S.svc.deleteMustWait t th p = true → Entered S p (.deleting t th (S.svc.timer t).event.reg)

/-- A delete that is about to release slot `t`: either it never waited, or it leaves its wait. -/
inductive Deletes (S : System) (a : Action) (p : Pthread) (t : TimerId) : Option ThreadId → Nat → Prop
  | direct : a = .del p (some t) → S.canCall p = true → (S.svc.timer t).inuse = .inuse →
      (∀ th, (S.svc.timer t).armed = true → (S.svc.timer t).thread = some th →
        S.svc.deleteMustWait t th p = false) →
      Deletes S a p t (S.svc.timer t).thread (S.svc.timer t).event.reg
  | resumed {th : ThreadId} {reg : Nat} : a = .delWake p → S.call p = .deleting t th reg →
      S.svc.deleteMustWait t th p = false → Deletes S a p t (some th) reg

/-- The effects of a step that terminates no thread. -/
inductive Trans (S : System) (a : Action) : System → List Event → Prop
  | quiet {p : Pthread} {c : Call} {ev : List Event} : (∀ th r, S.call p ≠ .waking th r) →
      Entered S p c → (∀ e ∈ ev, ∃ r, e = .returned p r) → Trans S a (S.setCall p c) ev
  | data {p : Pthread} {c : Call} {ev : List Event} {t : TimerId} {type : TimerType} {millisec : Int} :
      (∀ th r, S.call p ≠ .waking th r) → 0 ≤ millisec →
      (c = .idle ∨ ∃ args, c = .addArming args t ∧ 0 < args.millisec) →
      (∀ e ∈ ev, ∃ r, e = .returned p r) →
      Trans S a ({ S with
        svc := S.svc.setTimer t fun n => { n with type := type, millisec := millisec } }.setCall p c) ev
  | created {p : Pthread} {args : AddArgs} {ok : Bool} {svc : State} {t : TimerId} {event : Sigevent} :
      S.call p = .idle → 0 < args.millisec → event.reg = S.svc.nextReg →
      (Action.add p args ok).Safe S →
      State.Created S.svc .monotonic event args.attr ok (svc, some t) →
      Trans S a ((S.spawn svc).setCall p (.adding args t)) []
  | notCreated {p : Pthread} {args : AddArgs} {ok : Bool} {svc : State} {event : Sigevent} :
      S.call p = .idle → event.reg = S.svc.nextReg → (Action.add p args ok).Safe S →
      State.Created S.svc .monotonic event args.attr ok (svc, none) →
      Trans S a (S.spawn svc) [.returned p (.code (-1))]
  | settime {p : Pthread} {t : TimerId} {abstime : Bool} {its : Itimerspec} {now : ClockReading}
      {ret : Ret} {r : State × Int × Option ThreadId} : (∀ th r, S.call p ≠ .waking th r) → its.Ok →
      State.Settimed S.svc t abstime its now r →
      Trans S a (S.settimeDone p t r ret).1 (S.settimeDone p t r ret).2
  | delete {p : Pthread} {t : TimerId} {th : Option ThreadId} {called : Nat} {svc : State} :
      Deletes S a p t th called → State.Deleted S.svc t svc →
      Trans S a ({ S with svc := svc }.setCall p .idle)
        [.deleted p t th called (S.svc.timer t).event.reg, .returned p (.code 0)]
  | wakeup {p : Pthread} {th : ThreadId} {ret : Ret} : S.call p = .waking th ret →
      Trans S a ((S.broadcast th).setCall p .idle) [.returned p ret]
  | look {th : ThreadId} {now : ClockReading} {S' : System} {ev : List Event} : S.pc th = .ready →
      Served S th now (S', ev) → Trans S a S' ev
  | invoke {th : ThreadId} {t : TimerId} {reg : Nat} {now : ClockReading} :
      S.pc th = .expiring t reg now →
      Trans S a (S.setPc th (.handling t reg now)) [.invoked th (S.svc.timer t).event]
  | finish {th : ThreadId} {t : TimerId} {reg : Nat} {now : ClockReading} {S' : System} {ev : List Event} :
      S.pc th = .handling t reg now → S.call (.service th) = .idle →
      Served { S with svc := S.svc.expireDone th } th now (S', ev) → Trans S a S' ev
  | wake {th : ThreadId} {deadline : Option Timespec} : S.pc th = .blocked deadline →
      Trans S a (S.setPc th .ready) []

/-- The representation invariant together with the sanity of every pending call. -/
structure System.Inv (S : System) : Prop where
  wf : S.svc.Wf
  calls : ∀ p, (S.call p).Ok

theorem System.setCall_ok {S : System} {p : Pthread} {c : Call} (h : ∀ p, (S.call p).Ok) (hc : c.Ok) :
    ∀ q, ((S.setCall p c).call q).Ok := by
  intro q
  by_cases hq : q = p
  · subst hq
    simpa [System.setCall] using hc
  · simpa [System.setCall, hq] using h q

section Arguments

theorem AddArgs.its_ok {a : AddArgs} (h : 0 < a.millisec) : a.its.Ok := by
  have hnormal := ms2ts_normal h.le
  have hsec := ms2ts_sec_nonneg h.le
  simp only [AddArgs.its, Itimerspec.Ok]
  split_ifs <;> simp [zeroTimespec_normal, hnormal, hsec] <;> simp [zeroTimespec]

theorem zeroItimerspec_ok : zeroItimerspec.Ok := by
  simp [zeroItimerspec, Itimerspec.Ok, zeroTimespec_normal]
  simp [zeroTimespec]

theorem AddArgs.millisec_pos {a : AddArgs} (h : a.accepted = true) : 0 < a.millisec := by
  simp only [AddArgs.accepted, not_or, decide_eq_true_eq] at h
  omega

theorem osTimerStartRead_its {s : State} (h : ∀ t, 0 ≤ (s.timer t).millisec) {timerid : TimerT} {t : TimerId}
    {its : Itimerspec} (hread : s.osTimerStartRead timerid = some (t, its)) :
    its.Ok ∧ (its.interval = zeroTimespec ∨ its.interval = its.value) := by
  cases timerid with
  | none => cases hread
  | some u =>
      simp only [State.osTimerStartRead] at hread
      split at hread
      · obtain ⟨rfl, rfl⟩ := Prod.mk.inj (Option.some.inj hread)
        have hnormal := ms2ts_normal (h u)
        have hsec := ms2ts_sec_nonneg (h u)
        simp only [Itimerspec.Ok]
        split_ifs
        · exact ⟨⟨zeroTimespec_normal, le_rfl, hnormal⟩, .inl rfl⟩
        · exact ⟨⟨hnormal, hsec, hnormal⟩, .inr rfl⟩
      · cases hread

theorem osTimerStartRead_ok {s : State} (h : s.Wf) {timerid : TimerT} {t : TimerId} {its : Itimerspec}
    (hread : s.osTimerStartRead timerid = some (t, its)) : its.Ok :=
  (osTimerStartRead_its (fun t => (h.dataOk t).2.2) hread).1

end Arguments

theorem Trans.unchanged {S : System} {a : Action} {p : Pthread} {ev : List Event}
    (hp : ∀ th r, S.call p ≠ .waking th r) (hev : ∀ e ∈ ev, ∃ r, e = .returned p r) : Trans S a S ev := by
  have hsame : S.setCall p (S.call p) = S := by simp [System.setCall]
  have hquiet : Trans S a (S.setCall p (S.call p)) ev := .quiet hp .same hev
  rwa [hsame] at hquiet

theorem canCall_idle {S : System} {p : Pthread} (hp : S.canCall p = true) : S.call p = .idle := by
  simp only [System.canCall, Bool.and_eq_true, decide_eq_true_eq] at hp
  exact hp.1

theorem idle_not_waking {S : System} {p : Pthread} (hp : S.call p = .idle) : ∀ th r, S.call p ≠ .waking th r := by
  simp [hp]

/-- A step has one of the listed effects. -/
theorem step_trans {S S' : System} {a : Action} {ev : List Event} (h : S.Inv) (hsafe : a.Safe S)
    (hret : a.returns = true) (hstep : S.step a = some (S', ev)) : Trans S a S' ev := by
  cases step_stepped hstep with
  | addRefused hp => exact .unchanged (idle_not_waking (canCall_idle hp)) (by simp)
  | addFailed hp hacc hres =>
      have hcreated := State.osTimerAddCreate_created h.wf hsafe
      exact .notCreated (canCall_idle hp) rfl hsafe (hres ▸ hcreated)
  | add hp hacc hres =>
      have hcreated := State.osTimerAddCreate_created h.wf hsafe
      exact .created (canCall_idle hp) (AddArgs.millisec_pos hacc) rfl hsafe (hres ▸ hcreated)
  | addInitFailed hcall => exact .quiet (by simp [hcall]) .idle (by simp)
  | @addInit p args t hcall _ =>
      have hms : 0 < args.millisec := by simpa [hcall, Call.Ok] using h.calls p
      exact .data (by simp [hcall]) hms.le (.inr ⟨args, rfl, hms⟩) (by simp)
  | @addArm p now args t hcall =>
      have hms : 0 < args.millisec := by simpa [hcall, Call.Ok] using h.calls p
      exact .settime (by simp [hcall]) (AddArgs.its_ok hms)
        (State.timerSettime_settimed h.wf (AddArgs.its_ok hms) t _ now)
  | startRefused hp => exact .unchanged (idle_not_waking (canCall_idle hp)) (by simp)
  | start hp hread =>
      exact .quiet (idle_not_waking (canCall_idle hp)) (.starting (osTimerStartRead_ok h.wf hread)) (by simp)
  | @startArm p now t its hcall =>
      have hits : its.Ok := by simpa [hcall, Call.Ok] using h.calls p
      exact .settime (by simp [hcall]) hits (State.timerSettime_settimed h.wf hits t _ now)
  | stopRefused hp => exact .unchanged (idle_not_waking (canCall_idle hp)) (by simp)
  | @stop p t now hp =>
      exact .settime (idle_not_waking (canCall_idle hp)) zeroItimerspec_ok
        (State.timerSettime_settimed h.wf zeroItimerspec_ok _ _ now)
  | settimeRefused hp => exact .unchanged (idle_not_waking (canCall_idle hp)) (by simp)
  | @settime p t millisec hp hms _ =>
      have hcall := canCall_idle hp
      have hsame : Function.update S.call p .idle = S.call := by
        rw [← hcall, Function.update_eq_self]
      have hdata : Trans S (.settime p (some t) millisec) ({ S with svc := S.svc.setTimer t fun n =>
          { n with type := (S.svc.timer t).type, millisec := millisec } }.setCall p .idle)
          [.returned p (.code 0)] :=
        .data (idle_not_waking hcall) hms.le (.inl rfl) (by simp)
      simp only [System.setCall, hsame] at hdata
      exact hdata
  | delRefused hp => exact .unchanged (idle_not_waking (canCall_idle hp)) (by simp)
  | delWaits hp hin harmed hth hwait =>
      exact .quiet (idle_not_waking (canCall_idle hp)) (.deleting hin harmed hth hwait) (by simp)
  | @del p t hp hin hgo => exact .delete (.direct rfl hp hin hgo) (State.timerDelete_deleted h.wf t)
  | @delStillWaits p _ _ _ hcall _ => exact .unchanged (p := p) (by simp [hcall]) (by simp)
  | @delWake p t th reg hcall hgo => exact .delete (.resumed rfl hcall hgo) (State.timerDelete_deleted h.wf t)
  | wakeup hcall => exact .wakeup hcall
  | @look th now hpc => exact .look hpc (serve_served S th now)
  | invoke hpc => exact .invoke hpc
  | @finish th _ _ now hpc hcall => exact .finish hpc hcall (serve_served _ th now)
  | wake hpc => exact .wake hpc
  | exit => cases hret

theorem Trans.inv {S S' : System} {a : Action} {ev : List Event} (h : S.Inv) (ht : Trans S a S' ev) : S'.Inv := by
  cases ht with
  | @quiet p c _ hold hc hev =>
      refine ⟨h.wf, System.setCall_ok h.calls ?_⟩
      cases hc with
      | idle => trivial
      | same => exact h.calls p
      | starting hits => exact hits
      | deleting => trivial
  | data hold hms hc hev =>
      refine ⟨State.setTimer_data_wf h.wf _ hms, System.setCall_ok h.calls ?_⟩
      rcases hc with rfl | ⟨args, rfl, hargs⟩
      · trivial
      · exact hargs
  | created hcall hms hreg hsafe hc => exact ⟨hc.wf h.wf hsafe, System.setCall_ok h.calls hms⟩
  | notCreated hcall hreg hsafe hc => exact ⟨hc.wf h.wf hsafe, h.calls⟩
  | @settime p t abstime its now ret r hold hits hs =>
      obtain ⟨svc, code, wake⟩ := r
      have hwf := hs.wf h.wf hits
      cases wake with
      | none => exact ⟨hwf, System.setCall_ok h.calls trivial⟩
      | some th => exact ⟨hwf, System.setCall_ok h.calls trivial⟩
  | delete hd hsvc => exact ⟨hsvc.wf h.wf, System.setCall_ok h.calls trivial⟩
  | @wakeup p th ret hcall =>
      refine ⟨by simpa using h.wf, System.setCall_ok ?_ trivial⟩
      rw [System.broadcast_call]
      exact h.calls
  | look hpc hs =>
      obtain ⟨hwf, hcalls⟩ := hs.inv_svc h.wf
      exact ⟨hwf, hcalls ▸ h.calls⟩
  | invoke hpc => exact ⟨h.wf, h.calls⟩
  | @finish th t reg now S' ev hpc hcall hs =>
      obtain ⟨hwf, hcalls⟩ := hs.inv_svc (State.expireDone_wf h.wf th)
      exact ⟨hwf, hcalls ▸ h.calls⟩
  | wake hpc => exact ⟨h.wf, h.calls⟩

theorem exit_inv {S S' : System} {th : ThreadId} {created : Bool} {ev : List Event} (h : S.Inv)
    (hsafe : (Action.exit th created).Safe S) (hstep : S.step (.exit th created) = some (S', ev)) :
    S'.Inv := by
  cases step_stepped hstep with
  | exit => exact ⟨State.threadCleanup_wf h.wf hsafe _, System.setCall_ok h.calls trivial⟩

theorem step_inv {S S' : System} {a : Action} {ev : List Event} (h : S.Inv) (hsafe : a.Safe S)
    (hstep : S.step a = some (S', ev)) : S'.Inv := by
  cases hret : a.returns with
  | true => exact (step_trans h hsafe hret hstep).inv h
  | false =>
      cases a with
      | exit th created => exact exit_inv h hsafe hstep
      | _ => cases hret

/-! ### Whole runs -/

theorem initModule_wf : initModule.Wf where
  running := rfl
  freeNodup := by
    simp only [initModule]
    exact List.nodup_finRange timerMax
  freeIff := fun t => by
    simp only [initModule, zeroTimerNode]
    exact iff_of_true (List.mem_finRange t) trivial
  refOk := fun _ => rfl
  dataOk := fun _ => ⟨zeroTimespec_normal, le_rfl, le_rfl⟩
  queueNodup := fun _ => List.nodup_nil
  sorted := fun _ => List.Pairwise.nil
  queued := fun th t ht => by simp [State.queue, initModule, zeroThreadNode] at ht
  placed := fun t ht => by simp [initModule, zeroTimerNode] at ht
  dequeued := fun t th ht => by simp [initModule, zeroTimerNode] at ht
  threadNodup := by
    simp only [initModule, List.append_nil]
    exact List.nodup_finRange threadMaxnodes

theorem init_inv : System.init.Inv := ⟨initModule_wf, fun _ => trivial⟩

theorem safe_run_inv {tr : List Event} {S : System}
    (h : Steps service (fun S a => a.Safe S) service.init tr S) : S.Inv :=
  h.invariant (fun _ _ _ _ hinv hsafe hstep => step_inv hinv hsafe hstep) init_inv

/-- While every active node has its thread, only a fresh node is ever given back. -/
theorem State.Alive.createSafe {s : State} (h : s.Alive) (attr : Attr) (clock : ClockId) (created : Bool) :
    s.CreateSafe attr clock created := by
  intro _ _ th hfind hflag
  have halive := h th (List.mem_of_find?_eq_some hfind)
  rw [hflag] at halive
  cases halive

theorem State.Alive.safe {S : System} (h : S.svc.Alive) {a : Action} (hret : a.returns = true) :
    a.Safe S := by
  cases a with
  | add p args created => exact h.createSafe args.attr .monotonic created
  | exit => cases hret
  | _ => trivial

theorem State.expireTimer_alive {s : State} (ha : s.Alive) (th : ThreadId) (t : TimerId) (now : Timespec) :
    (s.expireTimer th t now).Alive := by
  rw [State.expireTimer_eq_move]
  exact State.setThread_alive ((SameThreads.move s t _ _).alive ha) rfl

theorem Served.alive {S S' : System} {th : ThreadId} {now : ClockReading} {ev : List Event}
    (h : S.svc.Alive) (hs : Served S th now (S', ev)) : S'.svc.Alive := by
  cases hs with
  | empty => exact h
  | early => exact h
  | @due t rest hq hdue => exact State.expireTimer_alive h th t now

theorem Trans.alive {S S' : System} {a : Action} {ev : List Event} (h : S.Inv) (ha : S.svc.Alive)
    (ht : Trans S a S' ev) : S'.svc.Alive := by
  cases ht with
  | quiet => exact ha
  | data => exact ha
  | created _ _ _ _ hc => exact (hc.recruited h.wf ha).alive ha
  | notCreated _ _ _ hc => exact (hc.recruited h.wf ha).alive ha
  | settime _ _ hs =>
      rw [System.settimeDone_svc]
      exact hs.sameThreads.alive ha
  | delete _ hsvc => exact hsvc.sameThreads.alive ha
  | wakeup => simpa using ha
  | look _ hs => exact hs.alive ha
  | invoke => exact ha
  | finish _ _ hs => exact hs.alive (State.setThread_alive ha rfl)
  | wake => exact ha

/-- Without thread deaths the invariant holds throughout, and a property of the history that every
effect preserves holds with it. -/
theorem run_rule {ok : System → Action → Prop} (hok : ∀ S a, ok S a → a.returns = true)
    {I : List Event → System → Prop} (h0 : I [] System.init)
    (hs : ∀ tr S a S' ev, S.Inv → S.svc.Alive → I tr S → ok S a → Trans S a S' ev → I (tr ++ ev) S')
    {tr : List Event} {S : System} (h : Steps service ok service.init tr S) : S.Inv ∧ I tr S := by
  have key : (S.Inv ∧ S.svc.Alive) ∧ I tr S := by
    refine h.trace_invariant (I := fun tr S => (S.Inv ∧ S.svc.Alive) ∧ I tr S)
      ⟨⟨init_inv, fun x hx => by cases hx⟩, h0⟩ ?_
    rintro tr S a S' ev ⟨⟨hinv, halive⟩, hI⟩ hguard hstep
    have hret := hok S a hguard
    have ht := step_trans hinv (halive.safe hret) hret hstep
    exact ⟨⟨ht.inv hinv, ht.alive hinv halive⟩, hs tr S a S' ev hinv halive hI hguard ht⟩
  exact ⟨key.1.1, key.2⟩

abbrev Returns : System → Action → Prop := fun _ a => a.returns = true

theorem run_inv {tr : List Event} {S : System} (h : Steps service Returns service.init tr S) : S.Inv :=
  (run_rule (I := fun _ _ => True) (fun _ _ => id) trivial (fun _ _ _ _ _ _ _ _ _ _ => trivial) h).1

end Pc02.Timer

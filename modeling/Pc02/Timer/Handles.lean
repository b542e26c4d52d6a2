import Mathlib.Data.List.AList
import Pc02.Lib.Ownership
import Pc02.Timer.Change
import Pc02.Timer.OsCalls

/-!
# Timer handles

What the program is given for a timer is a block that holds the id. `osal_timer_create` allocates the
block once the timer is added, `osal_timer_delete` frees it once the timer is deleted, and each of the
other functions reads the id from the block and passes it to one call of the timer service or to
several in a row. Here the calls of any number of threads and handlers are interleaved with the sections of the
service. Those who do not use a handle while it is deleted, or after, always succeed: the handles and the
calls of `osal_timer_create` in progress own the slots in use, one each.
-/

namespace Pc02.Timer

open Function Machines Pc02.Lib

def osalStatusEmpty : Int := -5

inductive OsalCall
  | delete
  | start
  | stop
  | reset
  | change (millisec : Int)
deriving DecidableEq, Repr

namespace OsalCall

def body : OsalCall → List OsCall
  | .delete => [.del]
  | .start => [.start]
  | .stop => [.stop]
  | .reset => [.start]
  | .change millisec => [.stop, .settime millisec, .start]

/-- `osal_timer_change` alone does not check its handle. -/
def checksNull : OsalCall → Bool
  | .change _ => false
  | _ => true

end OsalCall

/-- What a thread does in `osal_timer.c`: the calls it has still to make or to finish, and what the ones
before returned. -/
inductive Doing
  | creating
  | calling (c : OsalCall) (timer : Nat) (timerid : TimerId) (todo : List OsCall) (ret : BitVec 32)
deriving DecidableEq

inductive OsalEvent
  | created (p : Pthread) (timer : Option Nat)
  | returned (p : Pthread) (c : OsalCall) (timer : Option Nat) (status : Int)
deriving DecidableEq

inductive OsalAction
  | create (p : Pthread) (args : AddArgs) (created : Bool)
  | enter (p : Pthread) (c : OsalCall) (timer : Option Nat)
  | next (p : Pthread) (now : ClockReading)
  | service (a : Action)

structure Osal where
  sys : System
  handle : Nat → Option TimerId
  nextBlock : Nat
  doing : AList fun _ : Pthread => Doing

def Ret.value : Ret → BitVec 32
  | .added _ => 0#32
  | .code ret => BitVec.ofInt 32 ret

namespace Osal

def init : Osal := ⟨System.init, fun _ => none, 0, ∅⟩

/-- `malloc` of the block and `*ptimerid = timerid`. -/
def malloc (P : Osal) (timerid : TimerId) : Osal :=
  { P with
    handle := update P.handle P.nextBlock (some timerid)
    nextBlock := P.nextBlock + 1 }

def free (P : Osal) (timer : Nat) : Osal := { P with handle := update P.handle timer none }

def leave (P : Osal) (p : Pthread) : Osal := { P with doing := P.doing.erase p }

def enter (P : Osal) (p : Pthread) (d : Doing) : Osal := { P with doing := P.doing.insert p d }

def done (P : Osal) (p : Pthread) (c : OsalCall) (timer : Nat) (ret : BitVec 32) : Osal × List OsalEvent :=
  ((if c = .delete then P.free timer else P).leave p,
    [.returned p c (some timer) (if ret = 0#32 then osalStatusSuccess else osalStatusErrorUndefined)])

def answer (P : Osal) : Event → Osal × List OsalEvent
  | .returned p ret =>
      match P.doing.lookup p with
      | some .creating =>
          match ret with
          | .added timerid => ((P.malloc timerid).leave p, [.created p (some P.nextBlock)])
          | .code _ => (P.leave p, [.created p none])
      | some (.calling c timer timerid (_ :: todo) before) =>
          if todo = [] then P.done p c timer (before ||| ret.value)
          else (P.enter p (.calling c timer timerid todo (before ||| ret.value)), [])
      | _ => (P, [])
  | _ => (P, [])

def answers (P : Osal) : List Event → Osal × List OsalEvent
  | [] => (P, [])
  | e :: es => ((P.answer e).1.answers es |>.1, (P.answer e).2 ++ ((P.answer e).1.answers es).2)

/-- The sections that follow the first one of a call, and those of the service threads. A handler returns
or ends its thread only when it is in none of the functions. -/
def continues (P : Osal) : Action → Bool
  | .finish th => (P.doing.lookup (.service th)).isNone
  | .exit th _ => (P.doing.lookup (.service th)).isNone
  | a => !a.begins

def run (P : Osal) (a : Action) : Option (Osal × List OsalEvent) :=
  (P.sys.step a).map fun r => { P with sys := r.1 }.answers r.2

def step (P : Osal) : OsalAction → Option (Osal × List OsalEvent)
  | .create p args created =>
      if P.doing.lookup p = none then
        (P.enter p .creating).run (.add p { args with timerid := true } created)
      else none
  | .enter p c timer =>
      if P.sys.canCall p ∧ P.doing.lookup p = none then
        match timer with
        | none => if c.checksNull then some (P, [.returned p c none osalStatusEmpty]) else none
        | some timer => (P.handle timer).map fun timerid => (P.enter p (.calling c timer timerid c.body 0#32), [])
      else none
  | .next p now =>
      match P.doing.lookup p with
      | some (.calling _ _ timerid (call :: _) _) => P.run (call.action p timerid now)
      | _ => none
  | .service a => if P.continues a then P.run a else none

end Osal

def osalTimers : Machine Osal OsalAction OsalEvent := ⟨Osal.init, Osal.step⟩

def Doing.timer : Doing → Option Nat
  | .creating => none
  | .calling _ timer _ _ _ => some timer

def Doing.deletes : Doing → Bool
  | .calling .delete _ _ _ _ => true
  | _ => false

/-- Handlers return, and a handle is used neither while it is deleted nor after. -/
def Osal.Disciplined (P : Osal) : OsalAction → Prop
  | .enter _ c (some timer) => P.handle timer ≠ none ∧
      ∀ s ∈ P.doing.entries, s.2.timer = some timer → c ≠ .delete ∧ s.2.deletes = false
  | .service a => a.returns = true
  | _ => True

instance (P : Osal) (a : OsalAction) : Decidable (P.Disciplined a) :=
  match a with
  | .create .. => .isTrue trivial
  | .enter _ _ none => .isTrue trivial
  | .enter _ c (some timer) => inferInstanceAs (Decidable (P.handle timer ≠ none ∧
      ∀ s ∈ P.doing.entries, s.2.timer = some timer → c ≠ .delete ∧ s.2.deletes = false))
  | .next .. => .isTrue trivial
  | .service a => inferInstanceAs (Decidable (a.returns = true))

/-! ### The invariant -/

inductive Owner
  | handle (timer : Nat)
  | maker (p : Pthread)
deriving DecidableEq

/-- What the calls returned, or'ed together. -/
def returnCodes (before : List OsCall) : BitVec 32 :=
  before.foldl (fun ret c => ret ||| BitVec.ofInt 32 c.code) 0#32

/-- What one of the functions returns for a timer in use: only a period that is not positive is refused. -/
def OsalCall.status : OsalCall → Int
  | .change millisec => if millisec ≤ 0 then osalStatusErrorUndefined else osalStatusSuccess
  | _ => osalStatusSuccess

def OsalEvent.Ok : OsalEvent → Prop
  | .created .. => True
  | .returned _ c timer status => status = if timer = none then osalStatusEmpty else c.status

section Bodies

variable {c : OsalCall} {before todo : List OsCall} {call : OsCall}

theorem body_del (hbody : c.body = before ++ call :: todo) : call = .del ↔ c = .delete := by
  have hmem : call ∈ c.body := by simp [hbody]
  cases c <;> simp only [OsalCall.body, List.mem_cons, List.not_mem_nil, or_false] at hmem <;> grind

theorem delete_body (hbody : OsalCall.delete.body = before ++ call :: todo) : todo = [] := by
  have hlen := congrArg List.length hbody
  simp only [OsalCall.body, List.length_cons, List.length_nil, List.length_append] at hlen
  exact List.length_eq_zero_iff.mp (by omega)

theorem returnCodes_concat : returnCodes before ||| (Ret.code call.code).value = returnCodes (before ++ [call]) := by
  simp [returnCodes, Ret.value]

theorem status_eq (c : OsalCall) :
    (if returnCodes c.body = 0#32 then osalStatusSuccess else osalStatusErrorUndefined) = c.status := by
  cases c with
  | change millisec =>
      by_cases hle : millisec ≤ 0
      · simp [returnCodes, OsalCall.body, OsCall.code, OsalCall.status, hle]
      · simp [returnCodes, OsalCall.body, OsCall.code, OsalCall.status, hle]
  | _ => rfl

end Bodies

theorem OsCall.At.not_adding {c : OsCall} {timerid : TimerId} {call : Call} (h : c.At timerid call) (args : AddArgs)
    (t : TimerId) : call ≠ .adding args t := by
  cases h <;> simp

namespace Osal

/-- A timer belongs to the call that creates it, and then to the handle. -/
def owns (P : Osal) : Owner → Option TimerId
  | .handle timer => P.handle timer
  | .maker p => if P.doing.lookup p = some .creating then (P.sys.call p).newTimer else none

inductive Agrees (P : Osal) (p : Pthread) : Doing → Prop
  | creating {t : TimerId} : (P.sys.call p).newTimer = some t → Agrees P p .creating
  | calling {c : OsalCall} {timer : Nat} {timerid : TimerId} {before : List OsCall} {call : OsCall} {todo : List OsCall} :
      P.handle timer = some timerid → c.body = before ++ call :: todo → call.At timerid (P.sys.call p) →
      Agrees P p (.calling c timer timerid (call :: todo) (returnCodes before))

structure Inv (P : Osal) : Prop where
  sys : P.sys.Inv
  alive : P.sys.svc.Alive
  kept : ∀ t, (P.sys.svc.timer t).inuse ≠ .deleted
  fresh : ∀ timer, P.handle timer ≠ none → timer < P.nextBlock
  owned : Owned P.sys.InUse P.owns
  idle : ∀ p, P.doing.lookup p = none → P.sys.call p = .idle
  agrees : ∀ p d, P.doing.lookup p = some d → P.Agrees p d
  alone : ∀ p q d d' timer, P.doing.lookup p = some d → P.doing.lookup q = some d' → d.timer = some timer →
    d'.timer = some timer → d.deletes = true → q = p

section Frame

variable {P P' : Osal} {p q : Pthread} {d : Doing}

structure Elsewhere (q : Pthread) (P P' : Osal) : Prop where
  call : ∀ r, r ≠ q → P'.sys.call r = P.sys.call r
  doing : ∀ r, r ≠ q → P'.doing.lookup r = P.doing.lookup r
  handle : ∀ r, r ≠ q → ∀ d timer, P.doing.lookup r = some d → d.timer = some timer → P'.handle timer = P.handle timer

theorem Agrees.elsewhere (h : P.Agrees p d) (hcall : P'.sys.call p = P.sys.call p)
    (hhandle : ∀ timer, d.timer = some timer → P'.handle timer = P.handle timer) : P'.Agrees p d := by
  cases h with
  | creating hnew => exact .creating (hcall ▸ hnew)
  | calling hhandle' hbody hat => exact .calling ((hhandle _ rfl).trans hhandle') hbody (hcall ▸ hat)

theorem Elsewhere.owns (h : Elsewhere q P P') (hp : p ≠ q) : P'.owns (.maker p) = P.owns (.maker p) := by
  rw [Osal.owns, Osal.owns, h.call p hp, h.doing p hp]

theorem Elsewhere.owns_eq (h : Elsewhere q P P') (hhandle : P'.handle = P.handle)
    (hq : P'.owns (.maker q) = P.owns (.maker q)) (o : Owner) : P'.owns o = P.owns o := by
  cases o with
  | handle timer => exact congrFun hhandle timer
  | maker p =>
      by_cases hp : p = q
      · exact hp ▸ hq
      · exact h.owns hp

/-- What one thread does is to be checked for that thread and for the slots. -/
theorem Inv.rebuild (h : P.Inv) (hsys : P'.sys.Inv) (halive : P'.sys.svc.Alive)
    (hkept : ∀ t, (P'.sys.svc.timer t).inuse ≠ .deleted) (helse : Elsewhere q P P')
    (hfresh : ∀ timer, P'.handle timer ≠ none → timer < P'.nextBlock) (howned : Owned P'.sys.InUse P'.owns)
    (hidle : P'.doing.lookup q = none → P'.sys.call q = .idle)
    (hagrees : ∀ d, P'.doing.lookup q = some d → P'.Agrees q d)
    (halone : ∀ d timer, P'.doing.lookup q = some d → d.timer = some timer →
      (∃ d₀, P.doing.lookup q = some d₀ ∧ d₀.timer = some timer ∧ d₀.deletes = d.deletes) ∨
      ∀ r d', P.doing.lookup r = some d' → d'.timer = some timer → d.deletes = false ∧ d'.deletes = false) :
    P'.Inv where
  sys := hsys
  alive := halive
  kept := hkept
  fresh := hfresh
  owned := howned
  idle := by
    intro p hp
    by_cases hpq : p = q
    · subst hpq
      exact hidle hp
    · rw [helse.doing p hpq] at hp
      exact (helse.call p hpq).trans (h.idle p hp)
  agrees := by
    intro p d hp
    by_cases hpq : p = q
    · subst hpq
      exact hagrees d hp
    · rw [helse.doing p hpq] at hp
      exact (h.agrees p d hp).elsewhere (helse.call p hpq) fun timer => helse.handle p hpq d timer hp
  alone := by
    intro p r d d' timer hp hr hd hd' hdel
    by_cases hpq : p = q
    · by_cases hrq : r = q
      · exact hrq.trans hpq.symm
      · subst hpq
        rw [helse.doing r hrq] at hr
        rcases halone d timer hp hd with ⟨d₀, h₀, ht₀, hdel₀⟩ | hnew
        · exact h.alone p r d₀ d' timer h₀ hr ht₀ hd' (hdel₀.trans hdel)
        · rw [(hnew r d' hr hd').1] at hdel
          cases hdel
    · rw [helse.doing p hpq] at hp
      by_cases hrq : r = q
      · subst hrq
        rcases halone d' timer hr hd' with ⟨d₀, h₀, ht₀, -⟩ | hnew
        · exact h.alone p r d d₀ timer hp h₀ hd ht₀ hdel
        · rw [(hnew p d hp hd).2] at hdel
          cases hdel
      · rw [helse.doing r hrq] at hr
        exact h.alone p r d d' timer hp hr hd hd' hdel

end Frame

section Steps

variable {P : Osal} {S' : System} {q : Pthread} {a : Action} {ev pre : List Event}

def Good (r : Osal × List OsalEvent) : Prop := r.1.Inv ∧ ∀ e ∈ r.2, e.Ok

theorem answers_silent (h : Silent ev) : P.answers ev = (P, []) := by
  induction ev with
  | nil => rfl
  | cons e es ih =>
      have hes : Silent es := fun p ret hmem => h p ret (List.mem_cons_of_mem e hmem)
      cases e with
      | returned p ret => exact absurd List.mem_cons_self (h p ret)
      | _ => simp [answers, answer, ih hes]

theorem answers_returned (h : Silent pre) (p : Pthread) (ret : Ret) :
    P.answers (pre ++ [.returned p ret]) = P.answer (.returned p ret) := by
  induction pre with
  | nil => simp [answers]
  | cons e es ih =>
      have hes : Silent es := fun p ret hmem => h p ret (List.mem_cons_of_mem e hmem)
      cases e with
      | returned p ret => exact absurd List.mem_cons_self (h p ret)
      | _ => simp [answers, answer, ih hes]

theorem Inv.inUse (h : P.Inv) {timer : Nat} {t : TimerId} (hhandle : P.handle timer = some t) : P.sys.InUse t :=
  h.owned.used_of_owns (show P.owns (.handle timer) = some t from hhandle)

theorem Inv.stillValid (h : P.Inv) (hret : a.returns = true) : a.stillValid P.sys = true := by
  cases a with
  | delWake p =>
      cases hcall : P.sys.call p with
      | deleting t th reg =>
          have hvalid : P.sys.svc.timerValid t = true := by
            cases hp : P.doing.lookup p with
            | none => cases hcall.symm.trans (h.idle p hp)
            | some d =>
                cases h.agrees p d hp with
                | creating hnew =>
                    rw [hcall] at hnew
                    cases hnew
                | @calling _ timer _ _ _ _ hhandle _ hat =>
                    rw [hcall] at hat
                    cases hat
                    exact decide_eq_true (h.inUse hhandle)
          simp [Action.stillValid, Action.returns, hcall, hvalid]
      | _ => simp [Action.stillValid, Action.returns, hcall]
  | exit => cases hret
  | _ => rfl

theorem Inv.trans (h : P.Inv) (hret : a.returns = true) (hstep : P.sys.step a = some (S', ev)) : Trans P.sys a S' ev :=
  step_trans h.sys (h.alive.safe hret) hret hstep

theorem Inv.service (h : P.Inv) (hret : a.returns = true) (hstep : P.sys.step a = some (S', ev)) {P' : Osal}
    (hS' : P'.sys = S') (helse : Elsewhere q P P') (hfresh : ∀ timer, P'.handle timer ≠ none → timer < P'.nextBlock)
    (howned : Owned P'.sys.InUse P'.owns) (hidle : P'.doing.lookup q = none → P'.sys.call q = .idle)
    (hagrees : ∀ d, P'.doing.lookup q = some d → P'.Agrees q d)
    (hold : ∀ d timer, P'.doing.lookup q = some d → d.timer = some timer →
      ∃ d₀, P.doing.lookup q = some d₀ ∧ d₀.timer = some timer ∧ d₀.deletes = d.deletes) : P'.Inv := by
  have ht := h.trans hret hstep
  subst hS'
  exact h.rebuild (ht.inv h.sys) (ht.alive h.sys h.alive) (ht.not_deleted h.sys (h.stillValid hret) h.kept) helse hfresh
    howned hidle hagrees fun d timer hd htimer => .inl (hold d timer hd htimer)

theorem Inv.departs (h : P.Inv) (hret : a.returns = true) (hstep : P.sys.step a = some (S', ev)) {P' : Osal}
    (hS' : P'.sys = S') (helse : Elsewhere q P P') (hgone : P'.doing.lookup q = none) (hidle : P'.sys.call q = .idle)
    (hfresh : ∀ timer, P'.handle timer ≠ none → timer < P'.nextBlock) (howned : Owned P'.sys.InUse P'.owns) : P'.Inv := by
  refine h.service hret hstep hS' helse hfresh howned (fun _ => hidle) ?_ ?_
  · intro d hd
    cases hgone.symm.trans hd
  · intro d timer hd
    cases hgone.symm.trans hd

theorem Inv.slots (h : P.Inv) (hret : a.returns = true) (hcaller : ∀ r, a.caller = some r → r = q)
    (hq : P.sys.call q = .idle → ∀ args t, S'.call q ≠ .adding args t) (hstep : P.sys.step a = some (S', ev)) (t : TimerId) :
    S'.InUse t ↔ P.sys.InUse t ∧ ¬ Released ev t := by
  rcases (h.trans hret hstep).slots h.sys with hslots | ⟨r, args, u, hidle, hadding, -⟩
  · exact hslots t
  · by_cases hr : r = q
    · subst hr
      exact absurd hadding (hq hidle args u)
    · have hother : a.caller ≠ some r := fun heq => hr (hcaller r heq)
      rw [step_other hret hother hstep, hidle] at hadding
      cases hadding

theorem elsewhere_of_step (hret : a.returns = true) (hcaller : ∀ r, a.caller = some r → r = q)
    (hstep : P.sys.step a = some (S', ev)) {P' : Osal} (hS' : P'.sys = S')
    (hdoing : ∀ r, r ≠ q → P'.doing.lookup r = P.doing.lookup r)
    (hhandle : ∀ r, r ≠ q → ∀ d timer, P.doing.lookup r = some d → d.timer = some timer → P'.handle timer = P.handle timer) :
    Elsewhere q P P' where
  call := by
    intro r hr
    rw [hS']
    exact step_other hret (fun heq => hr (hcaller r heq)) hstep
  doing := hdoing
  handle := hhandle

theorem Inv.goesOn (h : P.Inv) (hret : a.returns = true) (hcaller : ∀ r, a.caller = some r → r = q)
    (hstep : P.sys.step a = some (S', ev)) (hnone : ∀ u, ¬ Released ev u)
    (hq : P.sys.call q = .idle → ∀ args t, S'.call q ≠ .adding args t)
    (hidle : P.doing.lookup q = none → S'.call q = .idle)
    (hagrees : ∀ d, P.doing.lookup q = some d → { P with sys := S' }.Agrees q d)
    (hnew : P.doing.lookup q = some .creating → (S'.call q).newTimer = (P.sys.call q).newTimer) :
    { P with sys := S' }.Inv := by
  have helse : Elsewhere q P { P with sys := S' } :=
    elsewhere_of_step hret hcaller hstep rfl (fun _ _ => rfl) fun _ _ _ _ _ _ => rfl
  refine h.service hret hstep rfl helse h.fresh ?_ hidle hagrees ?_
  · apply h.owned.congr
    · intro u
      rw [h.slots hret hcaller hq hstep u, and_iff_left (hnone u)]
    · apply helse.owns_eq rfl
      by_cases hq : P.doing.lookup q = some .creating
      · simp [owns, hq, hnew hq]
      · simp [owns, hq]
  · intro d timer hd htimer
    exact ⟨d, hd, htimer, rfl⟩

theorem Inv.creating (h : P.Inv) (hret : a.returns = true) (hcaller : a.caller = some q)
    (hq : P.doing.lookup q = some .creating) (ha : a.Continues q) (hstep : P.sys.step a = some (S', ev)) :
    Good ({ P with sys := S' }.answers ev) := by
  obtain ⟨t, hnew⟩ : ∃ t, (P.sys.call q).newTimer = some t := by
    cases h.agrees q _ hq with
    | creating hnew => exact ⟨_, hnew⟩
  have howns : P.owns (.maker q) = some t := by simp [owns, hq, hnew]
  have hcaller' (r : Pthread) (hr : a.caller = some r) : r = q := Option.some.inj (hr.symm.trans hcaller)
  have hbusy (hidle : P.sys.call q = .idle) (args : AddArgs) (u : TimerId) : S'.call q ≠ .adding args u := by
    rw [hidle] at hnew
    cases hnew
  cases create_continues h.sys hnew (h.owned.used_of_owns howns) ha hstep with
  | goesOn hsilent hnone hnew' =>
      rw [answers_silent hsilent]
      refine ⟨h.goesOn hret hcaller' hstep hnone hbusy ?_ ?_ ?_, by simp⟩
      · intro hlookup
        cases hq.symm.trans hlookup
      · intro d hd
        obtain rfl : .creating = d := Option.some.inj (hq.symm.trans hd)
        exact .creating hnew'
      · exact fun _ => hnew'.trans hnew.symm
  | returns hsilent hev hgone hidle =>
      have hfresh : P.handle P.nextBlock = none := by
        by_contra hsome
        exact lt_irrefl _ (h.fresh _ hsome)
      subst hev
      rw [answers_returned hsilent]
      simp only [answer, hq]
      have helse : Elsewhere q P (({ P with sys := S' }.malloc t).leave q) := by
        refine elsewhere_of_step hret hcaller' hstep rfl ?_ ?_
        · intro r hr
          exact AList.lookup_erase_ne hr
        · intro r hr d timer hd htimer
          refine Function.update_of_ne ?_ _ _
          rintro rfl
          cases h.agrees r d hd with
          | creating => cases htimer
          | calling hhandle =>
              cases htimer
              cases hfresh.symm.trans hhandle
      refine ⟨h.departs hret hstep rfl helse (AList.lookup_erase q P.doing) hidle ?_ ?_, by simp [OsalEvent.Ok]⟩
      · intro timer htimer
        by_cases hnext : timer = P.nextBlock
        · exact hnext ▸ Nat.lt_succ_self _
        · simp only [leave, malloc, Function.update_of_ne hnext] at htimer
          exact Nat.lt_succ_of_lt (h.fresh timer htimer)
      · refine h.owned.transfer howns (show P.owns (.handle P.nextBlock) = none from hfresh) ?_ ?_
        · intro u
          exact (h.slots hret hcaller' hbusy hstep u).trans (and_iff_left ((hgone u).not.mpr not_false))
        · intro o
          cases o with
          | handle timer =>
              by_cases hnext : timer = P.nextBlock
              · subst hnext
                simp [owns, leave, malloc]
              · simp [owns, leave, malloc, hnext, Function.update_of_ne]
          | maker r =>
              by_cases hr : r = q
              · subst hr
                simp [owns, leave]
              · simp [helse.owns hr, hr, Function.update_of_ne]

section Returns

variable {c : OsalCall} {timer : Nat} {timerid : TimerId} {call : OsCall} {before todo : List OsCall} {ret : BitVec 32}

theorem Inv.advances (h : P.Inv) (hret : a.returns = true) (hcaller : ∀ r, a.caller = some r → r = q)
    (hstep : P.sys.step a = some (S', ev)) (hq : P.doing.lookup q = some (.calling c timer timerid (call :: todo) ret))
    (hhandle : P.handle timer = some timerid) (hbody : c.body = before ++ call :: todo) (htodo : todo ≠ [])
    (hidle : S'.call q = .idle) (hslots : ∀ u, S'.InUse u ↔ P.sys.InUse u) :
    ({ P with sys := S' }.enter q (.calling c timer timerid todo (returnCodes (before ++ [call])))).Inv := by
  have helse : Elsewhere q P ({ P with sys := S' }.enter q (.calling c timer timerid todo (returnCodes (before ++ [call])))) :=
    elsewhere_of_step hret hcaller hstep rfl (fun r hr => AList.lookup_insert_ne hr) fun _ _ _ _ _ _ => rfl
  refine h.service hret hstep rfl helse h.fresh ?_ ?_ ?_ ?_
  · exact h.owned.congr hslots (helse.owns_eq rfl (by simp [owns, enter, hq]))
  · intro hlookup
    rw [enter, AList.lookup_insert] at hlookup
    cases hlookup
  · intro d hd
    rw [enter, AList.lookup_insert] at hd
    cases hd
    cases todo with
    | nil => exact absurd rfl htodo
    | cons next todo => exact .calling hhandle (by simp [hbody]) (by simpa [enter, hidle] using .between)
  · intro d timer' hd htimer
    rw [enter, AList.lookup_insert] at hd
    cases hd
    refine ⟨_, hq, htimer, ?_⟩
    cases c <;> rfl

theorem Inv.leaves (h : P.Inv) (hret : a.returns = true) (hcaller : ∀ r, a.caller = some r → r = q)
    (hstep : P.sys.step a = some (S', ev)) (hq : P.doing.lookup q = some (.calling c timer timerid (call :: todo) ret))
    (hidle : S'.call q = .idle) (hslots : ∀ u, S'.InUse u ↔ P.sys.InUse u) : ({ P with sys := S' }.leave q).Inv := by
  have helse : Elsewhere q P ({ P with sys := S' }.leave q) :=
    elsewhere_of_step hret hcaller hstep rfl (fun r hr => AList.lookup_erase_ne hr) fun _ _ _ _ _ _ => rfl
  apply h.departs hret hstep rfl helse (AList.lookup_erase q P.doing) hidle h.fresh
  exact h.owned.congr hslots (helse.owns_eq rfl (by simp [owns, leave, hq]))

theorem Inv.frees (h : P.Inv) (hret : a.returns = true) (hcaller : ∀ r, a.caller = some r → r = q)
    (hstep : P.sys.step a = some (S', ev))
    (hq : P.doing.lookup q = some (.calling .delete timer timerid (call :: todo) ret))
    (hhandle : P.handle timer = some timerid) (hidle : S'.call q = .idle)
    (hslots : ∀ u, S'.InUse u ↔ P.sys.InUse u ∧ u ≠ timerid) : (({ P with sys := S' }.free timer).leave q).Inv := by
  have helse : Elsewhere q P (({ P with sys := S' }.free timer).leave q) := by
    refine elsewhere_of_step hret hcaller hstep rfl (fun r hr => AList.lookup_erase_ne hr) ?_
    intro r hr d timer' hd htimer
    refine Function.update_of_ne ?_ _ _
    rintro rfl
    exact hr (h.alone q r _ d _ hq hd rfl htimer rfl)
  refine h.departs hret hstep rfl helse (AList.lookup_erase q P.doing) hidle ?_ ?_
  · intro timer' htimer
    apply h.fresh
    intro hnone
    apply htimer
    by_cases heq : timer' = timer
    · simp [leave, free, heq]
    · simpa [leave, free, heq] using hnone
  · refine h.owned.release (o := .handle timer) hhandle hslots ?_
    intro o
    cases o with
    | handle timer' =>
        by_cases heq : timer' = timer
        · simp [owns, leave, free, heq]
        · simp [owns, leave, free, heq, Function.update_of_ne]
    | maker r =>
        rw [Function.update_of_ne (by simp)]
        by_cases hr : r = q
        · subst hr
          simp [owns, leave, hq]
        · exact helse.owns hr

theorem Inv.calling (h : P.Inv) (hret : a.returns = true) (hcaller : a.caller = some q)
    (hq : P.doing.lookup q = some (.calling c timer timerid (call :: todo) ret))
    (ha : a.Continues q ∨ ∃ now, a = call.action q timerid now) (hstep : P.sys.step a = some (S', ev)) :
    Good ({ P with sys := S' }.answers ev) := by
  have hcaller' (r : Pthread) (hr : a.caller = some r) : r = q := Option.some.inj (hr.symm.trans hcaller)
  cases h.agrees q _ hq with
  | @calling _ _ _ before _ _ hhandle hbody hat =>
      have hin := h.inUse hhandle
      have hans : Answered q (call.At timerid) (.code call.code) (fun u => call = .del ∧ u = timerid) (S'.call q) ev := by
        rcases ha with ha | ⟨now, rfl⟩
        · exact os_call_continues h.sys hin hat ha hstep
        · exact os_call_begins h.sys hin hstep
      have hbusy (_ : P.sys.call q = .idle) (args : AddArgs) (u : TimerId) : S'.call q ≠ .adding args u := by
        cases hans with
        | goesOn _ _ hat' => exact hat'.not_adding args u
        | returns _ _ _ hidle => simp [hidle]
      cases hans with
      | goesOn hsilent hnone hat' =>
          rw [answers_silent hsilent]
          refine ⟨h.goesOn hret hcaller' hstep hnone hbusy ?_ ?_ ?_, by simp⟩
          · intro hlookup
            cases hq.symm.trans hlookup
          · intro d hd
            obtain rfl := Option.some.inj (hq.symm.trans hd)
            exact .calling hhandle hbody hat'
          · intro hlookup
            cases hq.symm.trans hlookup
      | returns hsilent hev hgone hidle =>
          have hslots (u : TimerId) : S'.InUse u ↔ P.sys.InUse u ∧ ¬ (call = .del ∧ u = timerid) := by
            rw [h.slots hret hcaller' hbusy hstep u, hgone u]
          subst hev
          rw [answers_returned hsilent]
          simp only [answer, hq, returnCodes_concat]
          by_cases htodo : todo = []
          · subst htodo
            rw [if_pos rfl, done, ← hbody]
            refine ⟨?_, by simp [OsalEvent.Ok, status_eq]⟩
            by_cases hdelete : c = .delete
            · subst hdelete
              rw [if_pos rfl]
              exact h.frees hret hcaller' hstep hq hhandle hidle (by simpa [(body_del hbody).mpr rfl] using hslots)
            · rw [if_neg hdelete]
              exact h.leaves hret hcaller' hstep hq hidle (by simpa [mt (body_del hbody).mp hdelete] using hslots)
          · rw [if_neg htodo]
            have hcall : call ≠ .del := by
              intro heq
              obtain rfl := (body_del hbody).mp heq
              exact htodo (delete_body hbody)
            exact ⟨h.advances hret hcaller' hstep hq hhandle hbody htodo hidle (by simpa [hcall] using hslots), by simp⟩

end Returns

theorem Inv.creates (h : P.Inv) (hq : P.doing.lookup q = none) {args : AddArgs} {created : Bool}
    (hstep : P.sys.step (.add q args created) = some (S', ev)) :
    Good ({ P.enter q .creating with sys := S' }.answers ev) := by
  have hret : (Action.add q args created).returns = true := rfl
  have hcaller (r : Pthread) (hr : (Action.add q args created).caller = some r) : r = q := (Option.some.inj hr).symm
  have howns : P.owns (.maker q) = none := by simp [owns, hq]
  rcases create_begins h.sys h.alive hstep with ⟨rfl, hcall, hidle⟩ | ⟨rfl, t, hadding, hfree, hin⟩
  · have hadds (_ : P.sys.call q = .idle) (args : AddArgs) (t : TimerId) : S'.call q ≠ .adding args t := by
      rw [hcall, hidle]
      simp
    rw [← List.nil_append [Event.returned q _], answers_returned silent_nil]
    simp only [answer, enter, AList.lookup_insert]
    have helse : Elsewhere q P ({ P.enter q .creating with sys := S' }.leave q) := by
      refine elsewhere_of_step hret hcaller hstep rfl ?_ fun _ _ _ _ _ _ => rfl
      intro r hr
      exact (AList.lookup_erase_ne hr).trans (AList.lookup_insert_ne hr)
    refine ⟨h.departs hret hstep rfl helse (AList.lookup_erase q _) ((congrFun hcall q).trans hidle) h.fresh ?_,
      by simp [OsalEvent.Ok]⟩
    refine h.owned.congr ?_ (helse.owns_eq rfl ?_)
    · intro u
      refine (h.slots hret hcaller hadds hstep u).trans (and_iff_left ?_)
      simp [Released]
    · rw [howns]
      simp [owns, leave]
  · rw [answers_silent silent_nil]
    have hnew : (S'.call q).newTimer = some t := by rw [hadding, Call.newTimer]
    have helse : Elsewhere q P { P.enter q .creating with sys := S' } :=
      elsewhere_of_step hret hcaller hstep rfl (fun r hr => AList.lookup_insert_ne hr) fun _ _ _ _ _ _ => rfl
    refine ⟨h.service hret hstep rfl helse h.fresh ?_ ?_ ?_ ?_, by simp⟩
    · refine h.owned.grant hfree howns ?_ ?_
      · rcases (h.trans hret hstep).slots h.sys with hslots | ⟨r, args', u, hidle, hadding', hfree', hslots⟩
        · exact absurd ((hslots t).mp hin).1 hfree
        · obtain rfl : u = t := by
            by_contra hne
            exact hfree (((hslots t).mp hin).resolve_right (Ne.symm hne))
          exact hslots
      · intro o
        cases o with
        | handle => simp [owns, enter, Function.update_of_ne]
        | maker r =>
            by_cases hr : r = q
            · subst hr
              simp [owns, enter, hnew]
            · rw [helse.owns hr, Function.update_of_ne (by simp [hr])]
    · intro hlookup
      simp [enter] at hlookup
    · intro d hd
      simp only [enter, AList.lookup_insert, Option.some.injEq] at hd
      subst hd
      exact .creating hnew
    · intro d timer hd htimer
      simp only [enter, AList.lookup_insert, Option.some.injEq] at hd
      subst hd
      cases htimer

theorem Inv.enters (h : P.Inv) (hq : P.doing.lookup q = none) {c : OsalCall} {timer : Nat} {timerid : TimerId}
    (hok : ∀ s ∈ P.doing.entries, s.2.timer = some timer → c ≠ .delete ∧ s.2.deletes = false)
    (hhandle : P.handle timer = some timerid) : (P.enter q (.calling c timer timerid c.body 0#32)).Inv := by
  have helse : Elsewhere q P (P.enter q (.calling c timer timerid c.body 0#32)) :=
    ⟨fun _ _ => rfl, fun r hr => AList.lookup_insert_ne hr, fun _ _ _ _ _ _ => rfl⟩
  refine h.rebuild h.sys h.alive h.kept helse h.fresh ?_ ?_ ?_ ?_
  · exact h.owned.congr (fun _ => Iff.rfl) (helse.owns_eq rfl (by simp [owns, enter, hq]))
  · intro hlookup
    simp [enter] at hlookup
  · intro d hd
    simp only [enter, AList.lookup_insert, Option.some.injEq] at hd
    subst hd
    have hat (call : OsCall) : call.At timerid (P.sys.call q) := by
      rw [h.idle q hq]
      exact .between
    cases c <;> exact @Agrees.calling _ _ _ _ _ [] _ _ hhandle rfl (hat _)
  · intro d timer' hd htimer
    simp only [enter, AList.lookup_insert, Option.some.injEq] at hd
    subst hd
    cases htimer
    refine .inr fun r d' hr hd' => ?_
    obtain ⟨hne, hdel⟩ := hok ⟨r, d'⟩ (AList.mem_lookup_iff.mp hr) hd'
    refine ⟨?_, hdel⟩
    cases c <;> first | exact absurd rfl hne | rfl

theorem Inv.serves (h : P.Inv) (hret : a.returns = true) (hcaller : a.caller = none)
    (hstep : P.sys.step a = some (S', ev)) : Good ({ P with sys := S' }.answers ev) := by
  have hother (r : Pthread) : S'.call r = P.sys.call r := step_other hret (by simp [hcaller]) hstep
  obtain ⟨hsilent, hnone⟩ := service_silent hret hcaller hstep
  rw [answers_silent hsilent]
  refine ⟨h.goesOn (q := .client 0) hret (by simp [hcaller]) hstep hnone ?_ ?_ ?_ ?_, by simp⟩
  · intro hidle args t
    rw [hother, hidle]
    simp
  · intro hq
    rw [hother]
    exact h.idle _ hq
  · intro d hd
    exact (h.agrees _ d hd).elsewhere (hother _) fun _ _ => rfl
  · intro _
    rw [hother]

theorem continues_busy {S : System} {ev : List Event} (ha : a.Continues q) (hstep : S.step a = some (S', ev)) :
    S.call q ≠ .idle := by
  intro hidle
  cases ha <;> simp [System.step, hidle] at hstep

theorem run_eq_some {r : Osal × List OsalEvent} (hrun : P.run a = some r) :
    ∃ S' ev, P.sys.step a = some (S', ev) ∧ { P with sys := S' }.answers ev = r := by
  cases hstep : P.sys.step a with
  | none => simp [run, hstep] at hrun
  | some s =>
      refine ⟨s.1, s.2, rfl, ?_⟩
      simpa [run, hstep] using hrun

/-- The call that a thread has begun goes on, or a service thread does. -/
theorem Inv.continues (h : P.Inv) (hret : a.returns = true) (hcont : P.continues a = true) {r : Osal × List OsalEvent}
    (hrun : P.run a = some r) : Good r := by
  have hbegins : a.begins = false := by
    cases a <;> simp_all [Osal.continues, Action.begins]
  obtain ⟨S', ev, hstep, rfl⟩ := run_eq_some hrun
  cases hcaller : a.caller with
  | none => exact h.serves hret hcaller hstep
  | some q =>
      have ha := continues_of_caller hcaller hbegins
      cases hq : P.doing.lookup q with
      | none => exact absurd (h.idle q hq) (continues_busy ha hstep)
      | some d =>
          cases d with
          | creating => exact h.creating hret hcaller hq ha hstep
          | calling c timer timerid todo ret =>
              cases todo with
              | nil => cases h.agrees q _ hq
              | cons call todo => exact h.calling hret hcaller hq (.inl ha) hstep

theorem Inv.step {r : Osal × List OsalEvent} {act : OsalAction} (h : P.Inv) (hok : P.Disciplined act)
    (hstep : P.step act = some r) : Good r := by
  cases act with
  | create p args created =>
      simp only [Osal.step] at hstep
      split at hstep
      · rename_i hp
        obtain ⟨S', ev, hsys, rfl⟩ := run_eq_some hstep
        exact h.creates hp hsys
      · cases hstep
  | enter p c timer =>
      simp only [Osal.step] at hstep
      split at hstep
      · rename_i hp
        cases timer with
        | none =>
            simp only at hstep
            split at hstep
            · cases hstep
              exact ⟨h, by simp [OsalEvent.Ok]⟩
            · cases hstep
        | some timer =>
            obtain ⟨timerid, hhandle, rfl⟩ := Option.map_eq_some_iff.mp hstep
            exact ⟨h.enters hp.2 hok.2 hhandle, by simp⟩
      · cases hstep
  | next p now =>
      simp only [Osal.step] at hstep
      split at hstep
      · rename_i c timer timerid call todo ret hp
        obtain ⟨S', ev, hsys, rfl⟩ := run_eq_some hstep
        have hcaller : (call.action p timerid now).caller = some p := by cases call <;> rfl
        have hret : (call.action p timerid now).returns = true := by cases call <;> rfl
        exact h.calling hret hcaller hp (.inr ⟨now, rfl⟩) hsys
      · cases hstep
  | service a =>
      simp only [Osal.step] at hstep
      split at hstep
      · rename_i hcont
        exact h.continues hok hcont hstep
      · cases hstep

end Steps

theorem init_inv : Osal.init.Inv where
  sys := Timer.init_inv
  alive := fun th hth => (List.not_mem_nil hth).elim
  kept := nofun
  fresh := fun _ h => (h rfl).elim
  owned := by
    refine ⟨fun t => iff_of_false nofun ?_, ?_⟩
    · rintro ⟨o, ho⟩
      cases o <;> cases ho
    · intro o o' t ho
      cases o <;> cases ho
  idle := fun _ _ => rfl
  agrees := nofun
  alone := nofun

end Osal

/-- In every interleaving in which handlers return and no handle is used while or after it is deleted, the
slots that are not free belong to the handles and to the calls of `osal_timer_create` in progress, one each,
and every function on a handle succeeds, except that `osal_timer_change` reports a period that is not positive. -/
theorem handles_own_timers {tr : List OsalEvent} {P : Osal} (h : Steps osalTimers Osal.Disciplined osalTimers.init tr P) :
    (∀ t, (P.sys.svc.timer t).inuse ≠ .free ↔ ∃ o, P.owns o = some t) ∧
    (∀ o o' t, P.owns o = some t → P.owns o' = some t → o = o') ∧
    ∀ p c timer status, .returned p c timer status ∈ tr →
      status = if timer = none then osalStatusEmpty else c.status := by
  have hrun : P.Inv ∧ ∀ e ∈ tr, e.Ok := by
    refine h.trace_invariant (I := fun tr P => P.Inv ∧ ∀ e ∈ tr, e.Ok) ⟨Osal.init_inv, by simp⟩ ?_
    intro tr P a P' ev hP hok hstep
    obtain ⟨hinv, hev⟩ := hP.1.step hok hstep
    refine ⟨hinv, fun e he => ?_⟩
    rcases List.mem_append.mp he with he | he
    · exact hP.2 e he
    · exact hev e he
  obtain ⟨hinv, hev⟩ := hrun
  refine ⟨?_, hinv.owned.one, ?_⟩
  · intro t
    rw [← hinv.owned.used_iff]
    have hkept := hinv.kept t
    rw [System.InUse]
    cases hin : (P.sys.svc.timer t).inuse with
    | free => simp
    | inuse => simp
    | deleted => exact absurd hin hkept
  · intro p c timer status hmem
    exact hev _ hmem

def changedInHandler : List OsalAction :=
  [.create (.client 0) ⟨30, 1000, timerInterval ||| timerStopped, some 1, 0, true⟩ true,
    .service (.addInit (.client 0)), .service (.addArm (.client 0) (atSec 0)),
    .enter (.client 0) .start (some 0), .next (.client 0) (atSec 0), .service (.startArm (.client 0) (atSec 0)),
    .service (.wakeup (.client 0)), .service (.look 0 (atSec 1)), .service (.invoke 0),
    .enter (.service 0) (.change 0) (some 0), .next (.service 0) (atSec 1), .next (.service 0) (atSec 1),
    .next (.service 0) (atSec 1), .service (.startArm (.service 0) (atSec 1)), .service (.wakeup (.service 0)),
    .enter (.client 1) .delete (some 0), .next (.client 1) (atSec 1)]

/-- The handler of a timer asks for period zero, and is told so; meanwhile a delete of the timer waits for it. -/
theorem handles_own_timers_waiting : ∃ tr P, Steps osalTimers Osal.Disciplined osalTimers.init tr P ∧
    .returned (.service 0) (.change 0) (some 0) (OsalCall.change 0).status ∈ tr ∧
    P.sys.call (.client 1) = .deleting 0 0 1 ∧ (P.sys.svc.timer 0).inuse ≠ .free := by
  obtain ⟨P, tr, hrun, htest⟩ := exists_steps_of_exec (m := osalTimers) (s := osalTimers.init) changedInHandler
    (p := fun r => decide (.returned (.service 0) (.change 0) (some 0) (-1) ∈ r.2) && decide (r.1.handle 0 = some 0) &&
      decide (r.1.sys.call (.client 1) = .deleting 0 0 1))
    (show (osalTimers.exec Osal.Disciplined _ _).any _ = true by decide +kernel)
  simp only [Bool.and_eq_true, decide_eq_true_eq] at htest
  obtain ⟨⟨hmem, hhandle⟩, hcall⟩ := htest
  obtain ⟨howned, -, hstatus⟩ := handles_own_timers hrun
  refine ⟨tr, P, hrun, ?_, hcall, (howned 0).mpr ⟨.handle 0, hhandle⟩⟩
  have hcode : (-1 : Int) = (OsalCall.change 0).status := hstatus _ _ _ _ hmem
  exact hcode ▸ hmem

end Pc02.Timer

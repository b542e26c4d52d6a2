import Mathlib.Logic.Function.Basic
import Pc02.Lib.Machine

/-!
# The connection to the server

`eg_net_init` and `reconnect` open a socket and connect it, and `eg_tcp_send` sends or, where `net_state` is
zero, reconnects. The threads that call them share `sockfd` and `net_state`, and are interleaved between the
calls of the kernel. Nothing sets `net_state` back to one, and no socket is closed.
-/

namespace Pc02.Net

open Function Machines

/-- Where a thread is. The flag tells `eg_net_init` from `reconnect`. -/
inductive LinkPc
  | idle
  /-- `eg_tcp_send`, before `send`. -/
  | sending (data : List UInt8)
  /-- Before `socket`. -/
  | opening (init : Bool)
  /-- Before `connect`. -/
  | connecting (init : Bool)
deriving DecidableEq

/-- The global variables, the sockets that are open with whether each is connected, the number of threads in
`net_thread_entry`, and where each thread is. -/
structure Link where
  netState : Bool
  sockfd : Int
  socket : Nat → Option Bool
  receivers : Nat
  thread : Nat → LinkPc

inductive LinkAction
  | egNetInit (c : Nat)
  | egTcpSend (c : Nat) (data : List UInt8)
  /-- `socket` returns a descriptor, or fails. -/
  | socket (c : Nat) (fd : Option Nat)
  | connect (c : Nat) (ok : Bool)
  /-- `send` takes so many bytes, or fails. -/
  | send (c : Nat) (taken : Option Nat)

inductive LinkEvent
  | opened (fd : Nat)
  | connected (fd : Nat)
  /-- `connect` has failed. -/
  | failed
  | sent (c : Nat) (bytes : List UInt8)
  /-- `eg_tcp_send` returns. -/
  | returned (c : Nat) (ret : Int)
deriving DecidableEq

namespace Link

def init : Link := ⟨true, 0, fun _ => none, 0, fun _ => .idle⟩

def goto (l : Link) (c : Nat) (pc : LinkPc) : Link := { l with thread := update l.thread c pc }

def current (l : Link) : Option Bool := if 0 ≤ l.sockfd then l.socket l.sockfd.toNat else none

/-- `eg_tcp_send` does not look at what `reconnect` returns. -/
def reconnected (init : Bool) (c : Nat) : List LinkEvent := if init then [] else [.returned c (-2)]

/-- The address is a constant that `inet_pton` takes, so that step cannot fail. -/
def step (l : Link) : LinkAction → Option (Link × List LinkEvent)
  | .egNetInit c => if l.thread c = .idle then some (l.goto c (.opening true), []) else none
  | .egTcpSend c data =>
      if l.thread c = .idle then
        if l.netState = false then some (l.goto c (.opening false), []) else some (l.goto c (.sending data), [])
      else none
  | .socket c fd =>
      match l.thread c, fd with
      | .opening init, none => some ({ l with sockfd := -1 }.goto c .idle, reconnected init c)
      | .opening init, some fd =>
          if l.socket fd = none then
            some ({ l with sockfd := fd, socket := update l.socket fd (some false) }.goto c (.connecting init),
              [.opened fd])
          else none
      | _, _ => none
  | .connect c ok =>
      match l.thread c with
      | .connecting init =>
          if ok then
            if l.current = some false then
              some ({ l with
                  socket := update l.socket l.sockfd.toNat (some true)
                  receivers := if init then l.receivers + 1 else l.receivers }.goto c .idle,
                .connected l.sockfd.toNat :: reconnected init c)
            else none
          else some ({ l with netState := false }.goto c .idle, .failed :: reconnected init c)
      | _ => none
  | .send c taken =>
      match l.thread c, taken with
      | .sending _, none => some (l.goto c .idle, [.returned c (-1)])
      | .sending data, some n =>
          if l.current = some true ∧ n ≤ data.length then
            some (l.goto c .idle, [.sent c (data.take n), .returned c 1])
          else none
      | _, _ => none

end Link

def link : Machine Link LinkAction LinkEvent := ⟨Link.init, Link.step⟩

inductive LinkStepped (l : Link) : Link → List LinkEvent → Prop
  | enters {c : Nat} {pc : LinkPc} : (∀ data, pc = .sending data → l.netState = true) → LinkStepped l (l.goto c pc) []
  | unopened {c : Nat} {init : Bool} : LinkStepped l ({ l with sockfd := -1 }.goto c .idle) (Link.reconnected init c)
  | opens {c : Nat} {init : Bool} {fd : Nat} : l.socket fd = none →
      LinkStepped l ({ l with sockfd := fd, socket := update l.socket fd (some false) }.goto c (.connecting init))
        [.opened fd]
  | connects {c fd receivers : Nat} {init : Bool} : l.socket fd = some false →
      LinkStepped l ({ l with socket := update l.socket fd (some true), receivers := receivers }.goto c .idle)
        (.connected fd :: Link.reconnected init c)
  | fails {c : Nat} {init : Bool} :
      LinkStepped l ({ l with netState := false }.goto c .idle) (.failed :: Link.reconnected init c)
  | unsent {c : Nat} {data : List UInt8} : l.thread c = .sending data →
      LinkStepped l (l.goto c .idle) [.returned c (-1)]
  | sends {c n : Nat} {data : List UInt8} : l.thread c = .sending data →
      LinkStepped l (l.goto c .idle) [.sent c (data.take n), .returned c 1]

section Steps

variable {l l' : Link} {a : LinkAction} {tr ev : List LinkEvent} {c : Nat}

theorem link_stepped (h : l.step a = some (l', ev)) : LinkStepped l l' ev := by
  cases a with
  | egNetInit c =>
      simp only [Link.step] at h
      split at h
      · cases h
        exact .enters nofun
      · cases h
  | egTcpSend c data =>
      simp only [Link.step] at h
      split at h
      · split at h
        · cases h
          exact .enters nofun
        · rename_i hstate
          cases h
          exact .enters fun _ _ => by simpa using hstate
      · cases h
  | socket c fd =>
      simp only [Link.step] at h
      split at h
      · cases h
        exact .unopened
      · split at h
        · rename_i hfree
          cases h
          exact .opens hfree
        · cases h
      · cases h
  | connect c ok =>
      simp only [Link.step] at h
      split at h
      · split at h
        · split at h
          · rename_i hcurrent
            have hopen : l.socket l.sockfd.toNat = some false := by
              rw [Link.current] at hcurrent
              split at hcurrent
              · exact hcurrent
              · cases hcurrent
            cases h
            exact .connects hopen
          · cases h
        · cases h
          exact .fails
      · cases h
  | send c taken =>
      simp only [Link.step] at h
      split at h
      · rename_i data hthread
        cases h
        exact .unsent hthread
      · rename_i data n hthread
        split at h
        · cases h
          exact .sends hthread
        · cases h
      · cases h

/-! ### The state of the connection -/

theorem mem_reconnected {e : LinkEvent} {init : Bool} (he : e ∈ Link.reconnected init c) : e = .returned c (-2) := by
  cases init <;> simp_all [Link.reconnected]

/-- `net_state` is one exactly until a `connect` fails. -/
theorem LinkStepped.netState (h : LinkStepped l l' ev) : l'.netState = false ↔ l.netState = false ∨ .failed ∈ ev := by
  have hnone {init : Bool} {c : Nat} : .failed ∉ Link.reconnected init c := by
    intro hmem
    cases mem_reconnected hmem
  cases h <;> simp [Link.goto, hnone]

def LinkEvent.opened? : LinkEvent → Option Nat
  | .opened fd => some fd
  | _ => none

structure Opened (tr : List LinkEvent) (l : Link) : Prop where
  nodup : (tr.filterMap LinkEvent.opened?).Nodup
  open_iff : ∀ fd, l.socket fd ≠ none ↔ fd ∈ tr.filterMap LinkEvent.opened?

theorem opened_reconnected (init : Bool) (c : Nat) : (Link.reconnected init c).filterMap LinkEvent.opened? = [] := by
  cases init <;> rfl

theorem Opened.stepped (h : Opened tr l) (hs : LinkStepped l l' ev) : Opened (tr ++ ev) l' := by
  have hsame (hnone : ev.filterMap LinkEvent.opened? = []) (hsocket : ∀ fd, l'.socket fd ≠ none ↔ l.socket fd ≠ none) :
      Opened (tr ++ ev) l' := by
    constructor
    · rw [List.filterMap_append, hnone, List.append_nil]
      exact h.nodup
    · intro fd
      rw [hsocket, h.open_iff, List.filterMap_append, hnone, List.append_nil]
  cases hs with
  | enters => exact hsame rfl fun _ => Iff.rfl
  | unopened => exact hsame (opened_reconnected _ _) fun _ => Iff.rfl
  | @opens c init fd hfree =>
      have hnew : fd ∉ tr.filterMap LinkEvent.opened? := fun hmem => (h.open_iff fd).mpr hmem hfree
      have hev : [LinkEvent.opened fd].filterMap LinkEvent.opened? = [fd] := rfl
      constructor
      · rw [List.filterMap_append, hev]
        refine List.nodup_append.mpr ⟨h.nodup, by simp, ?_⟩
        intro x hx y hy hxy
        rw [hxy, List.mem_singleton.mp hy] at hx
        exact hnew hx
      · intro fd'
        rw [List.filterMap_append, hev, List.mem_append, ← h.open_iff]
        by_cases hfd : fd' = fd
        · simp [Link.goto, hfd]
        · simp [Link.goto, hfd]
  | @connects c fd receivers init hopen =>
      apply hsame
      · rw [List.filterMap_cons]
        exact opened_reconnected init c
      · intro fd'
        by_cases hfd : fd' = fd
        · simp [Link.goto, hfd, hopen]
        · simp [Link.goto, hfd]
  | fails =>
      apply hsame
      · rw [List.filterMap_cons]
        exact opened_reconnected _ _
      · exact fun _ => Iff.rfl
  | unsent => exact hsame rfl fun _ => Iff.rfl
  | sends => exact hsame rfl fun _ => Iff.rfl

theorem LinkStepped.cut_off (h : LinkStepped l l' ev) (hstate : l.netState = false)
    (hthread : ∀ data, l.thread c ≠ .sending data) :
    (∀ data, l'.thread c ≠ .sending data) ∧ (∀ bytes, .sent c bytes ∉ ev) ∧ ∀ ret, .returned c ret ∈ ev → ret = -2 := by
  have hgoto {l : Link} {c' : Nat} {pc : LinkPc} (hpc : ∀ data, pc ≠ .sending data)
      (hthread : ∀ data, l.thread c ≠ .sending data) (data : List UInt8) : (l.goto c' pc).thread c ≠ .sending data := by
    by_cases hc : c = c'
    · simpa [Link.goto, hc] using hpc data
    · simpa [Link.goto, hc] using hthread data
  have hsent {init : Bool} {c' : Nat} (bytes : List UInt8) : .sent c bytes ∉ Link.reconnected init c' := by
    intro hmem
    cases mem_reconnected hmem
  have hret {init : Bool} {c' : Nat} (ret : Int) (hmem : .returned c ret ∈ Link.reconnected init c') : ret = -2 := by
    cases mem_reconnected hmem
    rfl
  cases h with
  | enters hpc =>
      refine ⟨hgoto ?_ hthread, by simp, by simp⟩
      intro data hdata
      rw [hpc data hdata] at hstate
      cases hstate
  | unopened => exact ⟨hgoto nofun hthread, hsent, hret⟩
  | opens => exact ⟨hgoto nofun hthread, by simp, by simp⟩
  | connects => exact ⟨hgoto nofun hthread, by simpa using hsent, by simpa using hret⟩
  | fails => exact ⟨hgoto nofun hthread, by simpa using hsent, by simpa using hret⟩
  | @unsent c' data hsending =>
      have hne : c ≠ c' := by
        rintro rfl
        exact hthread data hsending
      exact ⟨hgoto nofun hthread, by simp, by simp [hne]⟩
  | @sends c' n data hsending =>
      have hne : c ≠ c' := by
        rintro rfl
        exact hthread data hsending
      exact ⟨hgoto nofun hthread, by simp [hne], by simp [hne]⟩

end Steps

theorem link_run {tr : List LinkEvent} {l : Link} (h : Steps link (fun _ _ => True) link.init tr l) :
    (l.netState = false ↔ .failed ∈ tr) ∧ Opened tr l := by
  refine h.trace_invariant (I := fun tr l => (l.netState = false ↔ .failed ∈ tr) ∧ Opened tr l) ?_ ?_
  · exact ⟨by simp [link, Link.init], List.nodup_nil, by simp [link, Link.init]⟩
  · intro tr l a l' ev hl _ hstep
    have hs := link_stepped hstep
    exact ⟨by rw [hs.netState, hl.1, List.mem_append], hl.2.stepped hs⟩

theorem link_cut_off {tr' : List LinkEvent} {l l' : Link} {c : Nat} (h : Steps link (fun _ _ => True) l tr' l')
    (hstate : l.netState = false) (hthread : ∀ data, l.thread c ≠ .sending data) :
    (∀ bytes, .sent c bytes ∉ tr') ∧ ∀ ret, .returned c ret ∈ tr' → ret = -2 := by
  have hlater : (l'.netState = false ∧ ∀ data, l'.thread c ≠ .sending data) ∧
      (∀ bytes, .sent c bytes ∉ tr') ∧ ∀ ret, .returned c ret ∈ tr' → ret = -2 := by
    refine h.trace_invariant (I := fun tr' l' => (l'.netState = false ∧ ∀ data, l'.thread c ≠ .sending data) ∧
      (∀ bytes, .sent c bytes ∉ tr') ∧ ∀ ret, .returned c ret ∈ tr' → ret = -2) ?_ ?_
    · exact ⟨⟨hstate, hthread⟩, by simp, by simp⟩
    · intro tr' l₁ a l₂ ev hl _ hstep
      obtain ⟨⟨hstate, hthread⟩, hsent, hret⟩ := hl
      have hs := link_stepped hstep
      obtain ⟨hthread', hsent', hret'⟩ := hs.cut_off hstate hthread
      refine ⟨⟨hs.netState.mpr (.inl hstate), hthread'⟩, ?_, ?_⟩
      · intro bytes hmem
        exact (List.mem_append.mp hmem).elim (hsent bytes) (hsent' bytes)
      · intro ret hmem
        exact (List.mem_append.mp hmem).elim (hret ret) (hret' ret)
  exact hlater.2

/-- In every interleaving `net_state` is zero exactly once a `connect` has failed, and the sockets that are open are
those that were ever opened, all distinct. After a failed `connect` it stays zero: each call of `eg_tcp_send` goes to
`reconnect`, and none that begins afterwards sends anything or returns anything but -2, also if `reconnect` has
connected since. -/
theorem failed_connect_is_final {tr : List LinkEvent} {l : Link} (h : Steps link (fun _ _ => True) link.init tr l) :
    (l.netState = false ↔ .failed ∈ tr) ∧
    (tr.filterMap LinkEvent.opened?).Nodup ∧
    (∀ fd, l.socket fd ≠ none ↔ fd ∈ tr.filterMap LinkEvent.opened?) ∧
    (.failed ∈ tr → ∀ tr' l', Steps link (fun _ _ => True) l tr' l' →
      l'.netState = false ∧
      (∀ c data, l'.thread c = .idle → link.step l' (.egTcpSend c data) = some (l'.goto c (.opening false), [])) ∧
      ∀ c, (∀ data, l.thread c ≠ .sending data) →
        (∀ bytes, .sent c bytes ∉ tr') ∧ ∀ ret, .returned c ret ∈ tr' → ret = -2) := by
  obtain ⟨hstate, hopened⟩ := link_run h
  refine ⟨hstate, hopened.nodup, hopened.open_iff, fun hfailed tr' l' h' => ?_⟩
  have hzero : l'.netState = false := (link_run (h.trans h')).1.mpr (List.mem_append_left _ hfailed)
  refine ⟨hzero, fun c data hidle => ?_, fun c hthread => link_cut_off h' (hstate.mpr hfailed) hthread⟩
  simp [link, Link.step, hidle, hzero]

/-- The server is not there when the program starts. A send then connects, and the next send is refused all the
same. -/
theorem failed_connect_is_final_reconnected : ∃ tr tr' l l', Steps link (fun _ _ => True) link.init tr l ∧
    .failed ∈ tr ∧ Steps link (fun _ _ => True) l tr' l' ∧ .connected 4 ∈ tr' ∧ (tr'.count (.returned 1 (-2)) = 2) ∧
    (∀ bytes, .sent 1 bytes ∉ tr') ∧ l'.netState = false ∧ l.socket 3 ≠ none := by
  obtain ⟨l, tr, hrun, htest⟩ := exists_steps_of_exec (m := link) (s := link.init)
    [.egNetInit 0, .socket 0 (some 3), .connect 0 false]
    (p := fun r => decide (r.2 = [.opened 3, .failed]) && decide (r.1.thread 1 = .idle) &&
      (link.exec (fun _ _ => True) r.1 [.egTcpSend 1 [7], .socket 1 (some 4), .connect 1 true, .egTcpSend 1 [7],
        .socket 1 (some 5), .connect 1 true]).any fun r' : Link × List LinkEvent =>
          decide (r'.2 = [.opened 4, .connected 4, .returned 1 (-2), .opened 5, .connected 5, .returned 1 (-2)]))
    (show (link.exec (fun _ _ => True) _ _).any _ = true by decide +kernel)
  simp only [Bool.and_eq_true, decide_eq_true_eq] at htest
  obtain ⟨⟨htr, hidle⟩, hexec⟩ := htest
  obtain ⟨l', tr', hrun', htr'⟩ := exists_steps_of_exec _ hexec
  simp only [decide_eq_true_eq] at htr'
  have hfailed : .failed ∈ tr := by simp [htr]
  obtain ⟨-, -, hopen, hfinal⟩ := failed_connect_is_final hrun
  obtain ⟨hzero, -, hcut⟩ := hfinal hfailed tr' l' hrun'
  refine ⟨tr, tr', l, l', hrun, hfailed, hrun', by simp [htr'], by rw [htr']; decide, (hcut 1 (by simp [hidle])).1,
    hzero, ?_⟩
  exact (hopen 3).mpr (by simp [htr, LinkEvent.opened?])

end Pc02.Net

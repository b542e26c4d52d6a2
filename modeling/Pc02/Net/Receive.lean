import Mathlib.Data.List.Basic
import Mathlib.Tactic.Linarith

/-!
# The network receive loop

`net_thread_entry` reads frames of hexadecimal text: a header of 14 characters, and then a body whose
size the header gives. The peer decides what every `recv` returns. What the loop asks of `recv`, and
every place that it touches in its two buffers, is part of what a run reports.
-/

namespace Pc02.Net

/-- What one `recv` has to return. A chunk longer than the size asked for is returned in pieces. -/
inductive Recv
  | error
  | data (bytes : List UInt8)
deriving DecidableEq, Repr

def recv (size : Nat) : List Recv → Option (Recv × List Recv)
  | [] => none
  | .error :: rest => some (.error, rest)
  | .data bytes :: rest =>
      if bytes.length ≤ size then some (.data bytes, rest)
      else some (.data (bytes.take size), .data (bytes.drop size) :: rest)

def msgHeadStr : List UInt8 := [0x30, 0x31, 0x30, 0x31, 0x30, 0x31, 0x30, 0x31]

def getByteSize : Nat := 2048

def arrayDataSize : Nat := 256

/-- `c2i`: letters up to `z` count as digits if they are lower case. A character from 0x80 on is
negative or above `z`, depending on the signedness of `char`, and is refused either way. -/
def c2i (ch : UInt8) : Int :=
  if 0x30 ≤ ch ∧ ch ≤ 0x39 then ch.toNat - 48
  else if ch < 0x41 ∨ (0x46 < ch ∧ ch < 0x61) ∨ 0x7a < ch then -1
  else if ch ≤ 0x5a then ch.toNat - 55 else ch.toNat - 87

def toupper (ch : UInt8) : UInt8 := if 0x61 ≤ ch ∧ ch ≤ 0x7a then ch - 0x20 else ch

def hexDigit (h : UInt8) : UInt8 :=
  let s := toupper h - 0x30
  if s > 9 then s - 7 else s

/-- `StrToHex`: the loop runs not at all for a negative `nLen`. -/
def strToHex (pbDest pbSrc : List UInt8) (nLen : Int) : List UInt8 :=
  (List.range nLen.toNat).foldl
    (fun dest i => dest.set i (hexDigit (pbSrc.getD (2 * i) 0) * 16 + hexDigit (pbSrc.getD (2 * i + 1) 0))) pbDest

inductive Obs
  /-- A header that has passed the check. -/
  | header (bytes : List UInt8)
  /-- The size that the second `recv` asks for, with `getByte` as its buffer. -/
  | request (size : Int)
  /-- `StrToHex` reads `getByte` at an index. -/
  | read (i : Nat)
  /-- `StrToHex` writes `array_data` at an index. -/
  | write (i : Nat)
  /-- A call of `eg_tcp_main_proc`, with the whole of `array_data`. -/
  | call (cmd : UInt8) (data : List UInt8) (length : Int)
deriving DecidableEq, Repr

def strToHexAccesses (nLen : Int) : List Obs :=
  (List.range nLen.toNat).flatMap fun i => [.read (2 * i), .read (2 * i + 1), .write i]

def overlay (bytes buf : List UInt8) : List UInt8 := bytes ++ buf.drop bytes.length

/-- The length field of the header, in 32-bit arithmetic: three digits are masked, the last is not. -/
def frameLen (getByte : List UInt8) : BitVec 32 :=
  let digit (i : Nat) : BitVec 32 := BitVec.ofInt 32 (c2i (getByte.getD i 0))
  ((0xff#32 &&& digit 10) <<< 12) ||| ((0xff#32 &&& digit 11) <<< 8) ||| ((0xff#32 &&& digit 12) <<< 4) |||
    digit 13

/-- `strlen(MSG_HEAD_str)+6`. -/
def headerSize : Nat := 14

def headerOk (head : List UInt8) : Bool := head.length = headerSize ∧ head.take 8 = msgHeadStr

def headerLen (head : List UInt8) : Int := (frameLen (overlay head (List.replicate getByteSize 0))).toInt

/-- One turn of the loop: what it does, and the state it goes on with unless it is stuck in `recv`.
`getByte` is cleared at the top of every turn, `array_data` is kept. -/
def turn (arrayData : List UInt8) (incoming : List Recv) : List Obs × Option (List UInt8 × List Recv) :=
  match recv headerSize incoming with
  | none => ([], none)
  | some (.error, rest) => ([], some (arrayData, rest))
  | some (.data head, rest) =>
      let getByte := overlay head (List.replicate getByteSize 0)
      if headerOk head then
        let cmd := getByte.getD 9 0 - 0x30
        let len := (frameLen getByte).toInt
        match recv (len * 2 + 8).toNat rest with
        | none => ([.header head, .request (len * 2 + 8)], none)
        | some (.error, rest) => ([.header head, .request (len * 2 + 8)], some (arrayData, rest))
        | some (.data body, rest) =>
            let getByte := overlay body getByte
            let arrayData := strToHex arrayData getByte len
            ([.header head, .request (len * 2 + 8)] ++ strToHexAccesses len ++ [.call cmd arrayData len],
              some (arrayData, rest))
      else ([], some (arrayData, rest))

def loop : Nat → List UInt8 → List Recv → List Obs
  | 0, _, _ => []
  | fuel + 1, arrayData, incoming =>
      let r := turn arrayData incoming
      r.1 ++
        match r.2 with
        | none => []
        | some (arrayData, rest) => loop fuel arrayData rest

/-- Every turn uses some of what is to be received. -/
def weight (incoming : List Recv) : Nat :=
  (incoming.map fun r => match r with | .error => 1 | .data bytes => bytes.length + 1).sum

def run (arrayData : List UInt8) (incoming : List Recv) : List Obs := loop (weight incoming + 1) arrayData incoming

def netThreadEntry (incoming : List Recv) : List Obs := run (List.replicate arrayDataSize 0) incoming

variable {arrayData : List UInt8} {incoming rest : List Recv}

theorem recv_weight {size : Nat} {r : Recv} (h : recv size incoming = some (r, rest)) :
    weight rest ≤ weight incoming ∧ (0 < size → weight rest < weight incoming) := by
  cases incoming with
  | nil => cases h
  | cons c cs =>
      cases c with
      | error =>
          obtain ⟨-, rfl⟩ := Prod.mk.inj (Option.some.inj h)
          simp [weight]
      | data bytes =>
          simp only [recv] at h
          split at h
          · obtain ⟨-, rfl⟩ := Prod.mk.inj (Option.some.inj h)
            simp [weight]
          · obtain ⟨-, rfl⟩ := Prod.mk.inj (Option.some.inj h)
            simp only [weight, List.map_cons, List.sum_cons, List.length_drop]
            omega

theorem turn_weight {obs : List Obs} {arrayData' : List UInt8}
    (h : turn arrayData incoming = (obs, some (arrayData', rest))) : weight rest < weight incoming := by
  simp only [turn] at h
  split at h
  · cases h
  · rename_i rest' hrecv
    obtain ⟨-, rfl⟩ : arrayData = arrayData' ∧ rest' = rest := by simpa using (Prod.mk.inj h).2
    exact (recv_weight hrecv).2 (by decide)
  · rename_i head rest' hrecv
    have hlt := (recv_weight hrecv).2 (by decide)
    split at h
    · split at h
      · cases h
      · rename_i rest'' hrecv'
        obtain ⟨-, rfl⟩ : arrayData = arrayData' ∧ rest'' = rest := by simpa using (Prod.mk.inj h).2
        exact (recv_weight hrecv').1.trans_lt hlt
      · rename_i body rest'' hrecv'
        obtain ⟨-, rfl⟩ : _ ∧ rest'' = rest := by simpa using (Prod.mk.inj h).2
        exact (recv_weight hrecv').1.trans_lt hlt
    · obtain ⟨-, rfl⟩ : arrayData = arrayData' ∧ rest' = rest := by simpa using (Prod.mk.inj h).2
      exact hlt

theorem headerOk.length_eq {head : List UInt8} (hok : headerOk head) : head.length = headerSize := by
  simp only [headerOk, decide_eq_true_eq] at hok
  exact hok.1

theorem turn_frame {head body : List UInt8} {rest' : List Recv} (hhead : recv headerSize incoming = some (.data head, rest))
    (hok : headerOk head) (hbody : recv (headerLen head * 2 + 8).toNat rest = some (.data body, rest')) :
    turn arrayData incoming =
      let getByte := overlay head (List.replicate getByteSize 0)
      let arrayData' := strToHex arrayData (overlay body getByte) (headerLen head)
      ([.header head, .request (headerLen head * 2 + 8)] ++ strToHexAccesses (headerLen head) ++
        [.call (getByte.getD 9 0 - 0x30) arrayData' (headerLen head)], some (arrayData', rest')) := by
  simp only [headerLen] at hbody
  simp [turn, hhead, hok, hbody, headerLen]

theorem turn_drop {head : List UInt8} (hhead : recv headerSize incoming = some (.data head, rest))
    (hok : headerOk head = false) : turn arrayData incoming = ([], some (arrayData, rest)) := by
  simp [turn, hhead, hok]

theorem loop_fuel (fuel fuel' : Nat) (h : weight incoming < fuel) (h' : weight incoming < fuel') :
    loop fuel arrayData incoming = loop fuel' arrayData incoming := by
  induction fuel generalizing fuel' arrayData incoming with
  | zero => omega
  | succ fuel ih =>
      cases fuel' with
      | zero => omega
      | succ fuel' =>
          simp only [loop]
          cases hturn : turn arrayData incoming with
          | mk obs next =>
              cases next with
              | none => rfl
              | some next =>
                  obtain ⟨arrayData', rest⟩ := next
                  have hlt := turn_weight hturn
                  simp only
                  rw [ih fuel' (by omega) (by omega)]

theorem run_eq (arrayData : List UInt8) (incoming : List Recv) : run arrayData incoming =
    (turn arrayData incoming).1 ++
      match (turn arrayData incoming).2 with
      | none => []
      | some (arrayData', rest) => run arrayData' rest := by
  rw [run, loop]
  cases hturn : turn arrayData incoming with
  | mk obs next =>
      cases next with
      | none => rfl
      | some next =>
          obtain ⟨arrayData', rest⟩ := next
          have hlt := turn_weight hturn
          simp only [run]
          rw [loop_fuel _ (weight rest + 1) (by omega) (by omega)]

/-- Induction along the turns of a run. -/
theorem turn_induction {P : List UInt8 → List Recv → Prop}
    (h : ∀ arrayData incoming, (∀ arrayData' rest, (turn arrayData incoming).2 = some (arrayData', rest) →
      P arrayData' rest) → P arrayData incoming)
    (arrayData : List UInt8) (incoming : List Recv) : P arrayData incoming := by
  induction hw : weight incoming using Nat.strong_induction_on generalizing arrayData incoming with
  | _ n ih =>
      refine h arrayData incoming fun arrayData' rest hnext => ?_
      have hlt : weight rest < weight incoming := turn_weight (Prod.ext rfl hnext)
      exact ih (weight rest) (hw ▸ hlt) arrayData' rest rfl

end Pc02.Net

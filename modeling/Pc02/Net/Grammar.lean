import Pc02.Net.Segmentation

/-!
# Headers and the grammar of frames

What the loop makes of every header, and of every frame that the wire format gives for a command and
a payload. The length and the payload are decoded; of the command only the last digit is looked at,
and whether the characters after the magic string are digits is not looked at.
-/

namespace Pc02.Net

def InGrammar (head : List UInt8) : Prop :=
  head.length = headerSize ∧ head.take 8 = msgHeadStr ∧ ∀ ch ∈ head.drop 8, IsHex ch

instance (head : List UInt8) : Decidable (InGrammar head) := inferInstanceAs (Decidable (_ ∧ _))

/-- The loop goes on with the length that a header of the grammar denotes, and drops any other. -/
def FollowsGrammar (head : List UInt8) : Prop :=
  ∀ (arrayData : List UInt8) (rest : List Recv),
    if InGrammar head then
      headerLen head = numeral (head.drop 10) ∧ numeral (head.drop 10) ≤ 65535 ∧
        [.header head, .request (numeral (head.drop 10) * 2 + 8)] <+: (turn arrayData (.data head :: rest)).1
    else turn arrayData (.data head :: rest) = ([], some (arrayData, rest))

theorem FollowsGrammar.drops {head : List UInt8} (h : FollowsGrammar head) (hout : ¬ InGrammar head) :
    turn [] [.data head] = ([], some ([], [])) := by
  have hdrop := h [] []
  rwa [if_neg hout] at hdrop

theorem recv_whole {bytes : List UInt8} {size : Nat} (h : bytes.length = size) (rest : List Recv) :
    recv size (.data bytes :: rest) = some (.data bytes, rest) := if_pos h.le

/-- Whatever comes after it, a header with the magic string makes the loop ask for a body. -/
theorem turn_header {head : List UInt8} (hok : headerOk head) (arrayData : List UInt8) (rest : List Recv) :
    [.header head, .request (headerLen head * 2 + 8)] <+: (turn arrayData (.data head :: rest)).1 := by
  have hhead : recv headerSize (.data head :: rest) = some (.data head, rest) := recv_whole (headerOk.length_eq hok) rest
  cases hbody : recv (headerLen head * 2 + 8).toNat rest with
  | none =>
      rw [headerLen] at hbody
      simp [turn, hhead, hok, hbody, headerLen]
  | some next =>
      obtain ⟨r, rest'⟩ := next
      cases r with
      | error =>
          rw [headerLen] at hbody
          simp [turn, hhead, hok, hbody, headerLen]
      | data body =>
          rw [turn_frame hhead hok hbody]
          simp

theorem numeral_le {digits : List UInt8} (hlength : digits.length = 4) (hhex : ∀ ch ∈ digits, IsHex ch) :
    numeral digits ≤ 65535 := by
  obtain ⟨a, b, c, d, rfl⟩ := exists_four hlength
  have ha := hexValue_lt a (hhex a (by simp))
  have hb := hexValue_lt b (hhex b (by simp))
  have hc := hexValue_lt c (hhex c (by simp))
  have hd := hexValue_lt d (hhex d (by simp))
  rw [numeral_four]
  omega

/-- A header is treated as its grammar says unless it has the magic string and then something that is
not a hexadecimal digit. -/
theorem followsGrammar_iff (head : List UInt8) (hlength : head.length = 14) :
    FollowsGrammar head ↔ (head.take 8 = msgHeadStr → ∀ ch ∈ head.drop 8, IsHex ch) := by
  have hsize : head.length = headerSize := hlength
  constructor
  · intro h hmagic
    by_contra hhex
    have hout : ¬ InGrammar head := fun hin => hhex hin.2.2
    have hok : headerOk head := by simp [headerOk, hsize, hmagic]
    have hask := turn_header hok [] []
    rw [h.drops hout] at hask
    simp at hask
  · intro h arrayData rest
    have hhead : recv headerSize (.data head :: rest) = some (.data head, rest) := recv_whole hsize rest
    by_cases hmagic : head.take 8 = msgHeadStr
    · have hin : InGrammar head := ⟨hsize, hmagic, h hmagic⟩
      have hok : headerOk head := by simp [headerOk, hsize, hmagic]
      have hhex : ∀ ch ∈ head.drop 10, IsHex ch := by
        intro ch hch
        rw [show 10 = 8 + 2 from rfl, ← List.drop_drop] at hch
        exact h hmagic ch (List.mem_of_mem_drop hch)
      have hlen := headerLen_hex hsize hhex
      rw [if_pos hin]
      refine ⟨hlen, numeral_le (by simp [hlength]) hhex, ?_⟩
      rw [← hlen]
      exact turn_header hok arrayData rest
    · have hout : ¬ InGrammar head := fun hin => hmagic hin.2.1
      rw [if_neg hout]
      exact turn_drop hhead (by simp [headerOk, hmagic])

/-- The header `0101010105001b`. -/
theorem followsGrammar_heartbeat :
    FollowsGrammar [0x30, 0x31, 0x30, 0x31, 0x30, 0x31, 0x30, 0x31, 0x30, 0x35, 0x30, 0x30, 0x31, 0x62] := by
  refine (followsGrammar_iff _ rfl).mpr ?_
  intro _ ch hch
  simp only [List.drop_succ_cons, List.drop_zero, List.mem_cons, List.not_mem_nil, or_false] at hch
  rcases hch with rfl | rfl | rfl | rfl | rfl | rfl <;> decide

/-- The header `01010101050010` with the last digit replaced by `z` is not dropped. -/
theorem not_followsGrammar_z :
    ¬ FollowsGrammar [0x30, 0x31, 0x30, 0x31, 0x30, 0x31, 0x30, 0x31, 0x30, 0x35, 0x30, 0x30, 0x31, 0x7a] := by
  intro h
  have hout : ¬ InGrammar
      [0x30, 0x31, 0x30, 0x31, 0x30, 0x31, 0x30, 0x31, 0x30, 0x35, 0x30, 0x30, 0x31, 0x7a] := by
    intro hin
    have hz : IsHex 0x7a := hin.2.2 0x7a (by simp)
    exact absurd hz (by decide)
  exact absurd (congrArg Prod.fst (h.drops hout)) (by decide +kernel)

/-- A command byte and a payload as they are written on the wire: hexadecimal digits, each a capital or
a small letter, and a trailer of any eight characters. -/
structure Rendering (c : UInt8) (p : List UInt8) where
  cmd : List UInt8
  length : List UInt8
  payload : List UInt8
  trailer : List UInt8
  cmd_length : cmd.length = 2
  cmd_hex : ∀ ch ∈ cmd, IsHex ch
  cmd_value : decodePairs cmd = [c]
  length_length : length.length = 4
  length_hex : ∀ ch ∈ length, IsHex ch
  length_value : numeral length = p.length
  payload_length : payload.length = 2 * p.length
  payload_hex : ∀ ch ∈ payload, IsHex ch
  payload_value : decodePairs payload = p
  trailer_length : trailer.length = 8

namespace Rendering

variable {c : UInt8} {p : List UInt8}

def header (r : Rendering c p) : List UInt8 := msgHeadStr ++ r.cmd ++ r.length

def body (r : Rendering c p) : List UInt8 := r.payload ++ r.trailer

/-- A turn that receives the header and the body calls `eg_tcp_main_proc` with the command, the payload
in `array_data` and its length. -/
def Decoded (r : Rendering c p) : Prop :=
  ∀ (arrayData : List UInt8) (incoming mid rest : List Recv), arrayData.length = arrayDataSize →
    recv headerSize incoming = some (.data r.header, mid) →
    recv (2 * p.length + 8) mid = some (.data r.body, rest) →
    ∃ data, (turn arrayData incoming).1.filterMap Obs.call? = [(c, data, (p.length : Int))] ∧ data.take p.length = p

theorem header_length (r : Rendering c p) : r.header.length = headerSize := by
  simp [header, msgHeadStr, r.cmd_length, r.length_length, headerSize]

theorem headerOk_header (r : Rendering c p) : headerOk r.header := by
  have htake : r.header.take 8 = msgHeadStr := by simp [header, msgHeadStr]
  simp [headerOk, r.header_length, htake]

theorem headerLen_header (r : Rendering c p) : headerLen r.header = p.length := by
  have hdrop : r.header.drop 10 = r.length := by
    rw [header, List.drop_left' (by simp [msgHeadStr, r.cmd_length])]
  rw [headerLen_hex r.header_length (by rw [hdrop]; exact r.length_hex), hdrop, r.length_value]

theorem command_eq (r : Rendering c p) :
    (overlay r.header (List.replicate getByteSize 0)).getD 9 0 - 0x30 = r.cmd.getD 1 0 - 0x30 := by
  have hlt : 9 < (msgHeadStr ++ r.cmd).length := by simp [msgHeadStr, r.cmd_length]
  rw [overlay, header, List.append_assoc, List.getD_append _ _ _ _ hlt,
    List.getD_append_right _ _ _ _ (by simp [msgHeadStr])]
  simp [msgHeadStr]

theorem filterMap_accesses (nLen : Int) : (strToHexAccesses nLen).filterMap Obs.call? = [] := by
  rw [strToHexAccesses, List.filterMap_flatMap]
  simp [Obs.call?]

/-- The length and the payload are decoded, and the command is the last digit less `0`. -/
theorem turn_calls (r : Rendering c p) (hp : p.length ≤ 256) {arrayData : List UInt8} {incoming mid rest : List Recv}
    (hsize : arrayData.length = arrayDataSize) (hhead : recv headerSize incoming = some (.data r.header, mid))
    (hbody : recv (2 * p.length + 8) mid = some (.data r.body, rest)) :
    (turn arrayData incoming).1.filterMap Obs.call? =
      [(r.cmd.getD 1 0 - 0x30, p ++ arrayData.drop p.length, (p.length : Int))] := by
  have hasked : (headerLen r.header * 2 + 8).toNat = 2 * p.length + 8 := by
    rw [r.headerLen_header]
    omega
  have hle : p.length ≤ arrayData.length := by
    rw [hsize, arrayDataSize]
    exact hp
  have hdata := strToHex_pairs hle r.payload_length r.payload_hex r.trailer
    (overlay r.header (List.replicate getByteSize 0))
  rw [turn_frame hhead r.headerOk_header (by rw [hasked]; exact hbody)]
  simp only [r.command_eq, r.headerLen_header, body, hdata, r.payload_value, List.filterMap_append,
    filterMap_accesses]
  simp [Obs.call?]

end Rendering

theorem sub_zero_char (ch : UInt8) : IsHex ch → (hexValue ch < 10 ∧ (ch - 0x30).toNat = hexValue ch) ∨
    (10 ≤ hexValue ch ∧ (ch - 0x30).toNat % 16 < 10) :=
  forall_char (P := fun ch => IsHex ch → (hexValue ch < 10 ∧ (ch - 0x30).toNat = hexValue ch) ∨
    (10 ≤ hexValue ch ∧ (ch - 0x30).toNat % 16 < 10)) (by decide +kernel) ch

theorem Rendering.command_iff {c : UInt8} {p : List UInt8} (r : Rendering c p) :
    r.cmd.getD 1 0 - 0x30 = c ↔ c < 10 := by
  obtain ⟨hi, lo, hcmd⟩ : ∃ hi lo, r.cmd = [hi, lo] := by
    match r.cmd, r.cmd_length with
    | [hi, lo], _ => exact ⟨hi, lo, rfl⟩
  have hvalue := r.cmd_value
  have hhi := hexValue_lt hi (r.cmd_hex hi (by simp [hcmd]))
  have hlo := hexValue_lt lo (r.cmd_hex lo (by simp [hcmd]))
  have hc : c.toNat = 16 * hexValue hi + hexValue lo := by
    simp only [hcmd, decodePairs, List.cons.injEq, and_true] at hvalue
    rw [← hvalue, UInt8.toNat_ofNat']
    omega
  rw [hcmd, List.getD_cons_succ, List.getD_cons_zero, ← UInt8.toNat_inj, UInt8.lt_iff_toNat_lt, hc]
  have hten : (10 : UInt8).toNat = 10 := rfl
  rw [hten]
  rcases sub_zero_char lo (r.cmd_hex lo (by simp [hcmd])) with h | h
  · omega
  · omega

/-- A frame is decoded exactly if its command is a single decimal digit. -/
theorem decoded_iff (c : UInt8) (p : List UInt8) (hp : p.length ≤ 256) (r : Rendering c p) :
    r.Decoded ↔ c < 10 := by
  constructor
  · intro h
    -- the frame on its own
    have hhead : recv headerSize [.data r.header, .data r.body] = some (.data r.header, [.data r.body]) :=
      recv_whole r.header_length _
    have hbody : recv (2 * p.length + 8) [.data r.body] = some (.data r.body, []) :=
      recv_whole (by simp [Rendering.body, r.payload_length, r.trailer_length]) _
    have hsize : (List.replicate arrayDataSize (0 : UInt8)).length = arrayDataSize := List.length_replicate
    obtain ⟨data, hcalls, -⟩ := h _ _ _ _ hsize hhead hbody
    rw [r.turn_calls hp hsize hhead hbody, List.cons.injEq, Prod.mk.injEq] at hcalls
    exact r.command_iff.mp hcalls.1.1
  · intro h arrayData incoming mid rest hsize hhead hbody
    refine ⟨p ++ arrayData.drop p.length, ?_, List.take_left⟩
    rw [r.turn_calls hp hsize hhead hbody, r.command_iff.mpr h]

theorem hex_of_all {digits : List UInt8} (h : digits.all (fun ch => decide (IsHex ch)) = true) :
    ∀ ch ∈ digits, IsHex ch := by
  intro ch hch
  exact of_decide_eq_true (List.all_eq_true.mp h ch hch)

/-- `CONNECT_ACK_STR`: the command 1 with the payload 0. -/
def connectAck : Rendering 0x01 [0x00] where
  cmd := [0x30, 0x31]
  length := [0x30, 0x30, 0x30, 0x31]
  payload := [0x30, 0x30]
  trailer := [0x30, 0x33, 0x30, 0x30, 0x45, 0x37, 0x30, 0x34]
  cmd_length := rfl
  cmd_hex := hex_of_all rfl
  cmd_value := rfl
  length_length := rfl
  length_hex := hex_of_all rfl
  length_value := rfl
  payload_length := rfl
  payload_hex := hex_of_all rfl
  payload_value := rfl
  trailer_length := rfl

theorem connectAck_decoded : connectAck.Decoded := (decoded_iff 0x01 [0x00] (by decide) connectAck).mpr (by decide)

def aclDl : Rendering 0x4b [] where
  cmd := [0x34, 0x42]
  length := [0x30, 0x30, 0x30, 0x30]
  payload := []
  trailer := [0x30, 0x33, 0x30, 0x30, 0x45, 0x37, 0x30, 0x34]
  cmd_length := rfl
  cmd_hex := hex_of_all rfl
  cmd_value := rfl
  length_length := rfl
  length_hex := hex_of_all rfl
  length_value := rfl
  payload_length := rfl
  payload_hex := hex_of_all rfl
  payload_value := rfl
  trailer_length := rfl

/-- The loop calls `eg_tcp_main_proc` with the command 18. -/
theorem aclDl_not_decoded : ¬ aclDl.Decoded := by
  intro h
  have hhead : recv headerSize [.data aclDl.header, .data aclDl.body] = some (.data aclDl.header, [.data aclDl.body]) :=
    recv_whole aclDl.header_length _
  obtain ⟨data, hcalls, -⟩ := h (List.replicate arrayDataSize 0) _ _ [] List.length_replicate hhead rfl
  rw [aclDl.turn_calls (by decide) List.length_replicate hhead rfl, List.cons.injEq, Prod.mk.injEq] at hcalls
  exact absurd hcalls.1.1 (by decide)

end Pc02.Net

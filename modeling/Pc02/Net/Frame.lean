import Mathlib.Data.List.GetD
import Pc02.Net.Bounds

/-!
# Well-formed frames

A frame is a magic string, two characters for the command, four hexadecimal length digits, two hexadecimal
digits for every payload byte and eight trailing characters. On a frame that arrives in one piece
the loop reads the length that is written, and decodes the payload.
-/

namespace Pc02.Net

def IsHex (ch : UInt8) : Prop :=
  (0x30 ≤ ch ∧ ch ≤ 0x39) ∨ (0x41 ≤ ch ∧ ch ≤ 0x46) ∨ (0x61 ≤ ch ∧ ch ≤ 0x66)

instance (ch : UInt8) : Decidable (IsHex ch) := inferInstanceAs (Decidable (_ ∨ _))

def hexValue (ch : UInt8) : Nat :=
  if ch ≤ 0x39 then ch.toNat - 48 else if ch ≤ 0x46 then ch.toNat - 55 else ch.toNat - 87

def numeral (digits : List UInt8) : Nat := digits.foldl (fun n ch => 16 * n + hexValue ch) 0

/-- The bytes that pairs of hexadecimal digits denote. -/
def decodePairs : List UInt8 → List UInt8
  | hi :: lo :: rest => UInt8.ofNat (16 * hexValue hi + hexValue lo) :: decodePairs rest
  | _ => []

structure Frame where
  cmd : List UInt8
  length : List UInt8
  payload : List UInt8
  trailer : List UInt8
  cmd_length : cmd.length = 2
  length_length : length.length = 4
  length_hex : ∀ ch ∈ length, IsHex ch
  length_le : numeral length ≤ 256
  payload_length : payload.length = 2 * numeral length
  payload_hex : ∀ ch ∈ payload, IsHex ch
  trailer_length : trailer.length = 8

namespace Frame

def header (f : Frame) : List UInt8 := msgHeadStr ++ f.cmd ++ f.length

def body (f : Frame) : List UInt8 := f.payload ++ f.trailer

def bytes (f : Frame) : List UInt8 := f.header ++ f.body

/-- The command: the loop looks at the second of its characters only. -/
def command (f : Frame) : UInt8 := f.cmd.getD 1 0 - 0x30

def len (f : Frame) : Nat := numeral f.length

def data (f : Frame) : List UInt8 := decodePairs f.payload

end Frame

theorem forall_char {P : UInt8 → Prop} (h : ∀ n : Fin 256, P (UInt8.ofNat n)) (ch : UInt8) : P ch := by
  have hch := h ⟨ch.toNat, ch.toNat_lt⟩
  rwa [UInt8.ofNat_toNat] at hch

theorem c2i_hex (ch : UInt8) : IsHex ch → c2i ch = hexValue ch :=
  forall_char (P := fun ch => IsHex ch → c2i ch = hexValue ch) (by decide +kernel) ch

theorem hexDigit_hex (ch : UInt8) : IsHex ch → hexDigit ch = UInt8.ofNat (hexValue ch) :=
  forall_char (P := fun ch => IsHex ch → hexDigit ch = UInt8.ofNat (hexValue ch)) (by decide +kernel) ch

theorem hexValue_lt (ch : UInt8) : IsHex ch → hexValue ch < 16 :=
  forall_char (P := fun ch => IsHex ch → hexValue ch < 16) (by decide +kernel) ch

theorem decodePairs_length {digits : List UInt8} {n : Nat} (h : digits.length = 2 * n) :
    (decodePairs digits).length = n := by
  induction n generalizing digits with
  | zero => simp [List.length_eq_zero_iff.mp h, decodePairs]
  | succ n ih =>
      match digits, h with
      | hi :: lo :: rest, h =>
          have hrest : rest.length = 2 * n := by
            simp only [List.length_cons] at h
            omega
          simp [decodePairs, ih hrest]

theorem map_hexDigit {digits : List UInt8} {n : Nat} (h : digits.length = 2 * n) (hhex : ∀ ch ∈ digits, IsHex ch) :
    (List.range n).map (fun i => hexDigit (digits.getD (2 * i) 0) * 16 + hexDigit (digits.getD (2 * i + 1) 0)) =
      decodePairs digits := by
  induction n generalizing digits with
  | zero => simp [List.length_eq_zero_iff.mp h, decodePairs]
  | succ n ih =>
      match digits, h with
      | hi :: lo :: rest, h =>
          have hrest : rest.length = 2 * n := by
            simp only [List.length_cons] at h
            omega
          have hhi := hexDigit_hex hi (hhex hi (by simp))
          have hlo := hexDigit_hex lo (hhex lo (by simp))
          have ih := ih hrest (fun ch hch => hhex ch (by simp [hch]))
          rw [List.range_succ_eq_map, List.map_cons, List.map_map, decodePairs, ← ih]
          congr 1
          simp [hhi, hlo, UInt8.mul_comm]

theorem foldl_set_range (g : Nat → UInt8) (dest : List UInt8) {n : Nat} (hn : n ≤ dest.length) :
    (List.range n).foldl (fun dest i => dest.set i (g i)) dest = (List.range n).map g ++ dest.drop n := by
  induction n with
  | zero => simp
  | succ n ih =>
      have hlt : n < dest.length := by omega
      have hset : (dest.drop n).set 0 (g n) = g n :: dest.drop (n + 1) := by
        rw [List.drop_eq_getElem_cons hlt, List.set_cons_zero]
      rw [List.range_succ, List.foldl_append, ih (by omega), List.map_append, List.foldl_cons, List.foldl_nil,
        List.set_append_right _ _ (by simp)]
      simp [hset]

theorem strToHex_eq (pbSrc : List UInt8) {pbDest : List UInt8} {n : Nat} (hn : n ≤ pbDest.length) :
    strToHex pbDest pbSrc n = (List.range n).map (fun i =>
      hexDigit (pbSrc.getD (2 * i) 0) * 16 + hexDigit (pbSrc.getD (2 * i + 1) 0)) ++ pbDest.drop n := by
  simp only [strToHex, Int.toNat_natCast]
  exact foldl_set_range (fun i => hexDigit (pbSrc.getD (2 * i) 0) * 16 + hexDigit (pbSrc.getD (2 * i + 1) 0)) _ hn

theorem numeral_four (a b c d : UInt8) :
    numeral [a, b, c, d] = hexValue a * 4096 + hexValue b * 256 + hexValue c * 16 + hexValue d := by
  simp only [numeral, List.foldl_cons, List.foldl_nil]
  omega

theorem spelled_hex {a b c d : Nat} (hb : b < 16) (hc : c < 16) (hd : d < 16) :
    spelled a b c d = a * 4096 + b * 256 + c * 16 + d := by
  have hmasked (n : Nat) : masked (n : Int) = n := by simp [masked]
  simp only [spelled, hmasked, Int.toNat_natCast, Nat.or_assoc]
  have h1 : c <<< 4 ||| d = c * 16 + d := by
    rw [← Nat.shiftLeft_add_eq_or_of_lt (by omega), Nat.shiftLeft_eq]
  have h2 : b <<< 8 ||| (c * 16 + d) = b * 256 + (c * 16 + d) := by
    rw [← Nat.shiftLeft_add_eq_or_of_lt (by omega), Nat.shiftLeft_eq]
  have h3 : a <<< 12 ||| (b * 256 + (c * 16 + d)) = a * 4096 + (b * 256 + (c * 16 + d)) := by
    rw [← Nat.shiftLeft_add_eq_or_of_lt (by omega), Nat.shiftLeft_eq]
  rw [h1, h2, h3]
  omega

theorem exists_four {digits : List UInt8} (h : digits.length = 4) : ∃ a b c d, digits = [a, b, c, d] := by
  rcases digits with _ | ⟨a, _ | ⟨b, _ | ⟨c, _ | ⟨d, _ | ⟨e, digits⟩⟩⟩⟩⟩
  case cons.cons.cons.cons.nil => exact ⟨a, b, c, d, rfl⟩
  all_goals simp at h

/-- Four hexadecimal digits at the end of a header are read as the number they denote. -/
theorem headerLen_hex {head : List UInt8} (hlength : head.length = headerSize)
    (hhex : ∀ ch ∈ head.drop 10, IsHex ch) : headerLen head = numeral (head.drop 10) := by
  obtain ⟨a, b, c, d, hdrop⟩ := exists_four (show (head.drop 10).length = 4 by simp [hlength, headerSize])
  simp only [hdrop, List.mem_cons, List.not_mem_nil, or_false, forall_eq_or_imp, forall_eq] at hhex
  obtain ⟨ha, hb, hc, hd⟩ := hhex
  have hget (i : Nat) (hi : i < 4) :
      (overlay head (List.replicate getByteSize 0)).getD (10 + i) 0 = [a, b, c, d].getD i 0 := by
    rw [overlay, List.getD_append _ _ _ _ (by rw [hlength, headerSize]; omega), ← hdrop, List.getD_eq_getElem?_getD,
      List.getD_eq_getElem?_getD, List.getElem?_drop]
  have hval := frameLen_toInt (overlay head (List.replicate getByteSize 0)) (fun _ => rfl)
  simp only [hget 0 (by omega), hget 1 (by omega), hget 2 (by omega), hget 3 (by omega), List.getD_cons_zero,
    List.getD_cons_succ, c2i_hex a ha, c2i_hex b hb, c2i_hex c hc, c2i_hex d hd] at hval
  rw [if_neg (by omega), spelled_hex (hexValue_lt b hb) (hexValue_lt c hc) (hexValue_lt d hd)] at hval
  rw [headerLen, hval, hdrop, numeral_four]

theorem strToHex_pairs {arrayData payload : List UInt8} {n : Nat} (hn : n ≤ arrayData.length)
    (hlength : payload.length = 2 * n) (hhex : ∀ ch ∈ payload, IsHex ch) (trailer buf : List UInt8) :
    strToHex arrayData (overlay (payload ++ trailer) buf) n = decodePairs payload ++ arrayData.drop n := by
  have hget (j : Nat) (hj : j < 2 * n) : (overlay (payload ++ trailer) buf).getD j 0 = payload.getD j 0 := by
    rw [overlay, List.append_assoc, List.getD_append _ _ _ _ (by rw [hlength]; exact hj)]
  rw [strToHex_eq _ hn, ← map_hexDigit hlength hhex, List.append_cancel_right_eq]
  apply List.map_congr_left
  intro i hi
  have hi : i < n := List.mem_range.mp hi
  rw [hget _ (by omega), hget _ (by omega)]

namespace Frame

variable (f : Frame)

theorem header_length : f.header.length = headerSize := by
  simp [header, msgHeadStr, f.cmd_length, f.length_length, headerSize]

theorem body_length : f.body.length = 2 * f.len + 8 := by
  simp [body, f.payload_length, f.trailer_length, len]

theorem headerOk_header : headerOk f.header := by
  have htake : f.header.take 8 = msgHeadStr := by simp [header, msgHeadStr]
  simp [headerOk, f.header_length, htake]

theorem header_getD (i : Nat) : (overlay f.header (List.replicate getByteSize 0)).getD (8 + i) 0 =
    (f.cmd ++ f.length ++ List.replicate (getByteSize - headerSize) 0).getD i 0 := by
  have hover : overlay f.header (List.replicate getByteSize 0) =
      msgHeadStr ++ (f.cmd ++ f.length ++ List.replicate (getByteSize - headerSize) 0) := by
    rw [overlay, f.header_length, List.drop_replicate, header]
    simp only [List.append_assoc]
  rw [hover, List.getD_append_right _ _ _ _ (by simp [msgHeadStr])]
  simp [msgHeadStr]

theorem command_eq : (overlay f.header (List.replicate getByteSize 0)).getD 9 0 - 0x30 = f.command := by
  have hlt : 1 < f.cmd.length := by simp [f.cmd_length]
  rw [show 9 = 8 + 1 from rfl, header_getD, List.append_assoc, List.getD_append _ _ _ _ hlt, command]

theorem headerLen_header : headerLen f.header = f.len := by
  have hdrop : f.header.drop 10 = f.length := by
    rw [header, List.drop_left' (by simp [msgHeadStr, f.cmd_length])]
  rw [headerLen_hex f.header_length (by rw [hdrop]; exact f.length_hex), hdrop, len]

theorem strToHex_body {arrayData : List UInt8} (hsize : arrayData.length = arrayDataSize) (buf : List UInt8) :
    strToHex arrayData (overlay f.body buf) f.len = f.data ++ arrayData.drop f.len := by
  have hle : f.len ≤ arrayData.length := by
    rw [hsize, len, arrayDataSize]
    exact f.length_le
  exact strToHex_pairs hle f.payload_length f.payload_hex f.trailer buf

theorem data_length : f.data.length = f.len := decodePairs_length f.payload_length

end Frame

end Pc02.Net

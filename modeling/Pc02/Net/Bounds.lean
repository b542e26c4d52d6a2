import Mathlib.Tactic.IntervalCases
import Pc02.Net.Receive

/-!
# The buffers of the receive loop

The length field decides how much the second `recv` may store and how far `StrToHex` goes. It holds
any number up to about a million, since `c2i` takes letters beyond `f` for digits and the mask lets
its error value through; both buffers are far smaller.
-/

namespace Pc02.Net

def Obs.InBounds : Obs → Prop
  | .request size => 0 ≤ size ∧ size ≤ getByteSize
  | .read i => i < getByteSize
  | .write i => i < arrayDataSize
  | _ => True

/-- The four length characters of a header denote at most 256, or the last of them is no digit. -/
def LengthOk (header : List UInt8) : Prop :=
  let d (i : Nat) : Int := c2i (header.getD (10 + i) 0)
  d 3 = -1 ∨ (d 0 = 0 ∧
    ((d 1 = 0 ∧ 0 ≤ d 2 ∧ d 2 ≤ 15) ∨
      (((d 1 = 1 ∧ d 2 = 0) ∨ (d 1 = 0 ∧ d 2 = 16) ∨ (d 1 = 1 ∧ d 2 = 16)) ∧ d 3 = 0)))

instance (header : List UInt8) : Decidable (LengthOk header) :=
  inferInstanceAs (Decidable (c2i (header.getD (10 + 3) 0) = -1 ∨ _))

theorem c2i_range (ch : UInt8) : -1 ≤ c2i ch ∧ c2i ch ≤ 35 := by
  simp only [c2i, UInt8.le_iff_toNat_le, UInt8.lt_iff_toNat_lt]
  simp only [UInt8.reduceToNat]
  split_ifs <;> omega

/-- A masked digit as a number: the error value of `c2i` becomes 255. -/
def masked (d : Int) : Nat := if d = -1 then 255 else d.toNat

theorem masked_le {d : Int} (h : d ≤ 35) : masked d ≤ 255 := by
  simp only [masked]
  split_ifs <;> omega

theorem toNat_masked {d : Int} (hlo : -1 ≤ d) (hhi : d ≤ 35) : (0xff#32 &&& BitVec.ofInt 32 d).toNat = masked d := by
  interval_cases d <;> rfl

theorem toNat_digit {d : Int} (hlo : 0 ≤ d) (hhi : d ≤ 35) : (BitVec.ofInt 32 d).toNat = d.toNat := by
  interval_cases d <;> rfl

def spelled (d0 d1 d2 d3 : Int) : Nat :=
  masked d0 <<< 12 ||| masked d1 <<< 8 ||| masked d2 <<< 4 ||| d3.toNat

theorem spelled_lt {d0 d1 d2 d3 : Int} (h0 : d0 ≤ 35) (h1 : d1 ≤ 35) (h2 : d2 ≤ 35) (h3 : d3 ≤ 35) :
    spelled d0 d1 d2 d3 < 2 ^ 20 := by
  have m0 := masked_le h0
  have m1 := masked_le h1
  have m2 := masked_le h2
  simp only [spelled, Nat.shiftLeft_eq]
  refine Nat.or_lt_two_pow (Nat.or_lt_two_pow (Nat.or_lt_two_pow ?_ ?_) ?_) ?_ <;> omega

/-- A last character that is no digit makes the length -1, and otherwise it is the number spelled. -/
theorem frameLen_toInt (getByte : List UInt8) {d : Nat → Int} (hd : ∀ i, d i = c2i (getByte.getD (10 + i) 0)) :
    (frameLen getByte).toInt = if d 3 = -1 then -1 else (spelled (d 0) (d 1) (d 2) (d 3) : Int) := by
  have hlo (i : Nat) : -1 ≤ d i := hd i ▸ (c2i_range _).1
  have hhi (i : Nat) : d i ≤ 35 := hd i ▸ (c2i_range _).2
  have hlen : frameLen getByte = ((0xff#32 &&& BitVec.ofInt 32 (d 0)) <<< 12) |||
      ((0xff#32 &&& BitVec.ofInt 32 (d 1)) <<< 8) ||| ((0xff#32 &&& BitVec.ofInt 32 (d 2)) <<< 4) |||
      BitVec.ofInt 32 (d 3) := by
    simp only [frameLen, hd]
  rw [hlen]
  split_ifs with h3
  · have hones : BitVec.ofInt 32 (d 3) = BitVec.allOnes 32 := by rw [h3]; rfl
    rw [hones, BitVec.or_allOnes]
    rfl
  · have hpos : 0 ≤ d 3 := by have := hlo 3; omega
    have hnat : (((0xff#32 &&& BitVec.ofInt 32 (d 0)) <<< 12) |||
        ((0xff#32 &&& BitVec.ofInt 32 (d 1)) <<< 8) ||| ((0xff#32 &&& BitVec.ofInt 32 (d 2)) <<< 4) |||
        BitVec.ofInt 32 (d 3)).toNat = spelled (d 0) (d 1) (d 2) (d 3) := by
      have m0 := masked_le (hhi 0)
      have m1 := masked_le (hhi 1)
      have m2 := masked_le (hhi 2)
      simp only [BitVec.toNat_or, BitVec.toNat_shiftLeft, toNat_masked (hlo _) (hhi _), toNat_digit hpos (hhi 3),
        spelled, Nat.shiftLeft_eq]
      rw [Nat.mod_eq_of_lt (by omega), Nat.mod_eq_of_lt (by omega), Nat.mod_eq_of_lt (by omega)]
    have hlt := spelled_lt (hhi 0) (hhi 1) (hhi 2) (hhi 3)
    rw [BitVec.toInt_eq_toNat_of_lt (by rw [hnat]; omega), hnat]

theorem small_spelled : ∀ (a : Fin 2) (b : Fin 17) (c : Fin 36), a.val <<< 8 ||| b.val <<< 4 ||| c.val ≤ 256 ↔
    (a.val = 0 ∧ b.val ≤ 15) ∨
      (((a.val = 1 ∧ b.val = 0) ∨ (a.val = 0 ∧ b.val = 16) ∨ (a.val = 1 ∧ b.val = 16)) ∧ c.val = 0) := by
  decide +kernel

theorem spelled_le_iff {d0 d1 d2 d3 : Int} (h0 : -1 ≤ d0 ∧ d0 ≤ 35) (h1 : -1 ≤ d1 ∧ d1 ≤ 35)
    (h2 : -1 ≤ d2 ∧ d2 ≤ 35) (h3 : 0 ≤ d3 ∧ d3 ≤ 35) : spelled d0 d1 d2 d3 ≤ 256 ↔
      d0 = 0 ∧ ((d1 = 0 ∧ 0 ≤ d2 ∧ d2 ≤ 15) ∨
        (((d1 = 1 ∧ d2 = 0) ∨ (d1 = 0 ∧ d2 = 16) ∨ (d1 = 1 ∧ d2 = 16)) ∧ d3 = 0)) := by
  by_cases hsmall : d0 = 0 ∧ 0 ≤ d1 ∧ d1 < 2 ∧ 0 ≤ d2 ∧ d2 < 17
  · obtain ⟨rfl, h1, h1', h2, h2'⟩ := hsmall
    obtain ⟨a, rfl⟩ := Int.eq_ofNat_of_zero_le h1
    obtain ⟨b, rfl⟩ := Int.eq_ofNat_of_zero_le h2
    obtain ⟨c, rfl⟩ := Int.eq_ofNat_of_zero_le h3.1
    have hspelled : spelled 0 a b c = a <<< 8 ||| b <<< 4 ||| c := by
      have ha : masked (a : Int) = a := by simp [masked]
      have hb : masked (b : Int) = b := by simp [masked]
      simp [spelled, ha, hb, show masked 0 = 0 from rfl]
    have hiff := small_spelled ⟨a, by omega⟩ ⟨b, by omega⟩ ⟨c, by omega⟩
    simp only at hiff
    rw [hspelled, hiff]
    omega
  · -- one of the first three digits alone is too much
    have hle : masked d0 * 4096 ≤ spelled d0 d1 d2 d3 ∧ masked d1 * 256 ≤ spelled d0 d1 d2 d3 ∧
        masked d2 * 16 ≤ spelled d0 d1 d2 d3 := by
      simp only [spelled, Nat.shiftLeft_eq]
      refine ⟨?_, ?_, ?_⟩
      · exact (Nat.left_le_or.trans Nat.left_le_or).trans Nat.left_le_or
      · exact (Nat.right_le_or.trans Nat.left_le_or).trans Nat.left_le_or
      · exact Nat.right_le_or.trans Nat.left_le_or
    simp only [masked] at hle
    constructor
    · intro hspelled
      refine absurd ?_ hsmall
      split_ifs at hle <;> omega
    · intro hok
      exact absurd (by omega) hsmall

theorem headerLen_ge (header : List UInt8) : -1 ≤ headerLen header := by
  rw [headerLen, frameLen_toInt _ (fun _ => rfl)]
  split_ifs <;> omega

theorem lengthOk_iff {header : List UInt8} (hlen : header.length = headerSize) :
    LengthOk header ↔ headerLen header ≤ 256 := by
  have hget (i : Nat) (hi : i < 4) : (overlay header (List.replicate getByteSize 0)).getD (10 + i) 0 =
      header.getD (10 + i) 0 := by
    have hlt : 10 + i < header.length := by rw [hlen, headerSize]; omega
    simp [overlay, List.getD_eq_getElem?_getD, List.getElem?_append_left hlt]
  have hr (i : Nat) := c2i_range (header.getD (10 + i) 0)
  have hval := frameLen_toInt (overlay header (List.replicate getByteSize 0)) (fun _ => rfl)
  simp only [hget 0 (by omega), hget 1 (by omega), hget 2 (by omega), hget 3 (by omega)] at hval
  simp only [LengthOk, headerLen, hval]
  by_cases h3 : c2i (header.getD (10 + 3) 0) = -1
  · simp only [h3, if_true, true_or, true_iff]
    omega
  · have hpos := (hr 3).1
    simp only [h3, if_false, false_or]
    rw [← spelled_le_iff (hr 0) (hr 1) (hr 2) ⟨by omega, (hr 3).2⟩]
    omega

variable {arrayData : List UInt8} {incoming : List Recv}

theorem turn_obs (arrayData : List UInt8) (incoming : List Recv) :
    (turn arrayData incoming).1 = [] ∨ ∃ head, headerOk head ∧
      ((turn arrayData incoming).1 = [.header head, .request (headerLen head * 2 + 8)] ∨
        ∃ cmd data, (turn arrayData incoming).1 = [.header head, .request (headerLen head * 2 + 8)] ++
          strToHexAccesses (headerLen head) ++ [.call cmd data (headerLen head)]) := by
  simp only [turn]
  split
  · exact .inl rfl
  · exact .inl rfl
  · rename_i head rest hrecv
    split
    · rename_i hok
      refine .inr ⟨head, hok, ?_⟩
      simp only [headerLen]
      split
      · exact .inl rfl
      · exact .inl rfl
      · exact .inr ⟨_, _, rfl⟩
    · exact .inl rfl

theorem strToHexAccesses_inBounds {nLen : Int} (hlen : nLen ≤ 256) : ∀ o ∈ strToHexAccesses nLen, o.InBounds := by
  intro o ho
  simp only [strToHexAccesses, List.mem_flatMap, List.mem_range] at ho
  obtain ⟨i, hi, ho⟩ := ho
  have hi : i < 256 := by omega
  simp only [List.mem_cons, List.not_mem_nil, or_false] at ho
  rcases ho with rfl | rfl | rfl
  · simp only [Obs.InBounds, getByteSize]
    omega
  · simp only [Obs.InBounds, getByteSize]
    omega
  · exact hi

theorem turn_inBounds (h : ∀ header, .header header ∈ (turn arrayData incoming).1 → LengthOk header) :
    ∀ o ∈ (turn arrayData incoming).1, o.InBounds := by
  intro o ho
  rcases turn_obs arrayData incoming with hnil | ⟨head, hok, hobs⟩
  · simp [hnil] at ho
  · have hmem : Obs.header head ∈ (turn arrayData incoming).1 := by
      rcases hobs with hobs | ⟨cmd, data, hobs⟩ <;> simp [hobs]
    have hlen := (lengthOk_iff (headerOk.length_eq hok)).mp (h head hmem)
    have hge := headerLen_ge head
    have hrequest : (Obs.request (headerLen head * 2 + 8)).InBounds := by
      simp only [Obs.InBounds, getByteSize]
      omega
    rcases hobs with hobs | ⟨cmd, data, hobs⟩
    · simp only [hobs, List.mem_cons, List.not_mem_nil, or_false] at ho
      rcases ho with rfl | rfl
      · trivial
      · exact hrequest
    · simp only [hobs, List.mem_append, List.mem_cons, List.not_mem_nil, or_false] at ho
      rcases ho with ((rfl | rfl) | ho) | rfl
      · trivial
      · exact hrequest
      · exact strToHexAccesses_inBounds (by omega) o ho
      · trivial

/-- A whole run stays inside the buffers if every header it accepts gives a length that fits. -/
theorem run_inBounds (arrayData : List UInt8) (incoming : List Recv)
    (h : ∀ header, .header header ∈ run arrayData incoming → LengthOk header) :
    ∀ o ∈ run arrayData incoming, o.InBounds := by
  induction arrayData, incoming using turn_induction with
  | _ arrayData incoming ih =>
      rw [run_eq] at h ⊢
      intro o ho
      rcases List.mem_append.mp ho with ho | ho
      · exact turn_inBounds (fun header hmem => h header (List.mem_append_left _ hmem)) o ho
      · cases hnext : (turn arrayData incoming).2 with
        | none => simp [hnext] at ho
        | some next =>
            obtain ⟨arrayData', rest⟩ := next
            simp only [hnext] at h ho
            exact ih arrayData' rest hnext (fun header hmem => h header (List.mem_append_right _ hmem)) o ho

/-- With any other length `StrToHex` leaves `array_data` as soon as anything follows the header. -/
theorem turn_outOfBounds {head body : List UInt8} {rest : List Recv} (hok : headerOk head) (hlen : ¬ LengthOk head) :
    .write arrayDataSize ∈ (turn arrayData (.data head :: .data body :: rest)).1 := by
  have hhead : recv headerSize (.data head :: .data body :: rest) = some (.data head, .data body :: rest) := by
    simp [recv, headerOk.length_eq hok]
  obtain ⟨body', rest', hbody⟩ : ∃ body' rest', recv (headerLen head * 2 + 8).toNat (.data body :: rest) =
      some (.data body', rest') := by
    simp only [recv]
    split_ifs
    · exact ⟨_, _, rfl⟩
    · exact ⟨_, _, rfl⟩
  rw [lengthOk_iff (headerOk.length_eq hok)] at hlen
  have hwrite : Obs.write arrayDataSize ∈ strToHexAccesses (headerLen head) := by
    simp only [strToHexAccesses, List.mem_flatMap, List.mem_range]
    exact ⟨arrayDataSize, by simp only [arrayDataSize]; omega, by simp⟩
  rw [turn_frame hhead hok hbody]
  exact List.mem_append_left _ (List.mem_append_right _ hwrite)

/-- The receive loop stays inside its buffers in every run in which each accepted header gives a
length that fits, and every other accepted header takes it out of them. -/
theorem receive_in_bounds (incoming : List Recv) :
    ((∀ header, .header header ∈ netThreadEntry incoming → LengthOk header) →
      ∀ o ∈ netThreadEntry incoming, o.InBounds) ∧
    (∀ header body rest, incoming = .data header :: .data body :: rest → headerOk header → ¬ LengthOk header →
      ∃ o ∈ netThreadEntry incoming, ¬ o.InBounds) := by
  constructor
  · exact run_inBounds _ _
  · rintro header body rest rfl hok hlen
    refine ⟨.write arrayDataSize, ?_, Nat.lt_irrefl _⟩
    rw [netThreadEntry, run_eq]
    exact List.mem_append_left _ (turn_outOfBounds hok hlen)

def headerOf (length : List UInt8) : List UInt8 := msgHeadStr ++ [0x30, 0x31] ++ length

def oneByteFrame : List Recv := [.data (headerOf [0x30, 0x30, 0x30, 0x31]), .data [0x30, 0x41]]

theorem receive_in_bounds_one_byte :
    (∀ o ∈ netThreadEntry oneByteFrame, o.InBounds) ∧ ¬ LengthOk (headerOf [0x30, 0x31, 0x30, 0x31]) ∧
      ∃ o ∈ netThreadEntry [.data (headerOf [0x30, 0x31, 0x30, 0x31]), .data []], ¬ o.InBounds := by
  have hlen : ¬ LengthOk (headerOf [0x30, 0x31, 0x30, 0x31]) := by decide
  refine ⟨(receive_in_bounds _).1 ?_, hlen, (receive_in_bounds _).2 _ _ _ rfl (by decide) hlen⟩
  intro header hmem
  have hobs : ((netThreadEntry oneByteFrame).filterMap fun o =>
      match o with | .header h => some h | _ => none) = [headerOf [0x30, 0x30, 0x30, 0x31]] := by decide +kernel
  have hmem : header ∈ (netThreadEntry oneByteFrame).filterMap fun o =>
      match o with | .header h => some h | _ => none := List.mem_filterMap.mpr ⟨_, hmem, rfl⟩
  rw [hobs, List.mem_singleton] at hmem
  subst hmem
  decide

/-- A length of 0x101 is accepted, and the last byte is written past the end of `array_data`. -/
theorem long_frame_out_of_bounds :
    .write 256 ∈ netThreadEntry [.data (headerOf [0x30, 0x31, 0x30, 0x31]), .data [0x30, 0x41]] ∧
      ¬ (Obs.write 256).InBounds := by
  constructor
  · decide +kernel
  · exact Nat.lt_irrefl 256

end Pc02.Net

import Pc02.Lib.Machine
import Pc02.Tlv.PutSize

/-!
# The size of a box

A box is built by puts, some of which are refused, and is serialised into a buffer that has the size it
counted on the way. The counter is the size of the stored records at all times, so that the loop fills
the buffer exactly, and after that neither the records nor the buffer change.
-/

namespace Pc02.Tlv

open Pc02.Lib Machines

inductive PutCall
  | char (type : BitVec 16) (value : UInt8)
  | short (type : BitVec 16) (value : BitVec 16)
  | int (type : BitVec 16) (value : BitVec 32)
  | long (type : BitVec 16) (value : BitVec 32)
  | string (type : BitVec 16) (value : List UInt8)
  | bytes (type : BitVec 16) (value : List UInt8) (length : BitVec 16)
  | object (type : BitVec 16) (object : SerializedBox)

namespace PutCall

def run (e : Endian) (box : Box) : PutCall → Option (Int × Box)
  | .char type value => tlvBoxPutChar box type value
  | .short type value => tlvBoxPutShort e box type value
  | .int type value => tlvBoxPutInt e box type value
  | .long type value => tlvBoxPutLong e box type value
  | .string type value => tlvBoxPutString box type value
  | .bytes type value length => tlvBoxPutBytes box type value length
  | .object type inner => tlvBoxPutObject box type inner.box

def type : PutCall → BitVec 16
  | .char type _ | .short type _ | .int type _ | .long type _ | .string type _ | .bytes type _ _ | .object type _ => type

def value (e : Endian) : PutCall → List UInt8
  | .char _ value => [value]
  | .short _ value => e.store value
  | .int _ value => e.store value
  | .long _ value => e.store value
  | .string _ value => value ++ [0]
  | .bytes _ value _ => value
  | .object _ inner => inner.buffer

def length : PutCall → BitVec 16
  | .char _ _ => 1
  | .short _ _ => 2
  | .int _ _ => 4
  | .long _ _ => 4
  | .string _ value => BitVec.ofNat 16 (value.length + 1)
  | .bytes _ _ length => length
  | .object _ inner => inner.box.mSerializedBytes.setWidth 16

def dataType : PutCall → DataType
  | .char _ _ => .char
  | .short _ _ => .short
  | .int _ _ => .int
  | .long _ _ => .long
  | .string _ _ => .string
  | .bytes _ _ _ => .bytes
  | .object _ _ => .object

/-- The length is one of 0..32767, and the value has so many bytes. -/
def Fits (e : Endian) (call : PutCall) : Prop :=
  0 ≤ call.length.toInt ∧ call.length.toInt ≤ (call.value e).length

theorem run_eq (e : Endian) (box : Box) (call : PutCall) :
    call.run e box = tlvBoxPutobject box call.type (call.value e) call.length call.dataType := by
  cases call with
  | object type inner => simp [run, tlvBoxPutObject, inner.serialized, PutCall.type, value, length, dataType]
  | _ => rfl

end PutCall

theorem sizeT_of_nonneg {length : BitVec 16} (h : 0 ≤ length.toInt) :
    (sizeT length : Int) = length.toInt ∧ sizeT length ≤ 32767 := by
  have hext : (length.signExtend 32).toInt = length.toInt := BitVec.toInt_signExtend_of_le (by omega)
  have hle := toInt_le length
  have hcases := BitVec.toInt_eq_toNat_cond (length.signExtend 32)
  rw [sizeT]
  split at hcases
  · omega
  · omega

/-- A record as the put functions make it. -/
structure WellFormed (tlv : TlvT) : Prop where
  nonneg : 0 ≤ tlv.length.toInt
  size : tlv.value.length = sizeT tlv.length
  short : tlv.dataType = .short → tlv.value.length = 2
  int : tlv.dataType = .int → tlv.value.length = 4
  long : tlv.dataType = .long → tlv.value.length = 4

/-- The value of a record in network order. -/
def wire (e : Endian) (tlv : TlvT) : List UInt8 :=
  match tlv.dataType with
  | .short => Endian.big.store (e.load 16 tlv.value)
  | .int => Endian.big.store (e.load 32 tlv.value)
  | .long => Endian.big.store (e.load 32 tlv.value)
  | _ => tlv.value

/-- The encoding of a record list, from the header of the list on. -/
def encoding (e : Endian) (tlvs : List TlvT) : List UInt8 :=
  tlvs.flatMap fun tlv => Endian.big.store tlv.type ++ Endian.big.store tlv.length ++ wire e tlv

def Box.tlvs (box : Box) : List TlvT := box.mList.nodes.map Prod.snd

/-- The sum over the stored records of 4 + length. -/
def Box.total (box : Box) : Int := (box.tlvs.map fun tlv => 4 + tlv.length.toInt).sum

/-- The loop of `tlv_box_serialize` with what it writes: where in the buffer, and how many bytes. -/
def serializeTrace (e : Endian) : List TlvT → Nat → List UInt8 → List (Nat × Nat) × Option (Nat × List UInt8)
  | [], offset, buffer => ([], some (offset, buffer))
  | tlv :: tlvs, offset, buffer =>
      match memcpy buffer offset (e.store (e.hton tlv.type)) 2 with
      | none => ([], none)
      | some buffer =>
          match memcpy buffer (offset + 2) (e.store (e.hton tlv.length)) 2 with
          | none => ([(offset, 2)], none)
          | some buffer =>
              match networkValue e tlv with
              | none => ([(offset, 2), (offset + 2, 2)], none)
              | some t =>
                  match memcpy buffer (offset + 4) t (sizeT tlv.length) with
                  | none => ([(offset, 2), (offset + 2, 2)], none)
                  | some buffer =>
                      let (rest, result) := serializeTrace e tlvs (offset + 4 + sizeT tlv.length) buffer
                      ([(offset, 2), (offset + 2, 2), (offset + 4, sizeT tlv.length)] ++ rest, result)

def Box.written (e : Endian) (heap : Nat → UInt8) (box : Box) : List Nat :=
  (serializeTrace e box.tlvs 0 (malloc heap box.mSerializedBytes.toNat)).1.flatMap fun w => List.range' w.1 w.2

def Box.finalOffset (e : Endian) (heap : Nat → UInt8) (box : Box) : Option Nat :=
  (serializeTrace e box.tlvs 0 (malloc heap box.mSerializedBytes.toNat)).2.map Prod.fst

variable {e : Endian} {box box' : Box} {tlv : TlvT} {tlvs : List TlvT}

theorem serializeTrace_eq (e : Endian) (tlvs : List TlvT) (offset : Nat) (buffer : List UInt8) :
    (serializeTrace e tlvs offset buffer).2 = serializeLoop e tlvs offset buffer ∧
      ∀ offset' buffer', serializeLoop e tlvs offset buffer = some (offset', buffer') → offset ≤ offset' ∧
        (serializeTrace e tlvs offset buffer).1.flatMap (fun w => List.range' w.1 w.2) =
          List.range' offset (offset' - offset) := by
  induction tlvs generalizing offset buffer with
  | nil => simp [serializeTrace, serializeLoop]
  | cons tlv tlvs ih =>
      simp only [serializeTrace, serializeLoop]
      cases memcpy buffer offset (e.store (e.hton tlv.type)) 2 with
      | none => simp
      | some b1 =>
          simp only [Option.bind_eq_bind, Option.bind_some]
          cases memcpy b1 (offset + 2) (e.store (e.hton tlv.length)) 2 with
          | none => simp
          | some b2 =>
              simp only [Option.bind_some]
              cases networkValue e tlv with
              | none => simp
              | some t =>
                  simp only [Option.bind_some]
                  cases memcpy b2 (offset + 4) t (sizeT tlv.length) with
                  | none => simp
                  | some b3 =>
                      simp only [Option.bind_some]
                      obtain ⟨hresult, hwritten⟩ := ih (offset + 4 + sizeT tlv.length) b3
                      refine ⟨hresult, ?_⟩
                      intro offset' buffer' hloop
                      obtain ⟨hle, hrest⟩ := hwritten offset' buffer' hloop
                      have hsplit : offset' - offset =
                          2 + (2 + (sizeT tlv.length + (offset' - (offset + 4 + sizeT tlv.length)))) := by omega
                      refine ⟨by omega, ?_⟩
                      rw [List.flatMap_append, hrest, hsplit, ← List.range'_append_1, ← List.range'_append_1,
                        ← List.range'_append_1]
                      simp only [List.flatMap_cons, List.flatMap_nil, List.append_nil, List.append_assoc]

theorem wire_length (h : WellFormed tlv) : (wire e tlv).length = tlv.value.length := by
  rw [wire]
  split
  · rename_i hshort
    rw [h.short hshort, Endian.store_length]
  · rename_i hint
    rw [h.int hint, Endian.store_length]
  · rename_i hlong
    rw [h.long hlong, Endian.store_length]
  · rfl

theorem deref_value {w : Nat} {value : List UInt8} (hw : w = 8 * (w / 8)) (h : value.length = w / 8) :
    (deref e w value).map (fun t => e.store (e.hton t)) = some (Endian.big.store (e.load w value)) := by
  rw [deref, if_pos h.ge, ← h, List.take_length, Option.map_some, e.store_hton hw]

theorem networkValue_eq (h : WellFormed tlv) : networkValue e tlv = some (wire e tlv) := by
  rw [networkValue, wire]
  cases hkind : tlv.dataType with
  | short => exact deref_value (w := 16) rfl (h.short hkind)
  | int => exact deref_value (w := 32) rfl (h.int hkind)
  | long => exact deref_value (w := 32) rfl (h.long hkind)
  | _ => rfl

theorem exists_records (e : Endian) (h : ∀ tlv ∈ tlvs, WellFormed tlv) :
    ∃ rs, List.Forall₂ (Encodes e) tlvs rs ∧ format rs = encoding e tlvs ∧
      ((format rs).length : Int) = (tlvs.map fun tlv => 4 + tlv.length.toInt).sum := by
  induction tlvs with
  | nil => exact ⟨[], .nil, rfl, rfl⟩
  | cons tlv tlvs ih =>
      have htlv := h tlv (by simp)
      obtain ⟨rs, hencodes, hformat, hsum⟩ := ih fun tlv hmem => h tlv (List.mem_cons_of_mem _ hmem)
      obtain ⟨hint, hle⟩ := sizeT_of_nonneg htlv.nonneg
      have hpayload : (wire e tlv).length = sizeT tlv.length := (wire_length htlv).trans htlv.size
      let r : Record := { type := tlv.type, payload := wire e tlv, fits := hpayload ▸ hle }
      have hlength : tlv.length = r.length := by
        apply BitVec.eq_of_toInt_eq
        rw [r.length_toInt, ← hint, ← hpayload]
      refine ⟨r :: rs, .cons ⟨rfl, hlength, networkValue_eq htlv⟩ hencodes, ?_, ?_⟩
      · rw [format_cons, hformat, Record.bytes, ← hlength]
        rfl
      · rw [format_cons, List.length_append, r.bytes_length, List.map_cons, List.sum_cons, ← hsum, ← hint, ← hpayload]
        push_cast
        rfl

theorem PutCall.wellFormed {call : PutCall} (h : call.Fits e) : WellFormed
    { type := call.type, length := call.length, value := (call.value e).take (sizeT call.length),
      dataType := call.dataType } := by
  have hsize := sizeT_of_nonneg h.1
  have hfits : sizeT call.length ≤ (call.value e).length := by
    have hle := h.2
    omega
  constructor
  · exact h.1
  · rw [List.length_take, Nat.min_eq_left hfits]
  all_goals
    intro hkind
    rw [List.length_take, Nat.min_eq_left hfits]
    cases call <;> simp only [PutCall.dataType, reduceCtorEq] at hkind
    rfl

/-- The counter is the size of the records modulo 2^32, and a buffer is their encoding. -/
structure Sized (e : Endian) (box : Box) : Prop where
  tlvs : ∀ tlv ∈ box.tlvs, WellFormed tlv
  bytes : box.mSerializedBytes = BitVec.ofInt 32 box.total
  buffer : ∀ buffer, box.mSerializedBuffer = some buffer → box.total < 2 ^ 31 → buffer = encoding e box.tlvs

theorem sized_create (e : Endian) : Sized e tlvBoxCreate where
  tlvs := by simp [Box.tlvs, tlvBoxCreate, keyListCreate]
  bytes := rfl
  buffer := by simp [tlvBoxCreate]

theorem total_push (box : Box) (tlv : TlvT) : (box.push tlv).total = 4 + tlv.length.toInt + box.total := by
  simp [Box.total, Box.tlvs, Box.push]

theorem Sized.push (h : Sized e box) (hopen : box.mSerializedBuffer = none) (htlv : WellFormed tlv) :
    Sized e (box.push tlv) := by
  constructor
  · intro tlv' hmem
    rcases List.mem_cons.mp hmem with rfl | hmem
    · exact htlv
    · exact h.tlvs tlv' hmem
  · rw [total_push, Int.add_comm, BitVec.ofInt_add, ← h.bytes, BitVec.ofInt_add]
    have hlength : BitVec.ofInt 32 tlv.length.toInt = tlv.length.signExtend 32 := rfl
    rw [hlength]
    rfl
  · intro buffer hbuffer
    rw [Box.push, hopen] at hbuffer
    cases hbuffer

theorem Sized.toInt (h : Sized e box) (hlt : box.total < 2 ^ 31) :
    0 ≤ box.total ∧ box.mSerializedBytes.toNat = box.total.toNat ∧ box.mSerializedBytes.toInt = box.total := by
  obtain ⟨rs, -, -, hsum⟩ := exists_records e h.tlvs
  have hnonneg : 0 ≤ box.total := by
    rw [Box.total, ← hsum]
    omega
  have htoNat : box.mSerializedBytes.toNat = box.total.toNat := by
    rw [h.bytes, BitVec.toNat_ofInt, Int.emod_eq_of_lt hnonneg (by omega)]
  refine ⟨hnonneg, htoNat, ?_⟩
  rw [BitVec.toInt_eq_toNat_of_lt (by omega), htoNat]
  omega

/-- Serialising fills the buffer with the encoding of the records. -/
theorem Sized.serialize (h : Sized e box) (hopen : box.mSerializedBuffer = none) (hlt : box.total < 2 ^ 31)
    (heap : Nat → UInt8) :
    tlvBoxSerialize e heap box = some (0, { box with mSerializedBuffer := some (encoding e box.tlvs) }) ∧
      box.written e heap = List.range box.total.toNat ∧ box.finalOffset e heap = some box.total.toNat := by
  obtain ⟨hnonneg, htoNat, -⟩ := h.toInt hlt
  obtain ⟨rs, hencodes, hformat, hsum⟩ := exists_records e h.tlvs
  have hsize : (format rs).length = box.total.toNat := by
    rw [Box.total, ← hsum]
    omega
  have hblock : (malloc heap (format rs).length).length = (format rs).length := by simp [malloc]
  have hloop : serializeLoop e box.tlvs ([] : List UInt8).length ([] ++ malloc heap (format rs).length) = _ :=
    serializeLoop_records hencodes hblock.ge
  rw [List.nil_append, List.length_nil, Nat.zero_add, hsize] at hloop
  obtain ⟨hresult, hwritten⟩ := serializeTrace_eq e box.tlvs 0 (malloc heap box.total.toNat)
  refine ⟨?_, ?_, ?_⟩
  · rw [← hformat]
    exact serialize_records heap hopen hencodes (htoNat.trans hsize.symm)
  · rw [Box.written, htoNat, (hwritten _ _ hloop).2, Nat.sub_zero, List.range_eq_range']
  · rw [Box.finalOffset, htoNat, hresult, hloop]
    rfl

inductive BoxAction
  | put (call : PutCall)
  /-- `tlv_box_serialize`, with what is in the memory that it allocates. -/
  | serialize (heap : Nat → UInt8)

def boxes (e : Endian) : Machine Box BoxAction Int where
  init := tlvBoxCreate
  step box
    | .put call => (call.run e box).map fun r => (r.2, [r.1])
    | .serialize heap => (tlvBoxSerialize e heap box).map fun r => (r.2, [r.1])

def BoxAction.Fits (e : Endian) : BoxAction → Prop
  | .put call => call.Fits e
  | .serialize _ => True

theorem putCall_result {call : PutCall} {status : Int} (h : call.run e box = some (status, box')) :
    PutResult box call.type (call.value e) call.length call.dataType status box' := by
  rw [call.run_eq, putobject_eq_some_iff] at h
  exact h

theorem Sized.put (h : Sized e box) {call : PutCall} (hfits : call.Fits e) {status : Int}
    (hput : call.run e box = some (status, box')) : Sized e box' := by
  cases putCall_result hput with
  | frozen _ => exact h
  | present _ _ _ => exact h
  | stored hopen _ _ => exact h.push hopen (call.wellFormed hfits)

theorem serialize_keeps {heap : Nat → UInt8} {status : Int} (h : tlvBoxSerialize e heap box = some (status, box')) :
    box'.mList = box.mList ∧ box'.mSerializedBytes = box.mSerializedBytes := by
  rw [tlvBoxSerialize] at h
  split at h
  · cases h
    exact ⟨rfl, rfl⟩
  · simp only [Option.bind_eq_bind, Option.bind_eq_some_iff] at h
    obtain ⟨r, -, hbox⟩ := h
    cases hbox
    exact ⟨rfl, rfl⟩

theorem Sized.serialized (h : Sized e box) {heap : Nat → UInt8} {status : Int}
    (hserialize : tlvBoxSerialize e heap box = some (status, box')) : Sized e box' := by
  by_cases hfrozen : box.mSerializedBuffer.isSome
  · rw [tlvBoxSerialize, if_pos hfrozen] at hserialize
    cases hserialize
    exact h
  · have hopen : box.mSerializedBuffer = none := by simpa using hfrozen
    have hkept := serialize_keeps hserialize
    have htlvs : box'.tlvs = box.tlvs := by rw [Box.tlvs, Box.tlvs, hkept.1]
    have htotal : box'.total = box.total := by rw [Box.total, Box.total, htlvs]
    constructor
    · rw [htlvs]
      exact h.tlvs
    · rw [hkept.2, htotal]
      exact h.bytes
    · intro buffer hbuffer hlt
      rw [htotal] at hlt
      rw [(h.serialize hopen hlt heap).1] at hserialize
      cases hserialize
      exact (Option.some.inj hbuffer).symm

theorem steps_sized {statuses : List Int}
    (h : Steps (boxes e) (fun _ => BoxAction.Fits e) tlvBoxCreate statuses box) : Sized e box := by
  apply h.invariant (I := Sized e) _ (sized_create e)
  intro box action box' events hsized hfits hstep
  cases action with
  | put call =>
      obtain ⟨r, hput, hr⟩ := Option.map_eq_some_iff.mp hstep
      cases hr
      exact hsized.put hfits hput
  | serialize heap =>
      obtain ⟨r, hserialize, hr⟩ := Option.map_eq_some_iff.mp hstep
      cases hr
      exact hsized.serialized hserialize

structure SizeAndFreeze (e : Endian) (box : Box) : Prop where
  bytes : box.mSerializedBytes.toInt = box.total
  serialize : box.mSerializedBuffer = none → ∀ heap,
    tlvBoxSerialize e heap box = some (0, { box with mSerializedBuffer := some (encoding e box.tlvs) }) ∧
      box.written e heap = List.range box.mSerializedBytes.toNat ∧
      box.finalOffset e heap = some box.mSerializedBytes.toNat
  put : ∀ call : PutCall, call.Fits e → ∃ status box', call.run e box = some (status, box') ∧
    (status = 0 ∨ (status = -1 ∧ box'.mList = box.mList ∧ box'.mSerializedBytes = box.mSerializedBytes))
  frozen : ∀ buffer, box.mSerializedBuffer = some buffer → buffer = encoding e box.tlvs ∧
    (∀ call : PutCall, call.run e box = some (-1, box)) ∧ ∀ heap, tlvBoxSerialize e heap box = some (-1, box)

theorem putCall_isSome (box : Box) {call : PutCall} (h : call.Fits e) :
    ∃ status box', call.run e box = some (status, box') ∧ (status = 0 ∨ (status = -1 ∧ box' = box)) := by
  have hfits : sizeT call.length ≤ (call.value e).length := by
    have hsize := sizeT_of_nonneg h.1
    have hle := h.2
    omega
  by_cases hfrozen : box.mSerializedBuffer.isSome
  · exact ⟨-1, box, by rw [call.run_eq]; exact putobject_eq_some_iff.mpr (.frozen hfrozen), .inr ⟨rfl, rfl⟩⟩
  · have hopen : box.mSerializedBuffer = none := by simpa using hfrozen
    by_cases hkey : keyListFindKey box.mList call.type.toInt
    · exact ⟨-1, box, by rw [call.run_eq]; exact putobject_eq_some_iff.mpr (.present hopen hfits hkey),
        .inr ⟨rfl, rfl⟩⟩
    · exact ⟨0, _, by rw [call.run_eq]; exact putobject_eq_some_iff.mpr (.stored hopen hfits hkey), .inl rfl⟩

/-- After any puts and serialisations the counter is right, and a box that was serialised stays as it is. -/
theorem size_and_freeze (e : Endian) {box : Box} {statuses : List Int}
    (h : Steps (boxes e) (fun _ => BoxAction.Fits e) tlvBoxCreate statuses box) (hlt : box.total < 2 ^ 31) :
    SizeAndFreeze e box := by
  have hsized := steps_sized h
  obtain ⟨-, htoNat, htoInt⟩ := hsized.toInt hlt
  constructor
  · exact htoInt
  · intro hopen heap
    rw [htoNat]
    exact hsized.serialize hopen hlt heap
  · intro call hfits
    obtain ⟨status, box', hput, hcases⟩ := putCall_isSome box hfits
    refine ⟨status, box', hput, ?_⟩
    rcases hcases with rfl | ⟨rfl, rfl⟩
    · exact .inl rfl
    · exact .inr ⟨rfl, rfl, rfl⟩
  · intro buffer hbuffer
    have hfrozen : box.mSerializedBuffer.isSome := by simp [hbuffer]
    refine ⟨hsized.buffer buffer hbuffer hlt, ?_, ?_⟩
    · intro call
      rw [call.run_eq]
      exact putobject_eq_some_iff.mpr (.frozen hfrozen)
    · intro heap
      rw [tlvBoxSerialize, if_pos hfrozen]

instance (e : Endian) (call : PutCall) : Decidable (call.Fits e) := inferInstanceAs (Decidable (_ ∧ _))

instance (e : Endian) : (action : BoxAction) → Decidable (action.Fits e)
  | .put call => inferInstanceAs (Decidable (call.Fits e))
  | .serialize _ => inferInstanceAs (Decidable True)

def lateActions : List BoxAction :=
  [.put (.short 0x602 0x1234), .put (.bytes 0x602 [1, 2, 3] 3), .serialize fun _ => 0xa5, .put (.char 0x601 9)]

theorem size_and_freeze_lateActions : ∃ box, SizeAndFreeze .little box ∧
    Steps (boxes .little) (fun _ => BoxAction.Fits .little) tlvBoxCreate [0, -1, 0, -1] box ∧
    box.mSerializedBuffer = some [0x06, 0x02, 0, 2, 0x12, 0x34] := by
  have hrun : ∃ box statuses, Steps (boxes .little) (fun _ => BoxAction.Fits .little) tlvBoxCreate statuses box ∧
      decide (box.mSerializedBuffer = some [0x06, 0x02, 0, 2, 0x12, 0x34] ∧ box.total < 2 ^ 31 ∧
        statuses = [0, -1, 0, -1]) = true :=
    exists_steps_of_exec lateActions
      (p := fun r : Box × List Int =>
        r.1.mSerializedBuffer = some [0x06, 0x02, 0, 2, 0x12, 0x34] ∧ r.1.total < 2 ^ 31 ∧ r.2 = [0, -1, 0, -1])
      (by decide)
  obtain ⟨box, statuses, hsteps, htest⟩ := hrun
  obtain ⟨hbuffer, hlt, rfl⟩ := of_decide_eq_true htest
  exact ⟨box, size_and_freeze .little hsteps hlt, hsteps, hbuffer⟩

end Pc02.Tlv

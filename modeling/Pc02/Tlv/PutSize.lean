import Pc02.Tlv.Parse

/-!
# The size of what is put

`tlv_box_putobject` takes the length as a `short`. The size of a string and of a serialised box is
computed as a `size_t` and an `int`, and nothing looks at what is cut off.
-/

namespace Pc02.Tlv

open Pc02.Lib

variable {box box' : Box} {type length : BitVec 16} {value : List UInt8} {dataType : DataType} {status : Int}

inductive PutResult (box : Box) (type : BitVec 16) (value : List UInt8) (length : BitVec 16) (dataType : DataType) :
    Int → Box → Prop
  | frozen (h : box.mSerializedBuffer.isSome) : PutResult box type value length dataType (-1) box
  | present (hopen : box.mSerializedBuffer = none) (hfits : sizeT length ≤ value.length)
      (hkey : keyListFindKey box.mList type.toInt) : PutResult box type value length dataType (-1) box
  | stored (hopen : box.mSerializedBuffer = none) (hfits : sizeT length ≤ value.length)
      (hkey : ¬ keyListFindKey box.mList type.toInt) :
      PutResult box type value length dataType 0
        (box.push { type := type, length := length, value := value.take (sizeT length), dataType := dataType })

theorem putobject_eq_some_iff : tlvBoxPutobject box type value length dataType = some (status, box') ↔
    PutResult box type value length dataType status box' := by
  rw [tlvBoxPutobject]
  by_cases hfrozen : box.mSerializedBuffer.isSome
  · rw [if_pos hfrozen]
    constructor
    · intro h
      cases h
      exact .frozen hfrozen
    · intro h
      cases h with
      | frozen _ => rfl
      | present hopen _ _ => simp [hopen] at hfrozen
      | stored hopen _ _ => simp [hopen] at hfrozen
  · have hopen : box.mSerializedBuffer = none := by simpa using hfrozen
    rw [if_neg hfrozen, memdup]
    by_cases hfits : sizeT length ≤ value.length
    · by_cases hkey : keyListFindKey box.mList type.toInt
      · simp only [if_pos hfits, Option.bind_eq_bind, Option.bind_some, keyListAdd, if_pos hkey]
        constructor
        · intro h
          cases h
          exact .present hopen hfits hkey
        · intro h
          cases h with
          | frozen h => exact absurd h hfrozen
          | present _ _ _ => rfl
          | stored _ _ h => exact absurd hkey h
      · simp only [if_pos hfits, Option.bind_eq_bind, Option.bind_some, keyListAdd, if_neg hkey]
        constructor
        · intro h
          cases h
          exact .stored hopen hfits hkey
        · intro h
          cases h with
          | frozen h => exact absurd h hfrozen
          | present _ _ h => exact absurd h hkey
          | stored _ _ _ => rfl
    · simp only [if_neg hfits, Option.bind_eq_bind, Option.bind_none, reduceCtorEq, false_iff]
      intro h
      cases h with
      | frozen h => exact hfrozen h
      | present _ h _ => exact hfits h
      | stored _ h _ => exact hfits h

structure SerializedBox where
  box : Box
  buffer : List UInt8
  serialized : box.mSerializedBuffer = some buffer
  size : box.mSerializedBytes.toNat = buffer.length

theorem serializeLoop_length {e : Endian} {tlvs : List TlvT} {offset offset' : Nat} {buffer buffer' : List UInt8}
    (h : serializeLoop e tlvs offset buffer = some (offset', buffer')) : buffer'.length = buffer.length := by
  induction tlvs generalizing offset buffer with
  | nil =>
      cases h
      rfl
  | cons tlv tlvs ih =>
      simp only [serializeLoop, Option.bind_eq_bind, Option.bind_eq_some_iff] at h
      obtain ⟨b1, h1, b2, h2, t, -, b3, h3, hrest⟩ := h
      rw [ih hrest, (memcpy_spec h3).1, (memcpy_spec h2).1, (memcpy_spec h1).1]

theorem serialized_of_serialize {e : Endian} {heap : Nat → UInt8}
    (h : tlvBoxSerialize e heap box = some (0, box')) : ∃ s : SerializedBox, s.box = box' := by
  rw [tlvBoxSerialize] at h
  split at h
  · cases h
  · simp only [Option.bind_eq_bind, Option.bind_eq_some_iff] at h
    obtain ⟨⟨offset, buffer⟩, hloop, hbox⟩ := h
    cases hbox
    have hlength := serializeLoop_length hloop
    rw [malloc, List.length_map, List.length_range] at hlength
    exact ⟨⟨{ box with mSerializedBuffer := some buffer }, buffer, rfl, hlength.symm⟩, rfl⟩

theorem serialized_of_parse {e : Endian} {buffer : List UInt8} {buffersize : BitVec 32}
    (h : tlvBoxParse e buffer buffersize = some box) : ∃ s : SerializedBox, s.box = box := by
  simp only [tlvBoxParse, Option.bind_eq_bind, Option.bind_eq_some_iff, memdup] at h
  obtain ⟨cached, hcached, parsed, -, hbox⟩ := h
  cases hbox
  split at hcached
  · rename_i hle
    cases hcached
    refine ⟨⟨{ parsed with mSerializedBuffer := some (buffer.take buffersize.toNat), mSerializedBytes := buffersize },
      buffer.take buffersize.toNat, rfl, ?_⟩, rfl⟩
    rw [List.length_take, Nat.min_eq_left hle]
  · cases hcached

inductive Given
  | string (value : List UInt8) (nulFree : 0 ∉ value)
  | object (object : SerializedBox)

namespace Given

def bytes : Given → List UInt8
  | .string value _ => value ++ [0]
  | .object inner => inner.buffer

def put (box : Box) (type : BitVec 16) : Given → Option (Int × Box)
  | .string value _ => tlvBoxPutString box type value
  | .object inner => tlvBoxPutObject box type inner.box

def kind : Given → DataType
  | .string _ _ => .string
  | .object _ => .object

/-- Both are the same call, with the size modulo 2^16. -/
theorem put_eq (given : Given) (box : Box) (type : BitVec 16) : given.put box type =
    tlvBoxPutobject box type given.bytes (BitVec.ofNat 16 given.bytes.length) given.kind := by
  cases given with
  | string value nulFree => simp [put, bytes, kind, tlvBoxPutString]
  | object inner =>
      have hlength : inner.box.mSerializedBytes.setWidth 16 = BitVec.ofNat 16 inner.buffer.length := by
        rw [← inner.size]
        exact BitVec.eq_of_toNat_eq (by simp)
      simp [put, bytes, kind, tlvBoxPutObject, inner.serialized, hlength]

end Given

/-- A call that stored the whole value, or left the box as it was. -/
def StoredWhole (box : Box) (type : BitVec 16) (given : Given) : Prop :=
  ∃ status box', given.put box type = some (status, box') ∧
    (status = 0 → ∃ tlv, keyListGet box'.mList type.toInt = some tlv ∧ tlv.length.toInt = given.bytes.length ∧
      tlv.value = given.bytes) ∧
    (status ≠ 0 → box' = box)

theorem keyListGet_push (box : Box) (tlv : TlvT) : keyListGet (box.push tlv).mList tlv.type.toInt = some tlv := by
  simp [keyListGet, keyListGetNode, Box.push]

theorem toInt_le (length : BitVec 16) : length.toInt ≤ 32767 := Int.le_of_lt_add_one BitVec.toInt_lt

/-- The cases in which a value is stored whole, or not at all. -/
theorem storedWhole_iff (box : Box) (type : BitVec 16) (given : Given) : StoredWhole box type given ↔
    box.mSerializedBuffer.isSome ∨ given.bytes.length ≤ 32767 ∨
      (keyListFindKey box.mList type.toInt ∧ sizeT (BitVec.ofNat 16 given.bytes.length) ≤ given.bytes.length) := by
  constructor
  · rintro ⟨status, box', hput, hstored, -⟩
    rw [given.put_eq, putobject_eq_some_iff] at hput
    cases hput with
    | frozen h => exact .inl h
    | present _ hfits hkey => exact .inr (.inr ⟨hkey, hfits⟩)
    | stored hopen hfits hkey =>
        obtain ⟨tlv, hget, hlength, -⟩ := hstored rfl
        have hle := toInt_le tlv.length
        exact .inr (.inl (by omega))
  · intro h
    by_cases hfrozen : box.mSerializedBuffer.isSome
    · refine ⟨-1, box, ?_, by simp, fun _ => rfl⟩
      rw [given.put_eq, putobject_eq_some_iff]
      exact .frozen hfrozen
    · have hopen : box.mSerializedBuffer = none := by simpa using hfrozen
      have hfits : sizeT (BitVec.ofNat 16 given.bytes.length) ≤ given.bytes.length := by
        rcases h with h | h | h
        · exact absurd h hfrozen
        · exact (sizeT_ofNat h).le
        · exact h.2
      by_cases hkey : keyListFindKey box.mList type.toInt
      · refine ⟨-1, box, ?_, by simp, fun _ => rfl⟩
        rw [given.put_eq, putobject_eq_some_iff]
        exact .present hopen hfits hkey
      · have hle : given.bytes.length ≤ 32767 := by
          rcases h with h | h | h
          · exact absurd h hfrozen
          · exact h
          · exact absurd h.1 hkey
        have hsize := sizeT_ofNat hle
        have hput : tlvBoxPutobject box type _ _ given.kind = _ := putobject_eq_some_iff.mpr (.stored hopen hfits hkey)
        refine ⟨0, _, (given.put_eq box type).trans hput, fun _ => ⟨_, keyListGet_push box _, ?_, ?_⟩, by simp⟩
        · rw [toInt_eq_sizeT (by dsimp only; omega), hsize]
        · rw [hsize, List.take_length]

def longString : Given := .string (List.replicate 65535 97) fun h => absurd (List.eq_of_mem_replicate h) (by decide)

theorem longString_length : longString.bytes.length = 65536 := by
  rw [longString, Given.bytes, List.length_append, List.length_replicate, List.length_singleton]

/-- The call succeeds and stores a record of no bytes. -/
theorem longString_not_stored :
    (∃ box' tlv, longString.put tlvBoxCreate 0x607 = some (0, box') ∧
      keyListGet box'.mList (0x607 : BitVec 16).toInt = some tlv ∧ tlv.length = 0 ∧ tlv.value = []) ∧
      ¬ StoredWhole tlvBoxCreate 0x607 longString := by
  have hlength : BitVec.ofNat 16 longString.bytes.length = 0 := by
    rw [longString_length]
    rfl
  have hresult : PutResult tlvBoxCreate 0x607 longString.bytes 0 .string 0
      (tlvBoxCreate.push { type := 0x607, length := 0, value := [], dataType := .string }) :=
    .stored rfl (Nat.zero_le _) (by decide)
  have hput : longString.put tlvBoxCreate 0x607 = some (0, tlvBoxCreate.push
      { type := 0x607, length := 0, value := [], dataType := .string }) := by
    rw [longString.put_eq, hlength]
    exact putobject_eq_some_iff.mpr hresult
  refine ⟨⟨_, _, hput, keyListGet_push tlvBoxCreate _, rfl, rfl⟩, ?_⟩
  rintro ⟨status, box', hput', hstored, -⟩
  obtain ⟨rfl, rfl⟩ : 0 = status ∧ _ = box' := by
    rw [hput] at hput'
    exact Prod.mk.inj (Option.some.inj hput')
  obtain ⟨tlv, -, hsize, -⟩ := hstored rfl
  have hle := toInt_le tlv.length
  rw [longString_length] at hsize
  omega

end Pc02.Tlv

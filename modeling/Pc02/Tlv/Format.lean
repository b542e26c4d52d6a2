import Pc02.Tlv.Box

/-!
# The serialised format

A serialised box is one record after the other: type and length, most significant byte first, and the
payload. Serialising writes the records of a box.
-/

namespace Pc02.Tlv

open Pc02.Lib

/-- A record of the format. Lengths are signed, so a payload has less than 2^15 bytes. -/
structure Record where
  type : BitVec 16
  payload : List UInt8
  fits : payload.length ≤ 32767

namespace Record

def length (r : Record) : BitVec 16 := BitVec.ofNat 16 r.payload.length

def bytes (r : Record) : List UInt8 := Endian.big.store r.type ++ Endian.big.store r.length ++ r.payload

def raw (r : Record) : TlvT := { type := r.type, length := r.length, value := r.payload, dataType := .bytes }

end Record

def format (rs : List Record) : List UInt8 := rs.flatMap Record.bytes

theorem sizeT_ofNat {n : Nat} (h : n ≤ 32767) : sizeT (BitVec.ofNat 16 n) = n := by
  have hmsb : (BitVec.ofNat 16 n).msb = false := by
    rw [BitVec.msb_eq_false_iff_two_mul_lt, BitVec.toNat_ofNat]
    omega
  rw [sizeT, BitVec.signExtend_eq_setWidth_of_msb_false hmsb, BitVec.toNat_setWidth, BitVec.toNat_ofNat]
  omega

@[simp] theorem Record.sizeT_length (r : Record) : sizeT r.length = r.payload.length := sizeT_ofNat r.fits

theorem Record.bytes_length (r : Record) : r.bytes.length = 4 + r.payload.length := by
  simp [Record.bytes]
  omega

theorem format_cons (r : Record) (rs : List Record) : format (r :: rs) = r.bytes ++ format rs := rfl

theorem length_le_format (rs : List Record) : rs.length ≤ (format rs).length := by
  induction rs with
  | nil => simp
  | cons r rs ih =>
      rw [format_cons, List.length_append, r.bytes_length, List.length_cons]
      omega

def Box.push (box : Box) (tlv : TlvT) : Box :=
  { box with
    mList := { count := box.mList.count + 1, nodes := (tlv.type.toInt, tlv) :: box.mList.nodes }
    mSerializedBytes := box.mSerializedBytes + (4 + tlv.length.signExtend 32) }

theorem putobject_absent {box : Box} (r : Record) (rest : List UInt8) (dataType : DataType)
    (hopen : box.mSerializedBuffer = none) (habsent : r.type.toInt ∉ box.mList.nodes.map Prod.fst) :
    tlvBoxPutobject box r.type (r.payload ++ rest) r.length dataType =
      some (0, box.push { type := r.type, length := r.length, value := r.payload, dataType := dataType }) := by
  simp [tlvBoxPutobject, hopen, memdup_append, keyListAdd_absent habsent, Box.push]

structure Encodes (e : Endian) (tlv : TlvT) (r : Record) : Prop where
  type : tlv.type = r.type
  length : tlv.length = r.length
  value : networkValue e tlv = some r.payload

/-- Serialising writes record after record behind what is written. -/
theorem serializeLoop_records {e : Endian} {tlvs : List TlvT} {rs : List Record}
    (h : List.Forall₂ (Encodes e) tlvs rs) {written rest : List UInt8} (hfits : (format rs).length ≤ rest.length) :
    serializeLoop e tlvs written.length (written ++ rest) =
      some (written.length + (format rs).length, written ++ format rs ++ rest.drop (format rs).length) := by
  induction h generalizing written rest with
  | nil => simp [serializeLoop, format]
  | cons htlv htlvs ih =>
      rename_i tlv r tlvs rs
      rw [format_cons, List.length_append, r.bytes_length] at hfits
      have htype : memcpy (written ++ rest) written.length (e.store (e.hton tlv.type)) 2 =
          some (written ++ Endian.big.store r.type ++ rest.drop 2) := by
        rw [e.store_hton rfl, htlv.type]
        exact memcpy_behind rfl (by simp) (by omega)
      have hlength : memcpy (written ++ Endian.big.store r.type ++ rest.drop 2) (written.length + 2)
          (e.store (e.hton tlv.length)) 2 =
            some (written ++ Endian.big.store r.type ++ Endian.big.store r.length ++ rest.drop 4) := by
        rw [e.store_hton rfl, htlv.length, memcpy_behind (by simp) (by simp) (by rw [List.length_drop]; omega),
          List.drop_drop]
      have hvalue : memcpy (written ++ Endian.big.store r.type ++ Endian.big.store r.length ++ rest.drop 4)
          (written.length + 4) r.payload (sizeT tlv.length) =
            some (written ++ r.bytes ++ rest.drop r.bytes.length) := by
        rw [htlv.length, r.sizeT_length,
          memcpy_behind (by simp) rfl (by rw [List.length_drop]; omega), List.drop_drop, r.bytes_length]
        simp [Record.bytes]
      have hlen : written.length + 4 + sizeT tlv.length = (written ++ r.bytes).length := by
        rw [htlv.length, r.sizeT_length, List.length_append, r.bytes_length]
        omega
      have hrest : (format rs).length ≤ (rest.drop r.bytes.length).length := by
        rw [List.length_drop, r.bytes_length]
        omega
      simp only [serializeLoop, htype, hlength, htlv.value, hvalue, hlen, Option.bind_eq_bind, Option.bind_some]
      rw [ih hrest]
      simp [format_cons, Nat.add_assoc]

theorem serialize_records {e : Endian} (heap : Nat → UInt8) {box : Box} {rs : List Record}
    (hopen : box.mSerializedBuffer = none) (h : List.Forall₂ (Encodes e) (box.mList.nodes.map Prod.snd) rs)
    (hsize : box.mSerializedBytes.toNat = (format rs).length) :
    tlvBoxSerialize e heap box = some (0, { box with mSerializedBuffer := some (format rs) }) := by
  have hblock : (malloc heap (format rs).length).length = (format rs).length := by simp [malloc]
  have hloop : serializeLoop e _ ([] : List UInt8).length ([] ++ malloc heap (format rs).length) = _ :=
    serializeLoop_records h hblock.ge
  rw [List.nil_append, List.nil_append, List.drop_of_length_le hblock.le, List.append_nil, List.length_nil] at hloop
  simp [tlvBoxSerialize, hopen, hsize, hloop]

theorem deref_store (e e' : Endian) {w : Nat} (v : BitVec w) (rest : List UInt8) :
    deref e w (e'.store v ++ rest) = some (e.load w (e'.store v)) := by
  rw [deref, if_pos (by simp), List.take_left' (e'.store_length v)]

theorem foldl_push_nodes (tlvs : List TlvT) (box : Box) :
    (tlvs.foldl Box.push box).mList.nodes = (tlvs.map fun tlv => (tlv.type.toInt, tlv)).reverse ++ box.mList.nodes := by
  induction tlvs generalizing box with
  | nil => rfl
  | cons tlv tlvs ih => simp [ih, Box.push]

theorem foldl_push_count (tlvs : List TlvT) (box : Box) :
    (tlvs.foldl Box.push box).mList.count = box.mList.count + tlvs.length := by
  induction tlvs generalizing box with
  | nil => rfl
  | cons tlv tlvs ih =>
      simp only [List.foldl_cons, ih, Box.push, List.length_cons]
      omega

theorem foldl_push_buffer (tlvs : List TlvT) (box : Box) :
    (tlvs.foldl Box.push box).mSerializedBuffer = box.mSerializedBuffer := by
  induction tlvs generalizing box with
  | nil => rfl
  | cons tlv tlvs ih => exact ih _

theorem format_append (rs rs' : List Record) : format (rs ++ rs') = format rs ++ format rs' := List.flatMap_append

theorem format_reverse_length (rs : List Record) : (format rs.reverse).length = (format rs).length := by
  induction rs with
  | nil => rfl
  | cons r rs ih =>
      rw [List.reverse_cons, format_append, List.length_append, ih, format_cons, format_cons, List.length_append,
        List.length_append]
      simp only [format, List.flatMap_nil, List.length_nil]
      omega

theorem foldl_push_bytes {e : Endian} {tlvs : List TlvT} {rs : List Record} (h : List.Forall₂ (Encodes e) tlvs rs)
    {box : Box} (hlt : box.mSerializedBytes.toNat + (format rs).length < 2 ^ 32) :
    (tlvs.foldl Box.push box).mSerializedBytes.toNat = box.mSerializedBytes.toNat + (format rs).length := by
  induction h generalizing box with
  | nil => simp [format]
  | cons htlv htlvs ih =>
      rename_i tlv r tlvs rs
      rw [format_cons, List.length_append, r.bytes_length] at hlt ⊢
      have hlen : (tlv.length.signExtend 32).toNat = r.payload.length := by
        rw [htlv.length]
        exact r.sizeT_length
      have hpush : (box.push tlv).mSerializedBytes.toNat = box.mSerializedBytes.toNat + (4 + r.payload.length) := by
        simp only [Box.push, BitVec.toNat_add, hlen, show (4 : BitVec 32).toNat = 4 from rfl]
        omega
      rw [List.foldl_cons, ih (by omega), hpush]
      omega

end Pc02.Tlv

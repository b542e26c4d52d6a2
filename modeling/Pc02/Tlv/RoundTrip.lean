import Pc02.Tlv.Parse

/-!
# Round trip

A tree of puts, in which an object is a box that is built and serialised first. Building a box from
it, serialising and parsing gives a box from which every getter returns what was put, at every depth,
and whatever the byte orders of the two hosts are.
-/

namespace Pc02.Tlv

open Pc02.Lib

/-- A call of a put function. An object is given by the puts that it is built with. -/
inductive Put
  | char (type : BitVec 16) (value : UInt8)
  | short (type : BitVec 16) (value : BitVec 16)
  | int (type : BitVec 16) (value : BitVec 32)
  | long (type : BitVec 16) (value : BitVec 32)
  | string (type : BitVec 16) (value : List UInt8)
  | bytes (type : BitVec 16) (value : List UInt8)
  | object (type : BitVec 16) (puts : List Put)

def Put.type : Put → BitVec 16
  | .char type _ | .short type _ | .int type _ | .long type _ | .string type _ | .bytes type _ | .object type _ => type

mutual

def Put.call (e : Endian) (heap : Nat → UInt8) : Put → Box → Option (List Int × Box)
  | .char type value, box => (tlvBoxPutChar box type value).map fun r => ([r.1], r.2)
  | .short type value, box => (tlvBoxPutShort e box type value).map fun r => ([r.1], r.2)
  | .int type value, box => (tlvBoxPutInt e box type value).map fun r => ([r.1], r.2)
  | .long type value, box => (tlvBoxPutLong e box type value).map fun r => ([r.1], r.2)
  | .string type value, box => (tlvBoxPutString box type value).map fun r => ([r.1], r.2)
  | .bytes type value, box =>
      (tlvBoxPutBytes box type value (BitVec.ofNat 16 value.length)).map fun r => ([r.1], r.2)
  | .object type puts, box => do
      let (statuses, object) ← callAll e heap puts tlvBoxCreate
      let (status, object) ← tlvBoxSerialize e heap object
      let (status', box) ← tlvBoxPutObject box type object
      some (statuses ++ [status, status'], box)

def callAll (e : Endian) (heap : Nat → UInt8) : List Put → Box → Option (List Int × Box)
  | [], box => some ([], box)
  | put :: puts, box => do
      let (statuses, box) ← put.call e heap box
      let (statuses', box) ← callAll e heap puts box
      some (statuses ++ statuses', box)

end

mutual

def Put.size : Put → Nat
  | .char _ _ => 1
  | .short _ _ => 2
  | .int _ _ => 4
  | .long _ _ => 4
  | .string _ value => value.length + 1
  | .bytes _ value => value.length
  | .object _ puts => totalSize puts

def totalSize : List Put → Nat
  | [] => 0
  | put :: puts => 4 + put.size + totalSize puts

end

mutual

def Put.Ok : Put → Prop
  | .string _ value => 0 ∉ value ∧ value.length ≤ 32766
  | .bytes _ value => value.length ≤ 32767
  | .object _ puts => totalSize puts ≤ 32767 ∧ (puts.map Put.type).Nodup ∧ AllOk puts
  | _ => True

def AllOk : List Put → Prop
  | [] => True
  | put :: puts => put.Ok ∧ AllOk puts

end

def HasTypes (box : Box) (puts : List Put) : Prop :=
  box.mList.count = puts.length ∧
    ∀ key, keyListFindKey box.mList key ↔ key ∈ puts.map fun put => put.type.toInt

/-- The getters for bytes return a value and its length, into any buffer that is large enough. -/
def ReturnsBytes (get : Box → BitVec 16 → BitVec 16 → Option (Option (List UInt8 × BitVec 16))) (box : Box)
    (type : BitVec 16) (value : List UInt8) : Prop :=
  tlvBoxGetBytesPtr box type = some (some (value, BitVec.ofNat 16 value.length)) ∧
    ∀ length : BitVec 16, value.length ≤ length.toInt → get box type length =
      some (some (value ++ List.replicate (length.toNat - value.length) 0, BitVec.ofNat 16 value.length))

mutual

/-- The getter that belongs to a put returns what was put. -/
def Put.Returned (e : Endian) : Put → Box → Prop
  | .char type value, box => tlvBoxGetChar box type = some (some value)
  | .short type value, box => tlvBoxGetShort e box type = some (some value)
  | .int type value, box => tlvBoxGetInt e box type = some (some value)
  | .long type value, box => tlvBoxGetLong e box type = some (some value)
  | .string type value, box => ReturnsBytes tlvBoxGetString box type (value ++ [0])
  | .bytes type value, box => ReturnsBytes tlvBoxGetBytes box type value
  | .object type puts, box =>
      ∃ object, tlvBoxGetObject e box type = some (some object) ∧ HasTypes object puts ∧ AllReturned e puts object

def AllReturned (e : Endian) : List Put → Box → Prop
  | [], _ => True
  | put :: puts, box => put.Returned e box ∧ AllReturned e puts box

end

mutual

def Put.payload : Put → List UInt8
  | .char _ value => [value]
  | .short _ value => Endian.big.store value
  | .int _ value => Endian.big.store value
  | .long _ value => Endian.big.store value
  | .string _ value => value ++ [0]
  | .bytes _ value => value
  | .object _ puts => format (records puts).reverse

/-- The records of the puts; a value that is too long for one is cut. -/
def records : List Put → List Record
  | [] => []
  | put :: puts =>
      { type := put.type, payload := put.payload.take 32767, fits := List.length_take_le _ _ } :: records puts

end

def Put.record (put : Put) : Record :=
  { type := put.type, payload := put.payload.take 32767, fits := List.length_take_le _ _ }

theorem records_eq (puts : List Put) : records puts = puts.map Put.record := by
  induction puts with
  | nil => simp [records]
  | cons put puts ih =>
      rw [records, ih]
      rfl

mutual

theorem Put.payload_length : (put : Put) → put.Ok → put.payload.length = put.size ∧ put.size ≤ 32767
  | .char _ _, _ => by simp [Put.payload, Put.size]
  | .short _ _, _ => by simp [Put.payload, Put.size]
  | .int _ _, _ => by simp [Put.payload, Put.size]
  | .long _ _, _ => by simp [Put.payload, Put.size]
  | .string _ _, h => by
      rw [Put.Ok] at h
      simp only [Put.payload, Put.size, List.length_append, List.length_singleton, true_and]
      omega
  | .bytes _ _, h => by
      rw [Put.Ok] at h
      simpa only [Put.payload, Put.size, true_and] using h
  | .object _ puts, h => by
      rw [Put.Ok] at h
      rw [Put.payload, Put.size]
      exact ⟨format_length puts h.2.2, h.1⟩

theorem format_length : (puts : List Put) → AllOk puts → (format (records puts).reverse).length = totalSize puts
  | [], _ => by simp [records, format, totalSize]
  | put :: puts, h => by
      rw [AllOk] at h
      have hput := put.payload_length h.1
      have hputs := format_length puts h.2
      rw [records, List.reverse_cons, format_append, List.length_append, hputs, totalSize, format_cons,
        List.length_append, Record.bytes_length, List.length_take]
      simp only [format, List.flatMap_nil, List.length_nil]
      omega

end

theorem Put.record_payload {put : Put} (h : put.Ok) : put.record.payload = put.payload := by
  obtain ⟨hlen, hle⟩ := put.payload_length h
  exact List.take_of_length_le (by omega)

theorem Put.record_length {put : Put} (h : put.Ok) : put.record.length = BitVec.ofNat 16 put.size := by
  rw [Record.length, put.record_payload h, (put.payload_length h).1]

theorem putobject_value (value : List UInt8) (dataType : DataType) {box : Box} {type : BitVec 16} {n : Nat}
    (hopen : box.mSerializedBuffer = none) (habsent : type.toInt ∉ box.mList.nodes.map Prod.fst)
    (hn : value.length = n) (hle : n ≤ 32767) :
    tlvBoxPutobject box type value (BitVec.ofNat 16 n) dataType =
      some (0, box.push { type := type, length := BitVec.ofNat 16 n, value := value, dataType := dataType }) := by
  subst hn
  have hput := putobject_absent { type := type, payload := value, fits := hle } [] dataType hopen habsent
  rwa [List.append_nil] at hput

theorem deref_stored (e : Endian) {w : Nat} (hw : w = 8 * (w / 8)) (v : BitVec w) :
    (deref e w (e.store v)).map (fun t => e.store (e.hton t)) = some (Endian.big.store v) := by
  have hderef := deref_store e e v []
  rw [List.append_nil] at hderef
  rw [hderef, Option.map_some, e.load_store hw, e.store_hton hw]

/-- A box that holds the puts is serialised to their records, the last put first. -/
theorem serialize_puts {e : Endian} {tlvs : List TlvT} {puts : List Put} (heap : Nat → UInt8)
    (h : List.Forall₂ (Encodes e) tlvs (records puts)) (hok : AllOk puts) (hsize : totalSize puts < 2 ^ 32) :
    ∃ box, tlvBoxSerialize e heap (tlvs.foldl Box.push tlvBoxCreate) = some (0, box) ∧
      box.mSerializedBuffer = some (format (records puts).reverse) ∧ box.mSerializedBytes.toNat = totalSize puts := by
  have hlen := format_length puts hok
  rw [format_reverse_length] at hlen
  have hbytes : (tlvs.foldl Box.push tlvBoxCreate).mSerializedBytes.toNat = totalSize puts := by
    have hpush : (tlvs.foldl Box.push tlvBoxCreate).mSerializedBytes.toNat = _ :=
      foldl_push_bytes h (by simp [tlvBoxCreate]; omega)
    simpa [tlvBoxCreate, hlen] using hpush
  have hnodes : (tlvs.foldl Box.push tlvBoxCreate).mList.nodes.map Prod.snd = tlvs.reverse := by
    simp [foldl_push_nodes, tlvBoxCreate, keyListCreate, Function.comp_def]
  have hopen : (tlvs.foldl Box.push tlvBoxCreate).mSerializedBuffer = none := foldl_push_buffer _ _
  have hencodes : List.Forall₂ (Encodes e) ((tlvs.foldl Box.push tlvBoxCreate).mList.nodes.map Prod.snd)
      (records puts).reverse := by
    rw [hnodes]
    exact List.rel_reverse h
  exact ⟨_, serialize_records heap hopen hencodes (by rw [hbytes, format_reverse_length, hlen]), rfl, hbytes⟩

def Put.Stores (e : Endian) (heap : Nat → UInt8) (put : Put) (box : Box) : Prop :=
  ∃ statuses tlv, put.call e heap box = some (statuses, box.push tlv) ∧ (∀ status ∈ statuses, status = 0) ∧
    Encodes e tlv put.record

theorem stores_value (value : List UInt8) (dataType : DataType) {e : Endian} {heap : Nat → UInt8} {put : Put}
    {box : Box} (hok : put.Ok) (hopen : box.mSerializedBuffer = none)
    (habsent : put.type.toInt ∉ box.mList.nodes.map Prod.fst) (hsize : value.length = put.size)
    (hcall : put.call e heap box =
      (tlvBoxPutobject box put.type value (BitVec.ofNat 16 put.size) dataType).map fun r => ([r.1], r.2))
    (hvalue : ∀ length, networkValue e { type := put.type, length := length, value := value, dataType := dataType } =
      some put.payload) : put.Stores e heap box := by
  have hput := putobject_value value dataType hopen habsent hsize (put.payload_length hok).2
  refine ⟨[0], _, by rw [hcall, hput]; rfl, by simp, ?_⟩
  constructor
  · rfl
  · exact (put.record_length hok).symm
  · rw [hvalue, put.record_payload hok]

mutual

theorem Put.stores (e : Endian) (heap : Nat → UInt8) : (put : Put) → put.Ok → (box : Box) →
    box.mSerializedBuffer = none → put.type.toInt ∉ box.mList.nodes.map Prod.fst → put.Stores e heap box
  | .char type value, hok, box, hopen, habsent => by
      apply stores_value [value] .char hok hopen habsent
      · rfl
      · rw [Put.call]; rfl
      · intro length; rfl
  | .short type value, hok, box, hopen, habsent => by
      apply stores_value (e.store value) .short hok hopen habsent
      · simp [Put.size]
      · rw [Put.call]; rfl
      · intro length
        exact deref_stored e rfl value
  | .int type value, hok, box, hopen, habsent => by
      apply stores_value (e.store value) .int hok hopen habsent
      · simp [Put.size]
      · rw [Put.call]; rfl
      · intro length
        exact deref_stored e rfl value
  | .long type value, hok, box, hopen, habsent => by
      apply stores_value (e.store value) .long hok hopen habsent
      · simp [Put.size]
      · rw [Put.call]; rfl
      · intro length
        exact deref_stored e rfl value
  | .string type value, hok, box, hopen, habsent => by
      apply stores_value (value ++ [0]) .string hok hopen habsent
      · simp [Put.size]
      · rw [Put.call]; rfl
      · intro length; rfl
  | .bytes type value, hok, box, hopen, habsent => by
      apply stores_value value .bytes hok hopen habsent
      · rfl
      · rw [Put.call]; rfl
      · intro length; rfl
  | .object type puts, hok, box, hopen, habsent => by
      have hputs := hok
      rw [Put.Ok] at hputs
      obtain ⟨hsize, hnodup, hall⟩ := hputs
      obtain ⟨statuses, tlvs, hcalls, hzeros, hencodes⟩ :=
        callAll_stores e heap puts hall hnodup tlvBoxCreate rfl (by simp [tlvBoxCreate, keyListCreate])
      obtain ⟨object, hserialize, hbuffer, hbytes⟩ := serialize_puts heap hencodes hall (by omega)
      have hlength : object.mSerializedBytes.setWidth 16 = BitVec.ofNat 16 (totalSize puts) := by
        apply BitVec.eq_of_toNat_eq
        rw [BitVec.toNat_setWidth, hbytes, BitVec.toNat_ofNat]
      let tlv : TlvT :=
        { type := type, length := BitVec.ofNat 16 (totalSize puts), value := format (records puts).reverse,
          dataType := .object }
      have hput : tlvBoxPutobject box type tlv.value tlv.length .object = some (0, box.push tlv) :=
        putobject_value _ _ hopen habsent (format_length puts hall) hsize
      have hcall : (Put.object type puts).call e heap box = some (statuses ++ [0, 0], box.push tlv) := by
        rw [Put.call, hcalls]
        simp only [Option.bind_eq_bind, Option.bind_some, hserialize, tlvBoxPutObject, hbuffer, Option.getD_some,
          hlength]
        rw [hput, Option.bind_some]
      refine ⟨_, _, hcall, ?_, ?_⟩
      · intro status hmem
        rcases List.mem_append.mp hmem with hmem | hmem
        · exact hzeros status hmem
        · simpa using hmem
      · constructor
        · rfl
        · rw [Put.record_length hok, Put.size]
        · rw [Put.record_payload hok, Put.payload]
          rfl

theorem callAll_stores (e : Endian) (heap : Nat → UInt8) : (puts : List Put) → AllOk puts →
    (puts.map Put.type).Nodup → (box : Box) → box.mSerializedBuffer = none →
    (∀ put ∈ puts, put.type.toInt ∉ box.mList.nodes.map Prod.fst) →
    ∃ statuses tlvs, callAll e heap puts box = some (statuses, tlvs.foldl Box.push box) ∧
      (∀ status ∈ statuses, status = 0) ∧ List.Forall₂ (Encodes e) tlvs (records puts)
  | [], _, _, box, _, _ => ⟨[], [], by rw [callAll]; rfl, by simp, by rw [records]; exact .nil⟩
  | put :: puts, hok, hnodup, box, hopen, habsent => by
      rw [AllOk] at hok
      rw [List.map_cons, List.nodup_cons] at hnodup
      obtain ⟨statuses, tlv, hcall, hzero, hencodes⟩ := put.stores e heap hok.1 box hopen (habsent put (by simp))
      have habsent' : ∀ put' ∈ puts, put'.type.toInt ∉ (box.push tlv).mList.nodes.map Prod.fst := by
        intro put' hmem
        rw [Box.push, List.map_cons, List.mem_cons, not_or, hencodes.type]
        constructor
        · intro heq
          exact hnodup.1 (List.mem_map.mpr ⟨put', hmem, BitVec.eq_of_toInt_eq heq⟩)
        · exact habsent put' (by simp [hmem])
      obtain ⟨statuses', tlvs, hcalls, hzeros, hencodes'⟩ :=
        callAll_stores e heap puts hok.2 hnodup.2 (box.push tlv) hopen habsent'
      refine ⟨statuses ++ statuses', tlv :: tlvs, ?_, ?_, ?_⟩
      · rw [callAll, hcall]
        simp [hcalls]
      · intro status hmem
        rcases List.mem_append.mp hmem with hmem | hmem
        · exact hzero status hmem
        · exact hzeros status hmem
      · rw [records]
        exact .cons hencodes hencodes'

end

theorem nodup_types {puts : List Put} (h : (puts.map Put.type).Nodup) : (puts.map fun put => put.type.toInt).Nodup := by
  have hmap : puts.map (fun put => put.type.toInt) = (puts.map Put.type).map BitVec.toInt := by simp
  rw [hmap]
  apply h.map
  intro a b heq
  exact BitVec.eq_of_toInt_eq heq

theorem parse_puts (e : Endian) {puts : List Put} {buffersize : BitVec 32} (hok : AllOk puts)
    (hnodup : (puts.map Put.type).Nodup) (hlt : totalSize puts < 2 ^ 31) (hsize : buffersize.toNat = totalSize puts) :
    ∃ box, tlvBoxParse e (format (records puts).reverse) buffersize = some box ∧ HasTypes box puts ∧
      ∀ put ∈ puts, keyListGet box.mList put.type.toInt = some put.record.raw := by
  have hlen := format_length puts hok
  have htypes : (records puts).map (fun r => r.type.toInt) = puts.map fun put => put.type.toInt := by
    simp [records_eq, Put.record]
  have hnodup' := nodup_types hnodup
  obtain ⟨box, hparse, hcount, hnodes⟩ := parse_records e (hsize.trans hlen.symm) (by omega)
    (by rw [List.map_reverse, List.nodup_reverse, htypes]; exact hnodup')
  have hkeys : box.mList.nodes.map Prod.fst = puts.map fun put => put.type.toInt := by
    rw [hnodes]
    simp [records_eq, Put.record, Function.comp_def]
  refine ⟨box, hparse, ⟨?_, ?_⟩, ?_⟩
  · rw [hcount]
    simp [records_eq]
  · intro key
    rw [keyListFindKey_iff, hkeys]
  · intro put hmem
    apply keyListGet_of_mem
    · rw [hkeys]
      exact hnodup'
    · rw [hnodes]
      simp only [records_eq, List.map_reverse, List.reverse_reverse, List.map_map]
      exact List.mem_map.mpr ⟨put, hmem, rfl⟩

theorem getValue_record {α : Type} {box : Box} {type : BitVec 16} {tlv : TlvT}
    (h : keyListGet box.mList type.toInt = some tlv) (read : TlvT → Option (Option α)) :
    getValue box type read = read tlv := by
  rw [getValue, h]

theorem returned_number (e : Endian) {w : Nat} (hw : w = 8 * (w / 8)) {box : Box} {type : BitVec 16} {tlv : TlvT}
    {value : BitVec w} (h : keyListGet box.mList type.toInt = some tlv) (hvalue : tlv.value = Endian.big.store value) :
    tlvBoxGetNumber e w box type = some (some value) := by
  have hderef := deref_store e .big value []
  rw [List.append_nil] at hderef
  rw [tlvBoxGetNumber, getValue_record h, hvalue, hderef, Option.map_some, e.ntoh_load hw]

theorem returned_bytes {box : Box} {type : BitVec 16} {tlv : TlvT} {r : Record}
    (h : keyListGet box.mList type.toInt = some tlv) (hlen : tlv.length = r.length) (hvalue : tlv.value = r.payload) :
    ReturnsBytes tlvBoxGetBytes box type r.payload := by
  constructor
  · rw [tlvBoxGetBytesPtr, getValue_record h, hvalue, hlen]
    rfl
  · intro length hlength
    have hlt := length.isLt
    have hnat : length.toNat ≤ 32767 ∧ length.toInt = length.toNat := by
      rw [BitVec.toInt_eq_toNat_cond] at hlength ⊢
      split at hlength
      · rename_i hpos
        rw [if_pos hpos]
        omega
      · omega
    have hsize : sizeT length = length.toNat := by
      have hsize := sizeT_ofNat hnat.1
      rwa [BitVec.ofNat_toNat, BitVec.setWidth_eq] at hsize
    have hfit := r.fits
    have hint : r.length.toInt = r.payload.length := by
      have htoNat : r.length.toNat = r.payload.length := by
        rw [Record.length, BitVec.toNat_ofNat]
        omega
      rw [BitVec.toInt_eq_toNat_of_lt (by omega), htoNat]
    have hcopy : memcpy (List.replicate (sizeT length) (0 : UInt8)) 0 r.payload (sizeT r.length) =
        some (r.payload ++ List.replicate (length.toNat - r.payload.length) 0) := by
      rw [r.sizeT_length, memcpy_eq le_rfl (by rw [List.length_replicate]; omega)]
      simp [hsize]
    have henough : ¬ length.toInt < tlv.length.toInt := by
      rw [hlen]
      omega
    rw [tlvBoxGetBytes, getValue_record h, if_neg henough, hvalue, hlen, hcopy]
    rfl

mutual

theorem Put.returned (e : Endian) : (put : Put) → put.Ok → (box : Box) →
    keyListGet box.mList put.type.toInt = some put.record.raw → put.Returned e box
  | .char type value, hok, box, h => by
      rw [Put.type] at h
      rw [Put.Returned, tlvBoxGetChar, getValue_record h]
      simp [Record.raw, Put.record, Put.payload]
  | .short type value, hok, box, h => by
      rw [Put.Returned]
      exact returned_number e rfl h (Put.record_payload hok)
  | .int type value, hok, box, h => by
      rw [Put.Returned]
      exact returned_number e rfl h (Put.record_payload hok)
  | .long type value, hok, box, h => by
      rw [Put.Returned]
      exact returned_number e rfl h (Put.record_payload hok)
  | .string type value, hok, box, h => by
      have hbytes := returned_bytes (r := (Put.string type value).record) h rfl rfl
      rw [Put.record_payload hok, Put.payload] at hbytes
      rw [Put.Returned]
      exact hbytes
  | .bytes type value, hok, box, h => by
      have hbytes := returned_bytes (r := (Put.bytes type value).record) h rfl rfl
      rw [Put.record_payload hok, Put.payload] at hbytes
      rw [Put.Returned]
      exact hbytes
  | .object type puts, hok, box, h => by
      have hputs := hok
      rw [Put.Ok] at hputs
      obtain ⟨hsize, hnodup, hall⟩ := hputs
      have hlength : ((Put.object type puts).record.length.signExtend 32).toNat = totalSize puts := by
        rw [Put.record_length hok, Put.size]
        exact sizeT_ofNat hsize
      obtain ⟨object, hparse, htypes, hget⟩ := parse_puts e hall hnodup (by omega) hlength
      rw [Put.Returned]
      refine ⟨object, ?_, htypes, allReturned e puts hall object hget⟩
      rw [Put.type] at h
      rw [tlvBoxGetObject, getValue_record h, Record.raw, Put.record_payload hok, Put.payload, hparse]
      rfl

theorem allReturned (e : Endian) : (puts : List Put) → AllOk puts → (box : Box) →
    (∀ put ∈ puts, keyListGet box.mList put.type.toInt = some put.record.raw) → AllReturned e puts box
  | [], _, _, _ => by rw [AllReturned]; trivial
  | put :: puts, hok, box, h => by
      rw [AllOk] at hok
      rw [AllReturned]
      constructor
      · exact put.returned e hok.1 box (h put (by simp))
      · apply allReturned e puts hok.2 box
        intro put' hmem
        exact h put' (by simp [hmem])

end

/-- Building a box, serialising it and parsing it, possibly on another host. -/
theorem tlv_round_trip (e e' : Endian) (heap : Nat → UInt8) (puts : List Put) (hok : AllOk puts)
    (hnodup : (puts.map Put.type).Nodup) (hsize : totalSize puts < 2 ^ 31) :
    ∃ statuses box, callAll e heap puts tlvBoxCreate = some (statuses, box) ∧ (∀ status ∈ statuses, status = 0) ∧
      ∃ serialized, tlvBoxSerialize e heap box = some (0, serialized) ∧
        ∃ parsed, tlvBoxParse e' (tlvBoxGetBuffer serialized) (tlvBoxGetSize serialized) = some parsed ∧
          HasTypes parsed puts ∧ AllReturned e' puts parsed := by
  obtain ⟨statuses, tlvs, hcalls, hzeros, hencodes⟩ :=
    callAll_stores e heap puts hok hnodup tlvBoxCreate rfl (by simp [tlvBoxCreate, keyListCreate])
  obtain ⟨serialized, hserialize, hbuffer, hbytes⟩ := serialize_puts heap hencodes hok (by omega)
  obtain ⟨parsed, hparse, htypes, hget⟩ := parse_puts e' hok hnodup hsize hbytes
  refine ⟨statuses, _, hcalls, hzeros, serialized, hserialize, parsed, ?_, htypes, ?_⟩
  · rw [tlvBoxGetBuffer, hbuffer]
    exact hparse
  · exact allReturned e' puts hok parsed hget

def nestedPuts : List Put :=
  [.object 0x0609 [.short 0x0602 0x1234, .string 0x0607 [0x68, 0x69]], .bytes 0x8001 [], .long 0x0604 0xfffffffe]

theorem tlv_round_trip_nested :
    ∃ statuses box, callAll .little (fun _ => 0xa5) nestedPuts tlvBoxCreate = some (statuses, box) ∧
      (∀ status ∈ statuses, status = 0) ∧
      ∃ serialized, tlvBoxSerialize .little (fun _ => 0xa5) box = some (0, serialized) ∧
        ∃ parsed, tlvBoxParse .big (tlvBoxGetBuffer serialized) (tlvBoxGetSize serialized) = some parsed ∧
          HasTypes parsed nestedPuts ∧ AllReturned .big nestedPuts parsed :=
  tlv_round_trip .little .big (fun _ => 0xa5) nestedPuts
    (by simp [nestedPuts, AllOk, Put.Ok, totalSize, Put.size, Put.type]) (by decide)
    (by simp [nestedPuts, totalSize, Put.size])

end Pc02.Tlv

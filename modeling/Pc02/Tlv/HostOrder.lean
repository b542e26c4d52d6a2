import Mathlib.Data.List.Perm.Subperm
import Pc02.Tlv.Freeze
import Pc02.Tlv.RoundTrip

/-!
# Getters on a box that is being built

A box that is being built keeps numbers in host order, a parsed box in network order, and the getters
convert from network order either way. So a number comes out of the box it was put into with its bytes
reversed, unless the host keeps it in network order.
-/

namespace Pc02.Tlv

open Pc02.Lib

/-- The puts without a nested box. Strings end at their first NUL. -/
def Put.Flat : Put → Prop
  | .object _ _ => False
  | .string _ value => 0 ∉ value
  | _ => True

/-- What `tlv_box_get_string` and `tlv_box_get_bytes` have to do, for a buffer of any length: refuse the call,
or return the value. -/
def GetsBytes (get : Box → BitVec 16 → BitVec 16 → Option (Option (List UInt8 × BitVec 16))) (box : Box)
    (type : BitVec 16) (value : List UInt8) : Prop :=
  ∀ length : BitVec 16, get box type length = some (
    if length.toInt < value.length then none
    else some (value ++ List.replicate (length.toNat - value.length) 0, BitVec.ofNat 16 value.length))

def Put.Answered (e : Endian) (box : Box) : Put → Prop
  | .char type value => tlvBoxGetChar box type = some (some value)
  | .short type value => tlvBoxGetShort e box type = some (some value)
  | .int type value => tlvBoxGetInt e box type = some (some value)
  | .long type value => tlvBoxGetLong e box type = some (some value)
  | .string type value => GetsBytes tlvBoxGetString box type (value ++ [0])
  | .bytes type value => GetsBytes tlvBoxGetBytes box type value
  | .object _ _ => False

/-- The getters give the same answer, the right one, before and after serialising and on the parsed box. -/
def SameAnswers (e : Endian) (heap : Nat → UInt8) (puts : List Put) : Prop :=
  ∃ statuses box serialized parsed, callAll e heap puts tlvBoxCreate = some (statuses, box) ∧
    tlvBoxSerialize e heap box = some (0, serialized) ∧
    tlvBoxParse e (tlvBoxGetBuffer serialized) (tlvBoxGetSize serialized) = some parsed ∧
    ∀ put ∈ puts, put.Answered e box ∧ put.Answered e serialized ∧ put.Answered e parsed

def Put.Symmetric (e : Endian) : Put → Prop
  | .short _ value => e.ntoh value = value
  | .int _ value => e.ntoh value = value
  | .long _ value => e.ntoh value = value
  | _ => True

def Put.host (e : Endian) : Put → List UInt8
  | .char _ value => [value]
  | .short _ value => e.store value
  | .int _ value => e.store value
  | .long _ value => e.store value
  | .string _ value => value ++ [0]
  | .bytes _ value => value
  | .object _ _ => []

def Put.kind : Put → DataType
  | .char _ _ => .char
  | .short _ _ => .short
  | .int _ _ => .int
  | .long _ _ => .long
  | .string _ _ => .string
  | .bytes _ _ => .bytes
  | .object _ _ => .object

def Put.tlv (e : Endian) (put : Put) : TlvT :=
  { type := put.type, length := BitVec.ofNat 16 put.size,
    value := (put.host e).take (sizeT (BitVec.ofNat 16 put.size)), dataType := put.kind }

variable {e : Endian} {heap : Nat → UInt8} {put : Put} {puts : List Put} {box box' : Box} {statuses : List Int}
  {type : BitVec 16} {tlv : TlvT} {value : List UInt8}

theorem Put.call_flat (hflat : put.Flat) : put.call e heap box =
    (tlvBoxPutobject box put.type (put.host e) (BitVec.ofNat 16 put.size) put.kind).map fun r => ([r.1], r.2) := by
  cases put with
  | object type puts => cases hflat
  | _ =>
      rw [Put.call]
      simp only [Put.size]
      rfl

theorem Put.host_length (hflat : put.Flat) : (put.host e).length = put.size := by
  cases put with
  | object type puts => cases hflat
  | _ => simp [Put.host, Put.size]

theorem callAll_flat (hflat : ∀ put ∈ puts, put.Flat) (hnodup : (puts.map Put.type).Nodup)
    (hopen : box.mSerializedBuffer = none) (habsent : ∀ put ∈ puts, put.type.toInt ∉ box.mList.nodes.map Prod.fst)
    (h : callAll e heap puts box = some (statuses, box')) : box' = (puts.map (Put.tlv e)).foldl Box.push box := by
  induction puts generalizing box statuses with
  | nil =>
      rw [callAll] at h
      cases h
      rfl
  | cons put puts ih =>
      rw [List.map_cons, List.nodup_cons] at hnodup
      simp only [callAll, Option.bind_eq_bind, Option.bind_eq_some_iff] at h
      obtain ⟨⟨first, box1⟩, hcall, ⟨rest, box2⟩, hrest, hbox⟩ := h
      cases hbox
      rw [Put.call_flat (hflat put (by simp))] at hcall
      obtain ⟨⟨status, box1⟩, hput, hr⟩ := Option.map_eq_some_iff.mp hcall
      cases hr
      have hkey := habsent put (by simp)
      have hstored : box1 = box.push (put.tlv e) := by
        cases putobject_eq_some_iff.mp hput with
        | frozen hfrozen => simp [hopen] at hfrozen
        | present _ _ hpresent => exact absurd (keyListFindKey_iff.mp hpresent) hkey
        | stored _ _ _ => rfl
      have habsent' : ∀ put' ∈ puts, put'.type.toInt ∉ (box.push (put.tlv e)).mList.nodes.map Prod.fst := by
        intro put' hmem
        rw [Box.push, List.map_cons, List.mem_cons, not_or]
        constructor
        · intro heq
          exact hnodup.1 (List.mem_map.mpr ⟨put', hmem, BitVec.eq_of_toInt_eq heq⟩)
        · exact habsent put' (List.mem_cons_of_mem _ hmem)
      rw [hstored] at hrest
      exact ih (fun put hmem => hflat put (List.mem_cons_of_mem _ hmem)) hnodup.2 hopen habsent' hrest

theorem keyListGet_flat (hnodup : (puts.map Put.type).Nodup)
    (hbox : box.mList = ((puts.map (Put.tlv e)).foldl Box.push tlvBoxCreate).mList) (hmem : put ∈ puts) :
    keyListGet box.mList put.type.toInt = some (put.tlv e) := by
  have hnodes : box.mList.nodes = (puts.map fun put => (put.type.toInt, put.tlv e)).reverse := by
    rw [hbox, foldl_push_nodes]
    simp [tlvBoxCreate, keyListCreate, Function.comp_def, Put.tlv]
  apply keyListGet_of_mem
  · rw [hnodes, List.map_reverse, List.nodup_reverse, List.map_map]
    exact nodup_types hnodup
  · rw [hnodes, List.mem_reverse]
    exact List.mem_map.mpr ⟨put, hmem, rfl⟩

theorem getsBytes_of_fits (hget : keyListGet box.mList type.toInt = some tlv)
    (hlength : tlv.length = BitVec.ofNat 16 value.length) (hvalue : tlv.value = value) (hle : value.length ≤ 32767) :
    GetsBytes tlvBoxGetBytes box type value := by
  let r : Record := { type := type, payload := value, fits := hle }
  intro length
  split
  · rename_i hshort
    have hint : tlv.length.toInt = value.length := by
      rw [hlength]
      exact r.length_toInt
    rw [tlvBoxGetBytes, getValue_record hget, if_pos (by omega)]
  · rename_i hlong
    exact (returned_bytes (r := r) hget hlength hvalue).2 length (Int.not_lt.mp hlong)

theorem fits_of_getsBytes (hget : keyListGet box.mList type.toInt = some tlv)
    (h : GetsBytes tlvBoxGetBytes box type value) : value.length ≤ 32767 := by
  by_contra hlong
  have hle := toInt_le tlv.length
  have hcall := h tlv.length
  rw [if_pos (by omega), tlvBoxGetBytes, getValue_record hget, if_neg (by omega)] at hcall
  obtain ⟨copied, -, hcopied⟩ := Option.map_eq_some_iff.mp hcall
  cases hcopied

theorem gets_host_number {w : Nat} {v : BitVec w} (hw : w = 8 * (w / 8))
    (hget : keyListGet box.mList type.toInt = some tlv) (hvalue : tlv.value = e.store v) :
    tlvBoxGetNumber e w box type = some (some (e.ntoh v)) := by
  have hderef := deref_store e e v []
  rw [List.append_nil] at hderef
  rw [tlvBoxGetNumber, getValue_record hget, hvalue, hderef, Option.map_some, e.load_store hw]

theorem Put.tlv_value (hflat : put.Flat) (hle : put.size ≤ 32767) : (put.tlv e).value = put.host e := by
  rw [Put.tlv, sizeT_ofNat hle]
  exact List.take_of_length_le (Put.host_length hflat).le

/-- In the box it was put into, a value is found if it fits, and a number only if its bytes may be reversed. -/
theorem answered_iff (hflat : put.Flat) (hget : keyListGet box.mList put.type.toInt = some (put.tlv e)) :
    put.Answered e box ↔ put.size ≤ 32767 ∧ put.Symmetric e := by
  have hvalue := Put.tlv_value (e := e) hflat
  cases put with
  | char type value =>
      have hle : (Put.char type value).size ≤ 32767 := by simp [Put.size]
      simp only [Put.Answered, Put.Symmetric, and_true, hle, iff_true]
      rw [Put.type] at hget
      rw [tlvBoxGetChar, getValue_record hget, hvalue hle]
      rfl
  | short type value =>
      have hle : (Put.short type value).size ≤ 32767 := by simp [Put.size]
      have hnumber : tlvBoxGetShort e box type = _ := gets_host_number rfl hget (hvalue hle)
      simp [Put.Answered, Put.Symmetric, hnumber, hle]
  | int type value =>
      have hle : (Put.int type value).size ≤ 32767 := by simp [Put.size]
      have hnumber : tlvBoxGetInt e box type = _ := gets_host_number rfl hget (hvalue hle)
      simp [Put.Answered, Put.Symmetric, hnumber, hle]
  | long type value =>
      have hle : (Put.long type value).size ≤ 32767 := by simp [Put.size]
      have hnumber : tlvBoxGetLong e box type = _ := gets_host_number rfl hget (hvalue hle)
      simp [Put.Answered, Put.Symmetric, hnumber, hle]
  | string type value =>
      have hsize : (value ++ [0]).length = (Put.string type value).size := by simp [Put.size]
      simp only [Put.Symmetric, and_true]
      constructor
      · intro h
        exact hsize ▸ fits_of_getsBytes hget h
      · intro hle
        exact getsBytes_of_fits hget (by rw [hsize]; rfl) (hvalue hle) (hsize ▸ hle)
  | bytes type value =>
      have hsize : value.length = (Put.bytes type value).size := by simp [Put.size]
      simp only [Put.Symmetric, and_true]
      constructor
      · intro h
        exact hsize ▸ fits_of_getsBytes hget h
      · intro hle
        exact getsBytes_of_fits hget (by rw [hsize]; rfl) (hvalue hle) (hsize ▸ hle)
  | object type puts => cases hflat

theorem not_answered_of_absent (hsize : put.size ≤ 32767) (hget : keyListGet box.mList put.type.toInt = none) :
    ¬ put.Answered e box := by
  have hnone {α : Type} (read : TlvT → Option (Option α)) : getValue box put.type read = some none := by
    rw [getValue, hget]
  have hbytes {value : List UInt8} (hle : value.length ≤ 32767) : ¬ GetsBytes tlvBoxGetBytes box put.type value := by
    intro h
    have hcall := h 32767
    rw [if_neg (by rw [show (32767 : BitVec 16).toInt = 32767 from rfl]; omega), tlvBoxGetBytes, hnone] at hcall
    cases hcall
  intro h
  cases put with
  | char type value =>
      have hcall : some none = some (some value) := (hnone _).symm.trans h
      cases hcall
  | short type value =>
      have hcall : some none = some (some value) := (hnone _).symm.trans h
      cases hcall
  | int type value =>
      have hcall : some none = some (some value) := (hnone _).symm.trans h
      cases hcall
  | long type value =>
      have hcall : some none = some (some value) := (hnone _).symm.trans h
      cases hcall
  | string type value => exact hbytes (by simpa [Put.size] using hsize) h
  | bytes type value => exact hbytes (by simpa [Put.size] using hsize) h
  | object type puts => exact h

theorem answered_of_record (hflat : put.Flat) (hsize : put.size ≤ 32767) (hok : put.Ok)
    (hget : keyListGet box.mList put.type.toInt = some put.record.raw) : put.Answered e box := by
  have hpayload := Put.record_payload hok
  cases put with
  | char type value =>
      rw [Put.type] at hget
      rw [Put.Answered, tlvBoxGetChar, getValue_record hget]
      rfl
  | short type value => exact returned_number e rfl hget hpayload
  | int type value => exact returned_number e rfl hget hpayload
  | long type value => exact returned_number e rfl hget hpayload
  | string type value =>
      rw [Put.payload] at hpayload
      have hlength : (value ++ [0]).length ≤ 32767 := by simpa [Put.size] using hsize
      exact getsBytes_of_fits hget (congrArg (BitVec.ofNat 16 ∘ List.length) hpayload) hpayload hlength
  | bytes type value =>
      rw [Put.payload] at hpayload
      have hlength : value.length ≤ 32767 := by simpa [Put.size] using hsize
      exact getsBytes_of_fits hget (congrArg (BitVec.ofNat 16 ∘ List.length) hpayload) hpayload hlength
  | object type puts => cases hflat

theorem Put.ok_of_flat (hflat : put.Flat) (hsize : put.size ≤ 32767) : put.Ok := by
  cases put with
  | string type value =>
      rw [Put.size] at hsize
      rw [Put.Ok]
      exact ⟨hflat, by omega⟩
  | bytes type value =>
      rw [Put.size] at hsize
      rw [Put.Ok]
      exact hsize
  | object type puts => cases hflat
  | _ => simp [Put.Ok]

theorem allOk_of_flat (hflat : ∀ put ∈ puts, put.Flat) (hsize : ∀ put ∈ puts, put.size ≤ 32767) : AllOk puts := by
  induction puts with
  | nil =>
      rw [AllOk]
      trivial
  | cons put puts ih =>
      rw [AllOk]
      simp only [List.forall_mem_cons] at hflat hsize
      exact ⟨Put.ok_of_flat hflat.1 hsize.1, ih hflat.2 hsize.2⟩

/-- There are 65536 types, so that the sizes cannot reach 2^32. -/
theorem totalSize_lt (hnodup : (puts.map Put.type).Nodup) (hsize : ∀ put ∈ puts, put.size ≤ 32767) :
    totalSize puts < 2 ^ 32 := by
  have hcount : puts.length ≤ 65536 := by
    have hnodup' : ((puts.map Put.type).map BitVec.toNat).Nodup :=
      hnodup.map fun _ _ heq => BitVec.eq_of_toNat_eq heq
    have hsubset : (puts.map Put.type).map BitVec.toNat ⊆ List.range 65536 := by
      intro n hn
      obtain ⟨type, -, rfl⟩ := List.mem_map.mp hn
      exact List.mem_range.mpr type.isLt
    simpa using (hnodup'.subperm hsubset).length_le
  have hsum : totalSize puts ≤ puts.length * 32771 := by
    clear hnodup hcount
    induction puts with
    | nil => simp [totalSize]
    | cons put puts ih =>
        simp only [List.forall_mem_cons] at hsize
        rw [totalSize, List.length_cons]
        have hrest := ih hsize.2
        omega
  omega

theorem answered_congr (hlist : box'.mList = box.mList) : put.Answered e box' ↔ put.Answered e box := by
  have hvalue {α : Type} (type : BitVec 16) (read : TlvT → Option (Option α)) :
      getValue box' type read = getValue box type read := by rw [getValue, getValue, hlist]
  cases put <;> simp only [Put.Answered, GetsBytes, tlvBoxGetChar, tlvBoxGetShort, tlvBoxGetInt, tlvBoxGetLong,
    tlvBoxGetNumber, tlvBoxGetString, tlvBoxGetBytes, hvalue]

/-- A size of 2^31 and more is negative, and a box without records is parsed from it. -/
theorem parse_negative_size {buffer : List UInt8} {buffersize : BitVec 32} {parsed : Box}
    (hsize : buffersize.toInt < 0) (h : tlvBoxParse e buffer buffersize = some parsed) : parsed.mList.nodes = [] := by
  simp only [tlvBoxParse, Option.bind_eq_bind, Option.bind_eq_some_iff] at h
  obtain ⟨cached, -, box, hloop, hparsed⟩ := h
  cases hparsed
  rw [parseLoop, if_neg (by omega)] at hloop
  cases hloop
  rfl

/-- Getters give the same answers for the values that fit and the numbers that are the same in both orders. -/
theorem sameAnswers_iff (e : Endian) (heap : Nat → UInt8) (puts : List Put) (hflat : ∀ put ∈ puts, put.Flat)
    (hnodup : (puts.map Put.type).Nodup) : SameAnswers e heap puts ↔
      (∀ put ∈ puts, put.size ≤ 32767 ∧ put.Symmetric e) ∧ totalSize puts < 2 ^ 31 := by
  have habsent : ∀ put ∈ puts, put.type.toInt ∉ tlvBoxCreate.mList.nodes.map Prod.fst := by
    simp [tlvBoxCreate, keyListCreate]
  constructor
  · rintro ⟨statuses, box, serialized, parsed, hcalls, hserialize, hparse, hanswers⟩
    have hbox := callAll_flat hflat hnodup rfl habsent hcalls
    have hputs : ∀ put ∈ puts, put.size ≤ 32767 ∧ put.Symmetric e := by
      intro put hmem
      have hget := keyListGet_flat hnodup (congrArg Box.mList hbox) hmem
      exact (answered_iff (hflat put hmem) hget).mp (hanswers put hmem).1
    refine ⟨hputs, ?_⟩
    have hsize : ∀ put ∈ puts, put.size ≤ 32767 := fun put hmem => (hputs put hmem).1
    have hok := allOk_of_flat hflat hsize
    have hlt := totalSize_lt hnodup hsize
    obtain ⟨statuses', tlvs, hcalls', -, hencodes⟩ := callAll_stores e heap puts hok hnodup tlvBoxCreate rfl habsent
    obtain ⟨serialized', hserialize', -, hbytes⟩ := serialize_puts heap hencodes hok hlt
    rw [hcalls] at hcalls'
    cases hcalls'
    rw [hserialize] at hserialize'
    cases hserialize'
    by_contra hlarge
    cases puts with
    | nil => simp [totalSize] at hlarge
    | cons put puts =>
        have hnegative : (tlvBoxGetSize serialized).toInt < 0 := by
          rw [tlvBoxGetSize, BitVec.toInt_eq_toNat_cond, hbytes, if_neg (by omega)]
          omega
        have hempty : keyListGet parsed.mList put.type.toInt = none := by
          simp [keyListGet, keyListGetNode, parse_negative_size hnegative hparse]
        exact not_answered_of_absent (hsize put (by simp)) hempty (hanswers put (by simp)).2.2
  · rintro ⟨hputs, hlt⟩
    have hsize : ∀ put ∈ puts, put.size ≤ 32767 := fun put hmem => (hputs put hmem).1
    have hok := allOk_of_flat hflat hsize
    obtain ⟨statuses, tlvs, hcalls, -, hencodes⟩ := callAll_stores e heap puts hok hnodup tlvBoxCreate rfl habsent
    obtain ⟨serialized, hserialize, hbuffer, hbytes⟩ := serialize_puts heap hencodes hok (by omega)
    obtain ⟨parsed, hparse, -, hrecords⟩ := parse_puts e hok hnodup hlt hbytes
    have hbox := callAll_flat hflat hnodup rfl habsent hcalls
    refine ⟨statuses, _, serialized, parsed, hcalls, hserialize, ?_, ?_⟩
    · rw [tlvBoxGetBuffer, hbuffer]
      exact hparse
    · intro put hmem
      have hget := keyListGet_flat hnodup (congrArg Box.mList hbox) hmem
      have hbuilt := (answered_iff (hflat put hmem) hget).mpr (hputs put hmem)
      refine ⟨hbuilt, (answered_congr (serialize_keeps hserialize).1).mpr hbuilt, ?_⟩
      exact answered_of_record (hflat put hmem) (hsize put hmem) (Put.ok_of_flat (hflat put hmem) (hsize put hmem))
        (hrecords put hmem)

theorem ntoh_big {w : Nat} (hw : w = 8 * (w / 8)) (v : BitVec w) : Endian.big.ntoh v = v := Endian.load_store .big hw v

theorem symmetric_big (put : Put) : put.Symmetric .big := by
  cases put with
  | short type value => exact ntoh_big rfl value
  | int type value => exact ntoh_big rfl value
  | long type value => exact ntoh_big rfl value
  | _ => trivial

def symmetricPuts : List Put := [.short 0x602 0x1212, .string 0x607 [0x68, 0x69], .char 0x601 9]

theorem sameAnswers_symmetricPuts : SameAnswers .little (fun _ => 0xa5) symmetricPuts := by
  apply (sameAnswers_iff .little (fun _ => 0xa5) symmetricPuts (by simp [symmetricPuts, Put.Flat]) (by decide)).mpr
  constructor
  · simp [symmetricPuts, Put.size, Put.Symmetric]
    decide
  · simp [symmetricPuts, totalSize, Put.size]

def oneShort : List Put := [.short 0x602 0x1234]

/-- The box that was built answers 0x3412. -/
theorem oneShort_reversed : (∃ statuses box, callAll .little (fun _ => 0xa5) oneShort tlvBoxCreate = some (statuses, box) ∧
    tlvBoxGetShort .little box 0x602 = some (some 0x3412)) ∧ ¬ SameAnswers .little (fun _ => 0xa5) oneShort := by
  have hflat : ∀ put ∈ oneShort, put.Flat := by simp [oneShort, Put.Flat]
  have hnodup : (oneShort.map Put.type).Nodup := by decide
  have habsent : ∀ put ∈ oneShort, put.type.toInt ∉ tlvBoxCreate.mList.nodes.map Prod.fst := by
    simp [tlvBoxCreate, keyListCreate]
  constructor
  · obtain ⟨statuses, tlvs, hcalls, -, -⟩ := callAll_stores .little (fun _ => 0xa5) oneShort
      (allOk_of_flat hflat (by simp [oneShort, Put.size])) hnodup tlvBoxCreate rfl habsent
    have hbox := callAll_flat hflat hnodup rfl habsent hcalls
    have hget := keyListGet_flat hnodup (congrArg Box.mList hbox) (List.mem_singleton_self _)
    have hvalue := Put.tlv_value (e := .little) (hflat _ (List.mem_singleton_self _)) (by simp [Put.size])
    have hnumber := gets_host_number (e := .little) (v := (0x1234 : BitVec 16)) rfl hget hvalue
    exact ⟨statuses, _, hcalls, hnumber⟩
  · rintro ⟨statuses, box, serialized, parsed, hcalls, -, -, hanswers⟩
    have hbox := callAll_flat hflat hnodup rfl habsent hcalls
    have hget := keyListGet_flat hnodup (congrArg Box.mList hbox) (List.mem_singleton_self _)
    have hsymmetric := ((answered_iff (hflat _ (List.mem_singleton_self _)) hget).mp (hanswers _ (List.mem_singleton_self _)).1).2
    exact absurd hsymmetric (by unfold Put.Symmetric; decide)

end Pc02.Tlv

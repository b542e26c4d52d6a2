import Mathlib.Data.List.Dedup
import Pc02.Tlv.Format

/-!
# Parsing

The loop of `tlv_box_parse` with everything it reads. On a buffer that consists of records it reads
the records, one after the other, and keeps the first of each type. On every other buffer it reads
behind the end.
-/

namespace Pc02.Tlv

open Pc02.Lib

inductive ParseEvent
  /-- The test of the loop. -/
  | test (offset : Int)
  /-- `size` bytes of the cached copy from `index` on. -/
  | read (index : Int) (size : Nat)
  /-- The length handed to `tlv_box_putobject`. -/
  | pass (length : BitVec 16)
deriving DecidableEq

def derefAt (e : Endian) (cached : List UInt8) (index : Int) : Option (BitVec 16) :=
  if 0 ≤ index then deref e 16 (cached.drop index.toNat) else none

/-- The loop with its events, the offset at its end and the box. A length is added to the offset with
its sign. The first read that has no meaning ends the trace. -/
def parseTrace (e : Endian) (cached : List UInt8) (buffersize : BitVec 32) :
    Nat → Int → Box → List ParseEvent × Option (Int × Box)
  | 0, _, _ => ([], none)
  | fuel + 1, offset, box =>
      if offset < buffersize.toInt then
        match derefAt e cached offset with
        | none => ([.test offset, .read offset 2], none)
        | some type =>
            match derefAt e cached (offset + 2) with
            | none => ([.test offset, .read offset 2, .read (offset + 2) 2], none)
            | some length =>
                let events : List ParseEvent :=
                  [.test offset, .read offset 2, .read (offset + 2) 2, .pass (e.ntoh length),
                    .read (offset + 4) (sizeT (e.ntoh length))]
                match tlvBoxPutobject box (e.ntoh type) (cached.drop (offset + 4).toNat) (e.ntoh length) .bytes with
                | none => (events, none)
                | some (_, box) =>
                    let (rest, result) := parseTrace e cached buffersize fuel (offset + 4 + (e.ntoh length).toInt) box
                    (events ++ rest, result)
      else ([.test offset], some (offset, box))

def tlvBoxParseTrace (e : Endian) (buffer : List UInt8) (buffersize : BitVec 32) :
    List ParseEvent × Option (Int × Box) :=
  match memdup buffer buffersize.toNat with
  | none => ([], none)
  | some cached => parseTrace e cached buffersize (cached.length + 1) 0 tlvBoxCreate

variable {e : Endian} {cached before buffer : List UInt8} {buffersize : BitVec 32} {fuel : Nat} {box : Box}

theorem toInt_eq_sizeT {length : BitVec 16} (h : sizeT length < 2 ^ 31) : length.toInt = sizeT length := by
  have hext : (length.signExtend 32).toInt = (length.signExtend 32).toNat := by
    apply BitVec.toInt_eq_toNat_of_lt
    rw [sizeT] at h
    omega
  rw [sizeT, ← hext, BitVec.toInt_signExtend_of_le (by omega)]

theorem derefAt_natCast (offset : Nat) : derefAt e cached (offset : Int) = deref e 16 (cached.drop offset) := by
  rw [derefAt, if_pos (by omega), Int.toNat_natCast]

theorem putobject_fits {type length : BitVec 16} {value : List UInt8} {dataType : DataType} {out : Int × Box}
    (hopen : box.mSerializedBuffer = none) (h : tlvBoxPutobject box type value length dataType = some out) :
    sizeT length ≤ value.length ∧ out.2.mSerializedBuffer = none := by
  simp only [tlvBoxPutobject, hopen, Option.isSome_none, Bool.false_eq_true, if_false, memdup] at h
  split at h
  · rename_i hle
    simp only [Option.bind_eq_bind, Option.bind_some] at h
    split at h
    · cases h
      exact ⟨hle, hopen⟩
    · cases h
      exact ⟨hle, rfl⟩
  · cases h

/-- The value of a record that is put ends inside the buffer, where the next record starts. -/
theorem putobject_advances {type length : BitVec 16} {dataType : DataType} {out : Int × Box} {offset : Nat}
    (hlt : (cached.length : Int) < 2 ^ 31) (hopen : box.mSerializedBuffer = none)
    (h : tlvBoxPutobject box type (cached.drop (offset + 4)) length dataType = some out) :
    sizeT length ≤ cached.length - (offset + 4) ∧
      (offset : Int) + 4 + length.toInt = (offset + 4 + sizeT length : Nat) ∧ out.2.mSerializedBuffer = none := by
  obtain ⟨hle, hout⟩ := putobject_fits hopen h
  rw [List.length_drop] at hle
  refine ⟨hle, ?_, hout⟩
  rw [toInt_eq_sizeT (by omega)]
  push_cast
  rfl

theorem parseTrace_result (hsize : buffersize.toInt = cached.length) (hopen : box.mSerializedBuffer = none)
    (offset : Nat) :
    (parseTrace e cached buffersize fuel offset box).2.map Prod.snd =
      parseLoop e cached buffersize fuel offset box := by
  have hlt : (cached.length : Int) < 2 ^ 31 := hsize ▸ BitVec.toInt_lt
  induction fuel generalizing offset box with
  | zero => rfl
  | succ fuel ih =>
      rw [parseTrace, parseLoop]
      split
      · have hnext : (offset : Int) + 2 = (offset + 2 : Nat) := rfl
        rw [hnext, derefAt_natCast, derefAt_natCast]
        cases deref e 16 (cached.drop offset) with
        | none => rfl
        | some type =>
            cases deref e 16 (cached.drop (offset + 2)) with
            | none => rfl
            | some length =>
                have hvalue : ((offset : Int) + 4).toNat = offset + 4 := by omega
                simp only [Option.bind_eq_bind, Option.bind_some, hvalue]
                cases hput : tlvBoxPutobject box (e.ntoh type) (cached.drop (offset + 4)) (e.ntoh length) .bytes with
                | none => rfl
                | some out =>
                    obtain ⟨-, hoff, hopen⟩ := putobject_advances hlt hopen hput
                    simp only [Option.bind_some, hoff]
                    exact ih hopen _
      · rfl

theorem toNat_eq_length (hsize : buffersize.toInt = buffer.length) : buffersize.toNat = buffer.length := by
  have hcases := BitVec.toInt_eq_toNat_cond buffersize
  split at hcases <;> omega

/-- Parsing is the loop with events, and then the cached copy goes into the box. -/
theorem tlvBoxParse_eq (e : Endian) (hsize : buffersize.toInt = buffer.length) :
    tlvBoxParse e buffer buffersize = (tlvBoxParseTrace e buffer buffersize).2.map fun out =>
      { out.2 with mSerializedBuffer := some buffer, mSerializedBytes := buffersize } := by
  have hdup : memdup buffer buffersize.toNat = some buffer := by simp [memdup, toNat_eq_length hsize]
  have hloop : (parseTrace e buffer buffersize (buffer.length + 1) (0 : Nat) tlvBoxCreate).2.map Prod.snd = _ :=
    parseTrace_result hsize rfl 0
  simp only [tlvBoxParse, tlvBoxParseTrace, hdup, Option.bind_eq_bind, Option.bind_some, ← hloop]
  simp only [Nat.cast_zero]
  cases (parseTrace e buffer buffersize (buffer.length + 1) 0 tlvBoxCreate).2 <;> rfl

/-- What a box becomes when a record is put into it: a type that is there already is refused. -/
def Box.add (box : Box) (r : Record) : Box :=
  if keyListFindKey box.mList r.type.toInt then box else box.push r.raw

theorem putobject_record (r : Record) (rest : List UInt8) (hopen : box.mSerializedBuffer = none) :
    ∃ status, tlvBoxPutobject box r.type (r.payload ++ rest) r.length .bytes = some (status, box.add r) := by
  by_cases hkey : keyListFindKey box.mList r.type.toInt
  · refine ⟨-1, ?_⟩
    simp [tlvBoxPutobject, hopen, memdup_append, keyListAdd, hkey, Box.add]
  · refine ⟨0, ?_⟩
    rw [putobject_absent r rest .bytes hopen (by rwa [keyListFindKey_iff] at hkey), Box.add, if_neg hkey]
    rfl

theorem Box.add_open (r : Record) (hopen : box.mSerializedBuffer = none) : (box.add r).mSerializedBuffer = none := by
  rw [Box.add]
  split
  · exact hopen
  · exact hopen

def Record.events (offset : Int) (r : Record) : List ParseEvent :=
  [.test offset, .read offset 2, .read (offset + 2) 2, .pass r.length, .read (offset + 4) r.payload.length]

theorem parseTrace_record {r : Record} {rest : List UInt8} (hcached : cached = before ++ (r.bytes ++ rest))
    (hsize : buffersize.toInt = cached.length) (hopen : box.mSerializedBuffer = none) :
    parseTrace e cached buffersize (fuel + 1) before.length box =
      (r.events before.length ++ (parseTrace e cached buffersize fuel (before ++ r.bytes).length (box.add r)).1,
        (parseTrace e cached buffersize fuel (before ++ r.bytes).length (box.add r)).2) := by
  have hgo : (before.length : Int) < buffersize.toInt := by
    rw [hsize, hcached, List.length_append, List.length_append, r.bytes_length]
    omega
  -- the three places that are read
  have htype : cached.drop before.length =
      Endian.big.store r.type ++ (Endian.big.store r.length ++ (r.payload ++ rest)) := by
    rw [hcached, List.drop_left, Record.bytes]
    simp only [List.append_assoc]
  have hlength : cached.drop (before.length + 2) = Endian.big.store r.length ++ (r.payload ++ rest) := by
    rw [← List.drop_drop, htype, List.drop_left' (by simp)]
  have hvalue : cached.drop (before.length + 4) = r.payload ++ rest := by
    rw [show before.length + 4 = before.length + 2 + 2 from rfl, ← List.drop_drop, hlength,
      List.drop_left' (by simp)]
  have hntoh (v : BitVec 16) : e.ntoh (e.load 16 (Endian.big.store v)) = v := e.ntoh_load rfl v
  have hnext : (before.length : Int) + 4 + r.length.toInt = (before ++ r.bytes).length := by
    rw [toInt_eq_sizeT (by rw [r.sizeT_length]; have := r.fits; omega), r.sizeT_length, List.length_append,
      r.bytes_length]
    omega
  obtain ⟨status, hput⟩ := putobject_record r rest hopen
  have htwo : (before.length : Int) + 2 = (before.length + 2 : Nat) := rfl
  have hfour : ((before.length : Int) + 4).toNat = before.length + 4 := by omega
  rw [parseTrace, if_pos hgo, htwo, derefAt_natCast, derefAt_natCast, htype, hlength, deref_store, deref_store]
  simp only [hfour, hvalue, hntoh, hput, hnext, r.sizeT_length, Record.events]
  rfl

def formatEvents : Int → List Record → List ParseEvent
  | offset, [] => [.test offset]
  | offset, r :: rs => r.events offset ++ formatEvents (offset + r.bytes.length) rs

/-- On a buffer of records the loop ends at the end of the buffer, with every record put into the box. -/
theorem parseTrace_format {rs : List Record} (hcached : cached = before ++ format rs)
    (hsize : buffersize.toInt = cached.length) (hfuel : rs.length < fuel) (hopen : box.mSerializedBuffer = none) :
    parseTrace e cached buffersize fuel before.length box =
      (formatEvents before.length rs, some ((cached.length : Int), rs.foldl Box.add box)) := by
  induction rs generalizing before box fuel with
  | nil =>
      obtain ⟨fuel, rfl⟩ : ∃ k, fuel = k + 1 := ⟨fuel - 1, by simp at hfuel; omega⟩
      have hend : cached.length = before.length := by simp [hcached, format]
      rw [parseTrace, if_neg (by omega), hend]
      rfl
  | cons r rs ih =>
      obtain ⟨fuel, rfl⟩ : ∃ k, fuel = k + 1 := ⟨fuel - 1, by simp at hfuel; omega⟩
      have hcached' : cached = before ++ r.bytes ++ format rs := by
        rw [hcached, format_cons, List.append_assoc]
      rw [parseTrace_record (hcached.trans (by rw [format_cons])) hsize hopen,
        ih hcached' (by simpa using hfuel) (box.add_open r hopen)]
      simp only [formatEvents, List.foldl_cons, List.length_append]
      push_cast
      rfl

theorem exists_record (e : Endian) {bytes : List UInt8} (hlt : bytes.length < 2 ^ 31) (hheader : 4 ≤ bytes.length)
    (hvalue : sizeT (e.ntoh (e.load 16 ((bytes.drop 2).take 2))) + 4 ≤ bytes.length) :
    ∃ (r : Record) (rest : List UInt8), bytes = r.bytes ++ rest := by
  have htype : 16 = 8 * (bytes.take 2).length := by
    rw [List.length_take]
    omega
  have hlength : 16 = 8 * ((bytes.drop 2).take 2).length := by
    rw [List.length_take, List.length_drop]
    omega
  generalize hn : e.ntoh (e.load 16 ((bytes.drop 2).take 2)) = length at hvalue
  have hint : length.toInt = sizeT length := toInt_eq_sizeT (by omega)
  have hfits : sizeT length ≤ 32767 := by
    have hmax : length.toInt < 2 ^ 15 := BitVec.toInt_lt
    omega
  have hofNat : BitVec.ofNat 16 (sizeT length) = length := by
    apply BitVec.eq_of_toInt_eq
    rw [toInt_eq_sizeT (by rw [sizeT_ofNat hfits]; omega), sizeT_ofNat hfits, hint]
  have hpayload : ((bytes.drop 4).take (sizeT length)).length = sizeT length := by
    rw [List.length_take, List.length_drop]
    omega
  let r : Record := { type := e.ntoh (e.load 16 (bytes.take 2)), payload := (bytes.drop 4).take (sizeT length),
                      fits := by rwa [hpayload] }
  have hr : r.length = length := by
    rw [Record.length, hpayload, hofNat]
  have hstore : Endian.big.store length = (bytes.drop 2).take 2 := hn ▸ e.store_ntoh_load hlength
  have hdrop : bytes.drop 4 = (bytes.drop 2).drop 2 := by rw [List.drop_drop]
  have hrest : r.payload ++ (bytes.drop 4).drop (sizeT length) = bytes.drop 4 := List.take_append_drop _ _
  refine ⟨r, (bytes.drop 4).drop (sizeT length), ?_⟩
  rw [Record.bytes, hr, hstore, e.store_ntoh_load htype, List.append_assoc, List.append_assoc, hrest, hdrop,
    List.take_append_drop, List.take_append_drop]

def Inside (events : List ParseEvent) (buffersize : BitVec 32) : Prop :=
  ∀ (index : Int) (size : Nat), .read index size ∈ events →
    ∀ i, index ≤ i → i < index + size → 0 ≤ i ∧ i < buffersize.toInt

theorem Inside.end_le {events : List ParseEvent} (h : Inside events buffersize) {index : Int} {size : Nat}
    (hmem : .read index size ∈ events) (hpos : 0 < size) : index + size ≤ buffersize.toInt := by
  have hlast := (h index size hmem (index + size - 1) (by omega) (by omega)).2
  omega

theorem derefAt_eq_some {offset : Nat} (h : offset + 2 ≤ cached.length) :
    derefAt e cached offset = some (e.load 16 ((cached.drop offset).take 2)) := by
  rw [derefAt_natCast, deref, if_pos]
  rw [List.length_drop]
  omega

theorem derefAt_eq_none {offset : Nat} (h : ¬ offset + 2 ≤ cached.length) : derefAt e cached offset = none := by
  rw [derefAt_natCast, deref, if_neg]
  rw [List.length_drop]
  omega

theorem record_of_inside {offset : Nat} (hsize : buffersize.toInt = cached.length) (hgo : offset < cached.length)
    (h : Inside (parseTrace e cached buffersize (fuel + 1) offset box).1 buffersize) :
    ∃ (r : Record) (rest : List UInt8), cached.drop offset = r.bytes ++ rest := by
  have hlt : (cached.length : Int) < 2 ^ 31 := hsize ▸ BitVec.toInt_lt
  have hnext : (offset : Int) + 2 = (offset + 2 : Nat) := rfl
  rw [parseTrace, if_pos (by omega), hnext] at h
  by_cases htype : offset + 2 ≤ cached.length
  · rw [derefAt_eq_some htype] at h
    by_cases hlength : offset + 2 + 2 ≤ cached.length
    · rw [derefAt_eq_some hlength, ← List.drop_drop] at h
      dsimp only at h
      apply exists_record e
      · rw [List.length_drop]
        omega
      · rw [List.length_drop]
        omega
      · generalize e.ntoh (e.load 16 (((cached.drop offset).drop 2).take 2)) = length at h ⊢
        by_contra hpast
        rw [List.length_drop] at hpast
        have hread : (offset : Int) + 4 + sizeT length ≤ buffersize.toInt := by
          refine h.end_le ?_ (by omega)
          split <;> simp
        omega
    · rw [derefAt_eq_none hlength] at h
      have hread := h.end_le (.tail _ (.tail _ (.head _))) (by decide)
      omega
  · rw [derefAt_eq_none htype] at h
    have hread := h.end_le (.tail _ (.head _)) (by decide)
    omega

theorem Inside.right {events events' : List ParseEvent} (h : Inside (events ++ events') buffersize) :
    Inside events' buffersize := fun index size hmem => h index size (List.mem_append_right _ hmem)

/-- A loop that stays inside the cached copy reads records. The induction is on the fuel, which lasts
for every byte that is left. -/
theorem format_of_inside {offset : Nat} (hsize : buffersize.toInt = cached.length) (hle : offset ≤ cached.length)
    (hfuel : cached.length < offset + fuel) (hopen : box.mSerializedBuffer = none)
    (h : Inside (parseTrace e cached buffersize fuel offset box).1 buffersize) :
    ∃ rs, cached.drop offset = format rs := by
  induction fuel generalizing offset box with
  | zero => omega
  | succ fuel ih =>
      by_cases hgo : offset < cached.length
      · obtain ⟨r, rest, hdrop⟩ := record_of_inside hsize hgo h
        have hbefore : (cached.take offset).length = offset := by
          rw [List.length_take]
          omega
        have hcached : cached = cached.take offset ++ (r.bytes ++ rest) := by
          rw [← hdrop, List.take_append_drop]
        have hnext : (cached.take offset ++ r.bytes).length = offset + r.bytes.length := by
          rw [List.length_append, hbefore]
        have hlen : offset + r.bytes.length ≤ cached.length := by
          have hsum := congrArg List.length hdrop
          rw [List.length_drop, List.length_append] at hsum
          omega
        have hround : parseTrace e cached buffersize (fuel + 1) (cached.take offset).length box = _ :=
          parseTrace_record hcached hsize hopen
        rw [hbefore, hnext] at hround
        rw [hround] at h
        obtain ⟨rs, hrs⟩ := ih hlen (by rw [r.bytes_length] at hlen ⊢; omega) (box.add_open r hopen) h.right
        refine ⟨r :: rs, ?_⟩
        rw [format_cons, ← hrs, ← List.drop_drop, hdrop, List.drop_left]
      · refine ⟨[], ?_⟩
        rw [List.drop_of_length_le (by omega)]
        rfl

def ParseEvent.offset? : ParseEvent → Option Int
  | .test offset | .read offset _ => some offset
  | .pass _ => none

/-- Parsing is safe: it returns, it reads inside the cached copy only, the offset never decreases, and
no negative length is passed on. -/
structure ParseSafe (e : Endian) (buffer : List UInt8) (buffersize : BitVec 32) : Prop where
  returns : (tlvBoxParse e buffer buffersize).isSome
  inside : Inside (tlvBoxParseTrace e buffer buffersize).1 buffersize
  forward : ((tlvBoxParseTrace e buffer buffersize).1.filterMap ParseEvent.offset?).Pairwise (· ≤ ·)
  lengths : ∀ length, .pass length ∈ (tlvBoxParseTrace e buffer buffersize).1 → 0 ≤ length.toInt

theorem Record.events_inside (r : Record) {offset : Nat} (h : (offset + r.bytes.length : Int) ≤ buffersize.toInt) :
    Inside (r.events offset) buffersize := by
  intro index size hmem i hlo hhi
  rw [r.bytes_length] at h
  simp only [Record.events, List.mem_cons, reduceCtorEq, ParseEvent.read.injEq, List.not_mem_nil, or_false,
    false_or] at hmem
  omega

theorem formatEvents_inside {rs : List Record} {offset : Nat}
    (h : (offset + (format rs).length : Int) ≤ buffersize.toInt) : Inside (formatEvents offset rs) buffersize := by
  induction rs generalizing offset with
  | nil =>
      intro index size hmem
      simp [formatEvents] at hmem
  | cons r rs ih =>
      rw [format_cons, List.length_append] at h
      push_cast at h
      intro index size hmem
      rcases List.mem_append.mp hmem with hmem | hmem
      · exact r.events_inside (by omega) index size hmem
      · have hrest : Inside (formatEvents (offset + r.bytes.length : Nat) rs) buffersize := ih (by omega)
        exact hrest index size hmem

theorem Record.events_offsets (r : Record) (offset : Int) :
    (r.events offset).filterMap ParseEvent.offset? = [offset, offset, offset + 2, offset + 4] := rfl

theorem le_of_mem_formatEvents {rs : List Record} {offset : Nat} {o : Int}
    (h : o ∈ (formatEvents offset rs).filterMap ParseEvent.offset?) : (offset : Int) ≤ o := by
  induction rs generalizing offset with
  | nil =>
      simp only [formatEvents, List.filterMap_cons, ParseEvent.offset?, List.filterMap_nil, List.mem_singleton] at h
      exact h.ge
  | cons r rs ih =>
      rw [formatEvents, List.filterMap_append, List.mem_append, r.events_offsets] at h
      rcases h with h | h
      · simp only [List.mem_cons, List.not_mem_nil, or_false] at h
        omega
      · have hle : ((offset + r.bytes.length : Nat) : Int) ≤ o := ih h
        omega

theorem formatEvents_forward (rs : List Record) (offset : Nat) :
    ((formatEvents offset rs).filterMap ParseEvent.offset?).Pairwise (· ≤ ·) := by
  induction rs generalizing offset with
  | nil => simp [formatEvents, ParseEvent.offset?]
  | cons r rs ih =>
      have hrest : ((formatEvents (offset + r.bytes.length : Nat) rs).filterMap ParseEvent.offset?).Pairwise (· ≤ ·) :=
        ih (offset + r.bytes.length)
      rw [formatEvents, List.filterMap_append, List.pairwise_append, r.events_offsets]
      refine ⟨?_, hrest, ?_⟩
      · simp
      · intro o ho o' ho'
        have hle : ((offset + r.bytes.length : Nat) : Int) ≤ o' := le_of_mem_formatEvents ho'
        rw [r.bytes_length] at hle
        simp only [List.mem_cons, List.not_mem_nil, or_false] at ho
        omega

theorem Record.length_toInt (r : Record) : r.length.toInt = r.payload.length := by
  rw [toInt_eq_sizeT, r.sizeT_length]
  rw [r.sizeT_length]
  have := r.fits
  omega

theorem formatEvents_lengths {rs : List Record} {offset : Int} {length : BitVec 16}
    (h : .pass length ∈ formatEvents offset rs) : 0 ≤ length.toInt := by
  induction rs generalizing offset with
  | nil => simp [formatEvents] at h
  | cons r rs ih =>
      rcases List.mem_append.mp h with h | h
      · simp only [Record.events, List.mem_cons, reduceCtorEq, ParseEvent.pass.injEq, List.not_mem_nil, or_false,
          false_or] at h
        rw [h, r.length_toInt]
        omega
      · exact ih h

theorem parseTrace_eq (e : Endian) (hsize : buffersize.toInt = buffer.length) :
    tlvBoxParseTrace e buffer buffersize =
      parseTrace e buffer buffersize (buffer.length + 1) (([] : List UInt8).length : Nat) tlvBoxCreate := by
  have hdup : memdup buffer buffersize.toNat = some buffer := by simp [memdup, toNat_eq_length hsize]
  rw [tlvBoxParseTrace, hdup]
  rfl

theorem tlvBoxParseTrace_format (e : Endian) {rs : List Record} (hsize : buffersize.toInt = (format rs).length) :
    tlvBoxParseTrace e (format rs) buffersize =
      (formatEvents (0 : Nat) rs, some (((format rs).length : Int), rs.foldl Box.add tlvBoxCreate)) := by
  rw [parseTrace_eq e hsize]
  exact parseTrace_format rfl hsize (Nat.lt_succ_of_le (length_le_format rs)) rfl

theorem tlvBoxParse_format (e : Endian) {rs : List Record} (hsize : buffersize.toInt = (format rs).length) :
    ∃ box, tlvBoxParse e (format rs) buffersize = some box ∧
      box.mList = (rs.foldl Box.add tlvBoxCreate).mList := by
  rw [tlvBoxParse_eq e hsize, tlvBoxParseTrace_format e hsize]
  exact ⟨_, rfl, rfl⟩

/-- Parsing is safe exactly for the buffers that consist of complete records. -/
theorem parseSafe_iff (e : Endian) (buffer : List UInt8) (buffersize : BitVec 32)
    (hsize : buffersize.toInt = buffer.length) : ParseSafe e buffer buffersize ↔ ∃ rs, buffer = format rs := by
  constructor
  · intro h
    have hinside := h.inside
    rw [parseTrace_eq e hsize] at hinside
    exact format_of_inside hsize (Nat.zero_le _) (by simp) rfl hinside
  · rintro ⟨rs, rfl⟩
    have htrace := tlvBoxParseTrace_format e hsize
    constructor
    · obtain ⟨box, hparse, -⟩ := tlvBoxParse_format e hsize
      rw [hparse]
      rfl
    · rw [htrace]
      exact formatEvents_inside (by rw [hsize]; simp)
    · rw [htrace]
      exact formatEvents_forward rs 0
    · rw [htrace]
      intro length hmem
      exact formatEvents_lengths hmem

/-- A single record of type 1 with the payload 9. -/
theorem parseSafe_record : ParseSafe .little [0, 1, 0, 1, 9] 5 :=
  (parseSafe_iff .little [0, 1, 0, 1, 9] 5 (by decide)).mpr
    ⟨[{ type := 1, payload := [9], fits := by decide }], by decide⟩

/-- A length of -4 is passed on, and 2^32 - 4 bytes are read behind the end. -/
theorem parse_negative_length_unsafe :
    (4 : BitVec 32).toInt = ([0, 1, 0xff, 0xfc] : List UInt8).length ∧ ¬ ParseSafe .little [0, 1, 0xff, 0xfc] 4 := by
  refine ⟨by decide, ?_⟩
  intro h
  have hread := h.inside 4 4294967292 (by decide) 4 (by decide) (by decide)
  exact absurd hread.2 (by decide)

theorem keyListGet_add (box : Box) (r : Record) (key : Int) :
    keyListGet (box.add r).mList key =
      (keyListGet box.mList key).or (if r.type.toInt = key then some r.raw else none) := by
  rw [Box.add]
  split
  · rename_i hkey
    -- the record is refused, and its type has a value
    split
    · rename_i heq
      rw [heq, keyListFindKey, Option.isSome_iff_exists] at hkey
      obtain ⟨node, hnode⟩ := hkey
      simp [keyListGet, hnode]
    · rw [Option.or_none]
  · rename_i hkey
    simp only [Box.push, keyListGet, keyListGetNode, List.find?_cons, Record.raw]
    by_cases heq : r.type.toInt = key
    · subst heq
      have hnone : box.mList.nodes.find? (fun node => r.type.toInt = node.1) = none := by
        rw [keyListFindKey, keyListGetNode, Option.not_isSome_iff_eq_none] at hkey
        exact hkey
      simp [hnone]
    · simp [heq, Ne.symm heq]

theorem keyListGet_foldl_add (rs : List Record) (box : Box) (key : Int) :
    keyListGet (rs.foldl Box.add box).mList key =
      (keyListGet box.mList key).or ((rs.find? fun r => r.type.toInt = key).map Record.raw) := by
  induction rs generalizing box with
  | nil => simp
  | cons r rs ih =>
      rw [List.foldl_cons, ih, keyListGet_add, Option.or_assoc, List.find?_cons]
      by_cases heq : r.type.toInt = key
      · simp [heq]
      · simp [heq]

structure Box.Distinct (box : Box) : Prop where
  count : box.mList.count = box.mList.nodes.length
  nodup : (box.mList.nodes.map Prod.fst).Nodup

theorem Box.Distinct.add (h : box.Distinct) (r : Record) : (box.add r).Distinct := by
  rw [Box.add]
  split
  · exact h
  · rename_i hkey
    rw [keyListFindKey_iff] at hkey
    constructor
    · simp [Box.push, h.count]
    · rw [Box.push, List.map_cons, List.nodup_cons]
      exact ⟨hkey, h.nodup⟩

theorem Box.Distinct.foldl_add (h : box.Distinct) (rs : List Record) : (rs.foldl Box.add box).Distinct := by
  induction rs generalizing box with
  | nil => exact h
  | cons r rs ih => exact ih (h.add r)

theorem mem_keys_iff {list : KeyList TlvT} {key : Int} :
    key ∈ list.nodes.map Prod.fst ↔ (keyListGet list key).isSome := by
  rw [← keyListFindKey_iff, keyListFindKey, keyListGet, Option.isSome_map]

theorem foldl_add_nodup {rs : List Record} {box : Box} (hnodup : (rs.map (·.type.toInt)).Nodup)
    (habsent : ∀ r ∈ rs, r.type.toInt ∉ box.mList.nodes.map Prod.fst) :
    rs.foldl Box.add box = (rs.map Record.raw).foldl Box.push box := by
  induction rs generalizing box with
  | nil => rfl
  | cons r rs ih =>
      rw [List.map_cons, List.nodup_cons] at hnodup
      have hadd : box.add r = box.push r.raw := by
        rw [Box.add, if_neg]
        rw [keyListFindKey_iff]
        exact habsent r (by simp)
      rw [List.foldl_cons, List.map_cons, List.foldl_cons, hadd]
      apply ih hnodup.2
      intro r' hr'
      rw [Box.push, List.map_cons, List.mem_cons, not_or]
      constructor
      · intro heq
        exact hnodup.1 (List.mem_map.mpr ⟨r', hr', heq⟩)
      · exact habsent r' (by simp [hr'])

/-- Parsing records of distinct types gives a box with exactly these records. -/
theorem parse_records (e : Endian) {rs : List Record} (hsize : buffersize.toNat = (format rs).length)
    (hlt : (format rs).length < 2 ^ 31) (hnodup : (rs.map (·.type.toInt)).Nodup) :
    ∃ box, tlvBoxParse e (format rs) buffersize = some box ∧ box.mList.count = rs.length ∧
      box.mList.nodes = (rs.map fun r => (r.type.toInt, r.raw)).reverse := by
  have hint : buffersize.toInt = (format rs).length := by
    rw [BitVec.toInt_eq_toNat_of_lt (by omega), hsize]
  have hpush : rs.foldl Box.add tlvBoxCreate = (rs.map Record.raw).foldl Box.push tlvBoxCreate :=
    foldl_add_nodup hnodup (by simp [tlvBoxCreate, keyListCreate])
  obtain ⟨box, hparse, hlist⟩ := tlvBoxParse_format e hint
  refine ⟨box, hparse, ?_, ?_⟩
  · rw [hlist, hpush, foldl_push_count]
    simp [tlvBoxCreate, keyListCreate]
  · rw [hlist, hpush, foldl_push_nodes]
    simp [tlvBoxCreate, keyListCreate, Record.raw, Function.comp_def]

theorem foldl_add_count (rs : List Record) :
    keyListCount (rs.foldl Box.add tlvBoxCreate).mList = (rs.map Record.type).dedup.length := by
  have hempty : tlvBoxCreate.Distinct := ⟨rfl, List.nodup_nil⟩
  have hdistinct := hempty.foldl_add rs
  have hinj : Function.Injective (BitVec.toInt : BitVec 16 → Int) := fun _ _ h => BitVec.eq_of_toInt_eq h
  have hperm : ((rs.foldl Box.add tlvBoxCreate).mList.nodes.map Prod.fst).Perm
      ((rs.map Record.type).dedup.map BitVec.toInt) := by
    rw [List.perm_ext_iff_of_nodup hdistinct.nodup ((List.nodup_dedup _).map hinj)]
    intro key
    rw [mem_keys_iff, keyListGet_foldl_add]
    simp [tlvBoxCreate, keyListCreate, keyListGet, keyListGetNode]
  have hlength := hperm.length_eq
  rw [List.length_map, List.length_map] at hlength
  rw [keyListCount, hdistinct.count, hlength]

theorem getBytesPtr_foldl_add (rs : List Record) (type : BitVec 16) {box : Box}
    (hlist : box.mList = (rs.foldl Box.add tlvBoxCreate).mList) :
    tlvBoxGetBytesPtr box type = some ((rs.find? (·.type = type)).map fun r => (r.payload, r.length)) := by
  have hget : keyListGet box.mList type.toInt = (rs.find? (·.type = type)).map Record.raw := by
    rw [hlist, keyListGet_foldl_add]
    simp [tlvBoxCreate, keyListCreate, keyListGet, keyListGetNode, BitVec.toInt_inj]
  rw [tlvBoxGetBytesPtr, getValue, hget]
  cases rs.find? (·.type = type) <;> rfl

/-- Parsing records ends at the end of the buffer, and the box is the map from each type to the first
record of it. -/
theorem parse_first_occurrence (e : Endian) (rs : List Record) (buffersize : BitVec 32)
    (hsize : buffersize.toInt = (format rs).length) :
    ∃ box, tlvBoxParse e (format rs) buffersize = some box ∧
      (tlvBoxParseTrace e (format rs) buffersize).2.map Prod.fst = some buffersize.toInt ∧
      keyListCount box.mList = (rs.map Record.type).dedup.length ∧
      ∀ type, (tlvBoxGetBytesPtr box type = some none ↔ ∀ r ∈ rs, r.type ≠ type) ∧
        ∀ r, rs.find? (·.type = type) = some r → tlvBoxGetBytesPtr box type = some (some (r.payload, r.length)) := by
  obtain ⟨box, hparse, hlist⟩ := tlvBoxParse_format e hsize
  refine ⟨box, hparse, ?_, ?_, ?_⟩
  · rw [tlvBoxParseTrace_format e hsize, hsize]
    rfl
  · rw [hlist]
    exact foldl_add_count rs
  · intro type
    rw [getBytesPtr_foldl_add rs type hlist]
    constructor
    · simp
    · intro r hr
      rw [hr]
      rfl

/-- Three records, the last of the same type as the first. -/
theorem parse_first_occurrence_repeated :
    ∃ box, tlvBoxParse .little [0, 7, 0, 1, 1, 0xff, 0xff, 0, 0, 0, 7, 0, 1, 2] 14 = some box ∧
      keyListCount box.mList = 2 ∧ tlvBoxGetBytesPtr box 7 = some (some ([1], 1)) ∧
      tlvBoxGetBytesPtr box 0xffff = some (some ([], 0)) ∧ tlvBoxGetBytesPtr box 8 = some none := by
  obtain ⟨box, hparse, -, hcount, hget⟩ := parse_first_occurrence .little
    [{ type := 7, payload := [1], fits := by decide }, { type := 0xffff, payload := [], fits := by decide },
      { type := 7, payload := [2], fits := by decide }] 14 (by decide)
  refine ⟨box, hparse, hcount, (hget 7).2 _ rfl, (hget 0xffff).2 _ rfl, (hget 8).1.mpr ?_⟩
  decide

end Pc02.Tlv

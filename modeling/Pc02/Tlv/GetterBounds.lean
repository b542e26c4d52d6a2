import Pc02.Tlv.Freeze

/-!
# What the getters read

A getter looks for the record of a type and reads as many bytes of its value as the getter is for. How
many the record has is not asked, and the nested box of `tlv_box_get_object` is parsed whatever it holds.
-/

namespace Pc02.Tlv

open Pc02.Lib Machines

inductive Getter
  | char | short | int | long | object
deriving DecidableEq, Repr

def ParseEvent.read? : ParseEvent → Option (Int × Nat)
  | .read index size => some (index, size)
  | _ => none

namespace Getter

/-- The bytes of a value that are read, from where on and how many. `tlv_box_get_object` copies the value, and
then parses the copy. -/
def reads (e : Endian) (tlv : TlvT) : Getter → List (Int × Nat)
  | char => [(0, 1)]
  | short => [(0, 2)]
  | int => [(0, 4)]
  | long => [(0, 4)]
  | object =>
      (0, sizeT tlv.length) ::
        (tlvBoxParseTrace e tlv.value (tlv.length.signExtend 32)).1.filterMap ParseEvent.read?

def run (e : Endian) (box : Box) (type : BitVec 16) (getter : Getter) : Int × List (Int × Nat) :=
  match keyListGet box.mList type.toInt with
  | none => (-1, [])
  | some tlv => (0, getter.reads e tlv)

/-- The bytes that a record must have. -/
def size : Getter → Nat
  | char => 1
  | short => 2
  | int => 4
  | long => 4
  | object => 0

end Getter

def ReadsInside (value : List UInt8) (reads : List (Int × Nat)) : Prop :=
  ∀ r ∈ reads, ∀ i, r.1 ≤ i → i < r.1 + r.2 → 0 ≤ i ∧ i < value.length

/-- A getter succeeds only with a record that has enough bytes, and reads no others. -/
def Getter.Safe (e : Endian) (box : Box) (type : BitVec 16) (getter : Getter) : Prop :=
  (getter.run e box type).1 = 0 → ∃ tlv, keyListGet box.mList type.toInt = some tlv ∧
    getter.size ≤ tlv.value.length ∧ ReadsInside tlv.value (getter.run e box type).2

/-- A record that suits the getter: long enough for a number, and made of records for an object. -/
def Getter.Suits (tlv : TlvT) : Getter → Prop
  | .object => tlv.length.toInt < 0 ∨ ∃ rs, tlv.value = format rs
  | getter => getter.size ≤ tlv.value.length

/-- The boxes that come from puts, and those that come from parsing records. -/
inductive Obtained (e : Endian) : Box → Prop
  | built {box : Box} {statuses : List Int} (h : Steps (boxes e) (fun _ _ => True) tlvBoxCreate statuses box) :
      Obtained e box
  | parsed {box : Box} {rs : List Record} {buffersize : BitVec 32} (hsize : buffersize.toInt = (format rs).length)
      (h : tlvBoxParse e (format rs) buffersize = some box) : Obtained e box

variable {e : Endian} {box box' : Box} {tlv : TlvT} {type : BitVec 16} {cached : List UInt8} {buffersize : BitVec 32}
  {fuel : Nat}

def Box.Filled (box : Box) : Prop := ∀ tlv ∈ box.tlvs, tlv.value.length = sizeT tlv.length

theorem Box.Filled.push (h : box.Filled) (htlv : tlv.value.length = sizeT tlv.length) : (box.push tlv).Filled := by
  intro tlv' hmem
  rcases List.mem_cons.mp hmem with rfl | hmem
  · exact htlv
  · exact h tlv' hmem

theorem filled_create : tlvBoxCreate.Filled := by
  intro tlv hmem
  cases hmem

theorem filled_foldl_add (rs : List Record) (h : box.Filled) : (rs.foldl Box.add box).Filled := by
  induction rs generalizing box with
  | nil => exact h
  | cons r rs ih =>
      apply ih
      rw [Box.add]
      split
      · exact h
      · exact h.push r.sizeT_length.symm

theorem filled_of_list (hlist : box'.mList = box.mList) (h : box.Filled) : box'.Filled := by
  rw [Box.Filled, Box.tlvs, hlist]
  exact h

theorem Obtained.filled (h : Obtained e box) : box.Filled := by
  cases h with
  | built h =>
      apply h.invariant (I := Box.Filled) _ filled_create
      intro box action box' events hfilled _ hstep
      cases action with
      | put call =>
          obtain ⟨⟨status, box'⟩, hput, hr⟩ := Option.map_eq_some_iff.mp hstep
          cases hr
          cases putCall_result hput with
          | frozen _ => exact hfilled
          | present _ _ _ => exact hfilled
          | stored _ hfits _ =>
              apply hfilled.push
              rw [List.length_take, Nat.min_eq_left hfits]
      | serialize heap =>
          obtain ⟨r, hserialize, hr⟩ := Option.map_eq_some_iff.mp hstep
          cases hr
          exact filled_of_list (serialize_keeps hserialize).1 hfilled
  | parsed hsize h =>
      rename_i rs buffersize
      obtain ⟨box', hparse, hlist⟩ := tlvBoxParse_format e hsize
      rw [h] at hparse
      cases hparse
      exact filled_of_list hlist (filled_foldl_add rs filled_create)

theorem mem_tlvs_of_get {key : Int} (h : keyListGet box.mList key = some tlv) : tlv ∈ box.tlvs := by
  obtain ⟨node, hnode, hvalue⟩ := Option.map_eq_some_iff.mp h
  exact List.mem_map.mpr ⟨node, List.mem_of_find?_eq_some hnode, hvalue⟩

theorem readsInside_prefix {value : List UInt8} {n : Nat} : ReadsInside value [(0, n)] ↔ n ≤ value.length := by
  constructor
  · intro h
    by_contra hlt
    have hlast := (h (0, n) (by simp) (n - 1) (by simp only; omega) (by simp)).2
    omega
  · intro hle r hr i hlo hhi
    obtain rfl : r = (0, n) := by simpa using hr
    simp only at hlo hhi
    omega

theorem readsInside_cons {value : List UInt8} {r : Int × Nat} {reads : List (Int × Nat)} :
    ReadsInside value (r :: reads) ↔ ReadsInside value [r] ∧ ReadsInside value reads := by
  simp [ReadsInside]

theorem readsInside_events {value : List UInt8} {events : List ParseEvent}
    (hsize : buffersize.toInt = value.length) :
    ReadsInside value (events.filterMap ParseEvent.read?) ↔ Inside events buffersize := by
  rw [ReadsInside, Inside, hsize]
  constructor
  · intro h index size hmem
    exact h (index, size) (List.mem_filterMap.mpr ⟨_, hmem, rfl⟩)
  · intro h r hr
    obtain ⟨event, hmem, hread⟩ := List.mem_filterMap.mp hr
    cases event with
    | read index size =>
        cases hread
        exact h index size hmem
    | test offset => cases hread
    | pass length => cases hread

theorem memdup_value (hsize : tlv.value.length = sizeT tlv.length) :
    memdup tlv.value (tlv.length.signExtend 32).toNat = some tlv.value := by
  have hnat : (tlv.length.signExtend 32).toNat = tlv.value.length := hsize.symm
  rw [memdup, hnat, if_pos le_rfl, List.take_length]

/-- A negative length is no obstacle: the value is copied, and the loop is not entered. -/
theorem parseTrace_negative (hsize : tlv.value.length = sizeT tlv.length) (hneg : tlv.length.toInt < 0) :
    tlvBoxParseTrace e tlv.value (tlv.length.signExtend 32) = ([.test 0], some (0, tlvBoxCreate)) := by
  have hext : (tlv.length.signExtend 32).toInt = tlv.length.toInt := BitVec.toInt_signExtend_of_le (by omega)
  rw [tlvBoxParseTrace, memdup_value hsize]
  simp only [parseTrace]
  rw [if_neg (by omega)]

theorem length_toInt_of_nonneg (hsize : tlv.value.length = sizeT tlv.length) (hnonneg : 0 ≤ tlv.length.toInt) :
    (tlv.length.signExtend 32).toInt = tlv.value.length := by
  rw [BitVec.toInt_signExtend_of_le (by omega), hsize]
  exact (sizeT_of_nonneg hnonneg).1.symm

theorem object_reads_iff (hsize : tlv.value.length = sizeT tlv.length) :
    ReadsInside tlv.value (Getter.object.reads e tlv) ↔ Getter.object.Suits tlv := by
  rw [Getter.reads, readsInside_cons, readsInside_prefix, Getter.Suits]
  by_cases hneg : tlv.length.toInt < 0
  · rw [parseTrace_negative hsize hneg]
    constructor
    · intro _
      exact .inl hneg
    · intro _
      refine ⟨hsize.ge, ?_⟩
      simp [ReadsInside, ParseEvent.read?]
  · have hint := length_toInt_of_nonneg hsize (by omega)
    rw [readsInside_events hint]
    constructor
    · rintro ⟨-, hinside⟩
      rw [parseTrace_eq e hint] at hinside
      exact .inr (format_of_inside hint (Nat.zero_le _) (by simp) rfl hinside)
    · rintro (h | ⟨rs, hrs⟩)
      · exact absurd h hneg
      · rw [hrs] at hint ⊢
        rw [tlvBoxParseTrace_format e hint]
        refine ⟨?_, formatEvents_inside (by rw [hint]; simp)⟩
        rw [← hrs]
        exact hsize.ge

theorem reads_iff (getter : Getter) (hsize : tlv.value.length = sizeT tlv.length) :
    ReadsInside tlv.value (getter.reads e tlv) ↔ getter.Suits tlv := by
  cases getter with
  | object => exact object_reads_iff hsize
  | _ => exact readsInside_prefix

theorem inside_nil : Inside [] buffersize := by
  intro index size hmem
  cases hmem

theorem inside_cons {event : ParseEvent} {events : List ParseEvent}
    (hevent : ∀ index size, event = .read index size → 0 ≤ index ∧ index + size ≤ buffersize.toInt)
    (h : Inside events buffersize) : Inside (event :: events) buffersize := by
  intro index size hmem i hlo hhi
  rcases List.mem_cons.mp hmem with heq | hmem
  · have hbound := hevent index size heq.symm
    omega
  · exact h index size hmem i hlo hhi

theorem le_of_derefAt {offset : Nat} {v : BitVec 16} (h : derefAt e cached offset = some v) :
    offset + 2 ≤ cached.length := by
  by_contra hlt
  rw [derefAt_eq_none hlt] at h
  cases h

theorem inside_of_parseTrace (hsize : buffersize.toInt = cached.length) (hopen : box.mSerializedBuffer = none)
    {offset : Nat} (h : (parseTrace e cached buffersize fuel offset box).2.isSome) :
    Inside (parseTrace e cached buffersize fuel offset box).1 buffersize := by
  have hlt : (cached.length : Int) < 2 ^ 31 := hsize ▸ BitVec.toInt_lt
  have htest (offset : Int) : ∀ index size, ParseEvent.test offset = .read index size →
      0 ≤ index ∧ index + size ≤ buffersize.toInt := by
    intro index size heq
    cases heq
  induction fuel generalizing offset box with
  | zero => exact inside_nil
  | succ fuel ih =>
      rw [parseTrace] at h ⊢
      split at h
      · rename_i hgo
        rw [if_pos hgo]
        cases htype : derefAt e cached offset with
        | none => simp [htype] at h
        | some type =>
            rw [htype] at h
            have hnext : (offset : Int) + 2 = (offset + 2 : Nat) := rfl
            cases hlength : derefAt e cached ((offset : Int) + 2) with
            | none => simp [hlength] at h
            | some length =>
                simp only [hlength] at h ⊢
                rw [hnext] at hlength
                have htypeLe := le_of_derefAt htype
                have hlengthLe := le_of_derefAt hlength
                have hvalue : ((offset : Int) + 4).toNat = offset + 4 := by omega
                rw [hvalue] at h ⊢
                cases hput : tlvBoxPutobject box (e.ntoh type) (cached.drop (offset + 4)) (e.ntoh length) .bytes with
                | none => simp [hput] at h
                | some out =>
                    obtain ⟨hle, hoff, hopen⟩ := putobject_advances hlt hopen hput
                    simp only [hput, hoff] at h ⊢
                    apply inside_cons (htest _)
                    apply inside_cons
                    · intro index size heq
                      cases heq
                      omega
                    apply inside_cons
                    · intro index size heq
                      cases heq
                      omega
                    apply inside_cons
                    · intro index size heq
                      cases heq
                    apply inside_cons
                    · intro index size heq
                      cases heq
                      omega
                    exact ih hopen h
      · rename_i hgo
        rw [if_neg hgo]
        exact inside_cons (htest _) inside_nil

def Getter.returns (e : Endian) (box : Box) (type : BitVec 16) : Getter → Bool
  | .char => (tlvBoxGetChar box type).isSome
  | .short => (tlvBoxGetShort e box type).isSome
  | .int => (tlvBoxGetInt e box type).isSome
  | .long => (tlvBoxGetLong e box type).isSome
  | .object => (tlvBoxGetObject e box type).isSome

theorem deref_isSome (w : Nat) (p : List UInt8) : (deref e w p).isSome ↔ w / 8 ≤ p.length := by
  rw [deref]
  split
  · rename_i hle
    simpa using hle
  · rename_i hlt
    simpa using hlt

theorem number_isSome {w : Nat} (hget : keyListGet box.mList type.toInt = some tlv) :
    (tlvBoxGetNumber e w box type).isSome ↔ ReadsInside tlv.value [(0, w / 8)] := by
  rw [tlvBoxGetNumber, getValue, hget, readsInside_prefix, Option.isSome_map, deref_isSome]

theorem object_isSome (hsize : tlv.value.length = sizeT tlv.length) :
    (tlvBoxParse e tlv.value (tlv.length.signExtend 32)).isSome ↔
      ReadsInside tlv.value (Getter.object.reads e tlv) := by
  by_cases hneg : tlv.length.toInt < 0
  · have hext : (tlv.length.signExtend 32).toInt = tlv.length.toInt := BitVec.toInt_signExtend_of_le (by omega)
    have hloop (fuel : Nat) : parseLoop e tlv.value (tlv.length.signExtend 32) (fuel + 1) 0 tlvBoxCreate =
        some tlvBoxCreate := by
      rw [parseLoop, if_neg (by rw [hext]; omega)]
    constructor
    · intro _
      exact (object_reads_iff hsize).mpr (.inl hneg)
    · intro _
      simp [tlvBoxParse, memdup_value hsize, hloop]
  · have hint := length_toInt_of_nonneg hsize (by omega)
    rw [tlvBoxParse_eq e hint, Option.isSome_map]
    constructor
    · intro h
      rw [Getter.reads, readsInside_cons, readsInside_prefix, readsInside_events hint]
      refine ⟨hsize.ge, ?_⟩
      rw [parseTrace_eq e hint] at h ⊢
      exact inside_of_parseTrace hint rfl h
    · intro h
      rcases (object_reads_iff hsize).mp h with h | ⟨rs, hrs⟩
      · exact absurd h hneg
      · rw [hrs] at hint ⊢
        rw [tlvBoxParseTrace_format e hint]
        rfl

/-- A getter has a result exactly when all that it reads belongs to the record. -/
theorem Getter.returns_iff (h : Obtained e box) (type : BitVec 16) (getter : Getter) :
    getter.returns e box type ↔
      ∀ tlv, keyListGet box.mList type.toInt = some tlv → ReadsInside tlv.value (getter.reads e tlv) := by
  cases hget : keyListGet box.mList type.toInt with
  | none =>
      simp only [reduceCtorEq, false_imp_iff, implies_true, iff_true]
      cases getter <;> simp [Getter.returns, tlvBoxGetChar, tlvBoxGetShort, tlvBoxGetInt, tlvBoxGetLong,
        tlvBoxGetNumber, tlvBoxGetObject, getValue, hget]
  | some tlv =>
      have hsize := h.filled tlv (mem_tlvs_of_get hget)
      simp only [Option.some.injEq, forall_eq']
      cases getter with
      | char =>
          rw [Getter.returns, tlvBoxGetChar, getValue, hget, Getter.reads, readsInside_prefix]
          cases hvalue : tlv.value <;> simp [hvalue]
      | short => exact number_isSome (w := 16) hget
      | int => exact number_isSome (w := 32) hget
      | long => exact number_isSome (w := 32) hget
      | object =>
          rw [Getter.returns, tlvBoxGetObject, getValue, hget, Option.isSome_map]
          exact object_isSome hsize

theorem Getter.Suits.size_le {getter : Getter} (h : getter.Suits tlv) : getter.size ≤ tlv.value.length := by
  cases getter with
  | object => exact Nat.zero_le _
  | _ => exact h

/-- A getter is safe exactly for the records that suit it. -/
theorem getter_safe_iff (h : Obtained e box) (type : BitVec 16) (getter : Getter) :
    getter.Safe e box type ↔ ∀ tlv, keyListGet box.mList type.toInt = some tlv → getter.Suits tlv := by
  rw [Getter.Safe, Getter.run]
  cases hget : keyListGet box.mList type.toInt with
  | none => simp
  | some tlv =>
      have hsize := h.filled tlv (mem_tlvs_of_get hget)
      simp only [Option.some.injEq, exists_eq_left', forall_eq', forall_const, reads_iff getter hsize]
      constructor
      · intro hsafe
        exact hsafe.2
      · intro hsuits
        exact ⟨hsuits.size_le, hsuits⟩

/-- The first byte of a record of one byte, as a `char` and as an `int`. -/
def charBox : Box := tlvBoxCreate.push { type := 0x601, length := 1, value := [9], dataType := .char }

theorem charBox_obtained : Obtained .little charBox := by
  have hsteps : Steps (boxes .little) (fun _ _ => True) tlvBoxCreate ([] ++ [0]) charBox :=
    .snoc (a := .put (.char 0x601 9)) .nil trivial rfl
  exact .built hsteps

theorem charBox_getChar : Obtained .little charBox ∧ Getter.char.Safe .little charBox 0x601 := by
  refine ⟨charBox_obtained, (getter_safe_iff charBox_obtained 0x601 .char).mpr ?_⟩
  intro tlv hget
  cases hget
  exact le_rfl

/-- The call returns 0 and reads three bytes behind the value. -/
theorem charBox_getInt : Obtained .little charBox ∧ Getter.int.run .little charBox 0x601 = (0, [(0, 4)]) ∧
    ¬ Getter.int.Safe .little charBox 0x601 := by
  refine ⟨charBox_obtained, rfl, ?_⟩
  intro h
  obtain ⟨tlv, hget, hsize, -⟩ := h rfl
  cases hget
  exact absurd hsize (by decide)

end Pc02.Tlv

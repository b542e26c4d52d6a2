import Pc02.Lib.Lockstep
import Pc02.Tlv.KeyListMap
import Pc02.Tlv.Parse

/-!
# Boxes in memory

`tlv_box.c` with the blocks it takes from `malloc`: the nodes of the key list, a `tlv_t` for each value
and a block for its bytes, and the serialised buffer. Blocks are numbered in the order in which they
are taken. A call that uses a block that is not there, or frees one twice, has no result.
A value that the key list refuses is not given back.
-/

namespace Pc02.Tlv

open Machines Pc02.Lib

structure TlvBlock where
  type : BitVec 16
  length : BitVec 16
  value : Nat
  dataType : DataType

/-- `tlv_box_t` with its list and the blocks that were taken for it. -/
structure BoxMemory where
  list : HeapList Nat Nat
  tlvs : Nat → Option TlvBlock
  bytes : Nat → Option (List UInt8)
  mSerializedBuffer : Option Nat
  mSerializedBytes : BitVec 32
  nextBlock : Nat

namespace BoxMemory

def create : BoxMemory := ⟨HeapList.create, fun _ => none, fun _ => none, none, 0, 0⟩

variable (m : BoxMemory)

def mallocTlv (tlv : TlvBlock) : BoxMemory :=
  { m with tlvs := Function.update m.tlvs m.nextBlock (some tlv), nextBlock := m.nextBlock + 1 }

def mallocBytes (contents : List UInt8) : BoxMemory :=
  { m with bytes := Function.update m.bytes m.nextBlock (some contents), nextBlock := m.nextBlock + 1 }

def freeTlv (b : Nat) : Option BoxMemory := (m.tlvs b).map fun _ => { m with tlvs := Function.update m.tlvs b none }

def freeBytes (b : Nat) : Option BoxMemory := (m.bytes b).map fun _ => { m with bytes := Function.update m.bytes b none }

def freeNode (b : Nat) : Option BoxMemory :=
  (m.list.heap b).map fun _ => { m with list := { m.list with heap := Function.update m.list.heap b none } }

def load (b : Nat) : Option TlvT := do
  let tlv ← m.tlvs b
  let value ← m.bytes tlv.value
  some ⟨tlv.type, tlv.length, value, tlv.dataType⟩

def addStatus : List (ListEvent Nat) → Option Int
  | [.returned status] => some status
  | _ => none

/-- `key_list_add` takes the block that is next for its node, if the key is new. -/
def putobject (type : BitVec 16) (value : List UInt8) (length : BitVec 16) (dataType : DataType) :
    Option (BoxMemory × Int) :=
  if m.mSerializedBuffer.isSome then some (m, -1)
  else do
    let contents ← memdup value (sizeT length)
    let tlv := m.nextBlock
    let m := m.mallocTlv ⟨type, length, m.nextBlock + 1, dataType⟩
    let m := m.mallocBytes contents
    let (list, events) ← m.list.add type.toInt tlv m.nextBlock
    let status ← addStatus events
    if status ≠ 0 then some ({ m with list := list }, -1)
    else
      some ({ m with
        list := list
        nextBlock := m.nextBlock + 1
        mSerializedBytes := m.mSerializedBytes + (4 + length.signExtend 32) }, 0)

def serializeLoop (e : Endian) : Nat → Option Nat → Nat → List UInt8 → Option (List UInt8)
  | 0, _, _, _ => none
  | _ + 1, none, _, buffer => some buffer
  | fuel + 1, some current, offset, buffer => do
      let node ← m.list.heap current
      let tlv ← m.load node.value
      let buffer ← memcpy buffer offset (e.store (e.hton tlv.type)) 2
      let buffer ← memcpy buffer (offset + 2) (e.store (e.hton tlv.length)) 2
      let t ← networkValue e tlv
      let buffer ← memcpy buffer (offset + 4) t (sizeT tlv.length)
      serializeLoop e fuel node.next (offset + 4 + sizeT tlv.length) buffer

def serialize (e : Endian) (heap : Nat → UInt8) : Option (BoxMemory × Int) :=
  if m.mSerializedBuffer.isSome then some (m, -1)
  else do
    let buffer ← m.serializeLoop e (m.list.count.toNat + 1) m.list.header 0 (malloc heap m.mSerializedBytes.toNat)
    some ({ m.mallocBytes buffer with mSerializedBuffer := some m.nextBlock }, 0)

def parseLoop (e : Endian) (cached : List UInt8) (buffersize : BitVec 32) : Nat → Nat → BoxMemory → Option BoxMemory
  | 0, _, _ => none
  | fuel + 1, offset, m =>
      if (offset : Int) < buffersize.toInt then do
        let type ← deref e 16 (cached.drop offset)
        let length ← deref e 16 (cached.drop (offset + 2))
        let (m, _) ← m.putobject (e.ntoh type) (cached.drop (offset + 4)) (e.ntoh length) .bytes
        parseLoop e cached buffersize fuel (offset + 4 + sizeT (e.ntoh length)) m
      else some m

/-- The cached copy has its block before the loop puts values into the box. -/
def parse (e : Endian) (buffer : List UInt8) (buffersize : BitVec 32) : Option BoxMemory := do
  let cached ← memdup buffer buffersize.toNat
  let block := create.nextBlock
  let m ← parseLoop e cached buffersize (cached.length + 1) 0 (create.mallocBytes cached)
  some { m with mSerializedBuffer := some block, mSerializedBytes := buffersize }

def getValue (type : BitVec 16) : Option (Option TlvT) := do
  let (_, events) ← m.list.get type.toInt
  match events with
  | .got tlv :: _ => (m.load tlv).map some
  | _ => some none

def releaseTlv (b : Nat) : Option BoxMemory := do
  let tlv ← m.tlvs b
  let m ← m.freeBytes tlv.value
  m.freeTlv b

def destroyLoop : Nat → Option Nat → BoxMemory → Option BoxMemory
  | 0, _, _ => none
  | _ + 1, none, m => some m
  | fuel + 1, some current, m => do
      let node ← m.list.heap current
      let m ← m.releaseTlv node.value
      let m ← m.freeNode current
      destroyLoop fuel node.next m

def destroy : Option BoxMemory := do
  let m ← destroyLoop (m.list.count.toNat + 1) m.list.header m
  match m.mSerializedBuffer with
  | none => some m
  | some buffer => m.freeBytes buffer

end BoxMemory

/-- A value of the box: its node, its `tlv_t`, the block of its bytes, and the record in them. -/
structure Kept where
  node : Nat
  tlv : Nat
  block : Nat
  data : TlvT

namespace Kept

def entry (k : Kept) : Nat × Int × Nat := (k.node, k.data.type.toInt, k.tlv)

def item (k : Kept) : Int × TlvT := (k.data.type.toInt, k.data)

end Kept

/-- The memory holds the box, and the blocks in it are those of its values, those of refused values and those in
`held`, which are the buffer of the box or the copy that is being parsed. -/
structure Keeps (m : BoxMemory) (box : Box) (kept : List Kept) (leaks : List (Nat × Nat)) (held : List Nat) :
    Prop where
  list : m.list.Holds (kept.map Kept.entry)
  mList : box.mList = ⟨kept.length, kept.map Kept.item⟩
  tlv : ∀ k ∈ kept, m.tlvs k.tlv = some ⟨k.data.type, k.data.length, k.block, k.data.dataType⟩
  value : ∀ k ∈ kept, m.bytes k.block = some k.data.value
  buffer : box.mSerializedBuffer = m.mSerializedBuffer.bind m.bytes
  holds : ∀ b ∈ m.mSerializedBuffer, b ∈ held
  size : m.mSerializedBytes = box.mSerializedBytes
  tlvs : ∀ b, (m.tlvs b).isSome ↔ b ∈ kept.map Kept.tlv ++ leaks.map Prod.fst
  bytes : ∀ b, (m.bytes b).isSome ↔ b ∈ kept.map Kept.block ++ leaks.map Prod.snd ++ held
  tlvNodup : (kept.map Kept.tlv ++ leaks.map Prod.fst).Nodup
  bytesNodup : (kept.map Kept.block ++ leaks.map Prod.snd ++ held).Nodup
  fresh : ∀ b, m.nextBlock ≤ b → m.tlvs b = none ∧ m.bytes b = none ∧ m.list.heap b = none

theorem keeps_create : Keeps BoxMemory.create tlvBoxCreate [] [] [] where
  list := holds_create
  mList := rfl
  tlv := by simp
  value := by simp
  buffer := rfl
  holds := by simp [BoxMemory.create]
  size := rfl
  tlvs := by simp [BoxMemory.create]
  bytes := by simp [BoxMemory.create]
  tlvNodup := by simp
  bytesNodup := by simp
  fresh := fun _ _ => ⟨rfl, rfl, rfl⟩

namespace Keeps

variable {m : BoxMemory} {box : Box} {kept : List Kept} {leaks : List (Nat × Nat)} {held : List Nat}

theorem load (h : Keeps m box kept leaks held) {k : Kept} (hk : k ∈ kept) : m.load k.tlv = some k.data := by
  simp [BoxMemory.load, h.tlv k hk, h.value k hk]

theorem serialized (h : Keeps m box kept leaks held) :
    m.mSerializedBuffer.isSome = box.mSerializedBuffer.isSome := by
  rw [h.buffer]
  cases hbuffer : m.mSerializedBuffer with
  | none => rfl
  | some b =>
      have hblock : (m.bytes b).isSome := by
        rw [h.bytes]
        exact List.mem_append_right _ (h.holds b hbuffer)
      rw [Option.bind_some, hblock, Option.isSome_some]

theorem find (h : Keeps m box kept leaks held) (key : Int) :
    ((kept.map Kept.entry).find? fun entry => key = entry.2.1) =
      (kept.find? fun k => key = k.data.type.toInt).map Kept.entry ∧
    keyListGetNode box.mList key = (kept.find? fun k => key = k.data.type.toInt).map Kept.item := by
  constructor
  · rw [List.find?_map]
    rfl
  · rw [keyListGetNode, h.mList, List.find?_map]
    rfl

theorem mallocBytes (h : Keeps m box kept leaks held) (contents : List UInt8) :
    Keeps (m.mallocBytes contents) box kept leaks (held ++ [m.nextBlock]) := by
  have hnew : m.nextBlock ∉ kept.map Kept.block ++ leaks.map Prod.snd ++ held := by
    rw [← h.bytes, (h.fresh _ le_rfl).2.1]
    simp
  have hold : ∀ b, b ≠ m.nextBlock → (m.mallocBytes contents).bytes b = m.bytes b := fun b hb =>
    Function.update_of_ne hb _ _
  have hblock : ∀ b ∈ kept.map Kept.block ++ leaks.map Prod.snd ++ held, b ≠ m.nextBlock := by
    intro b hb heq
    exact hnew (heq ▸ hb)
  refine ⟨h.list, h.mList, h.tlv, fun k hk => ?_, ?_, fun b hb => List.mem_append_left _ (h.holds b hb), h.size,
    h.tlvs, fun b => ?_, h.tlvNodup, ?_, fun b hb => ?_⟩
  · rw [hold _ (hblock _ (List.mem_append_left _ (List.mem_append_left _ (List.mem_map_of_mem hk))))]
    exact h.value k hk
  · rw [h.buffer]
    cases hbuffer : m.mSerializedBuffer with
    | none => simp [BoxMemory.mallocBytes, hbuffer]
    | some b =>
        have hne := hblock b (List.mem_append_right _ (h.holds b hbuffer))
        simp [BoxMemory.mallocBytes, hbuffer, hne]
  · rw [← List.append_assoc, List.mem_append, List.mem_singleton, ← h.bytes]
    by_cases hb : b = m.nextBlock
    · simp [BoxMemory.mallocBytes, hb]
    · simp [hold b hb, hb]
  · rw [← List.append_assoc]
    refine h.bytesNodup.append (List.nodup_singleton _) ?_
    rw [List.disjoint_singleton]
    exact hnew
  · have hlt : m.nextBlock + 1 ≤ b := hb
    obtain ⟨htlv, hbytes, hnode⟩ := h.fresh b (by omega)
    refine ⟨htlv, ?_, hnode⟩
    rw [hold b (by omega), hbytes]

theorem mallocValue (h : Keeps m box kept leaks held) (tlv : TlvBlock) (contents : List UInt8) :
    Keeps ((m.mallocTlv tlv).mallocBytes contents) box kept ((m.nextBlock, m.nextBlock + 1) :: leaks) held := by
  have hnewTlv : m.nextBlock ∉ kept.map Kept.tlv ++ leaks.map Prod.fst := by
    rw [← h.tlvs, (h.fresh _ le_rfl).1]
    simp
  have hnewBytes : m.nextBlock + 1 ∉ kept.map Kept.block ++ leaks.map Prod.snd ++ held := by
    rw [← h.bytes, (h.fresh _ (Nat.le_succ _)).2.1]
    simp
  have hmemTlv : ∀ b, (b ∈ kept.map Kept.tlv ++ ((m.nextBlock, m.nextBlock + 1) :: leaks).map Prod.fst) ↔
      b = m.nextBlock ∨ b ∈ kept.map Kept.tlv ++ leaks.map Prod.fst := by
    intro b
    simp only [List.map_cons, List.mem_append, List.mem_cons]
    tauto
  have hmemBytes : ∀ b, (b ∈ kept.map Kept.block ++ ((m.nextBlock, m.nextBlock + 1) :: leaks).map Prod.snd ++ held) ↔
      b = m.nextBlock + 1 ∨ b ∈ kept.map Kept.block ++ leaks.map Prod.snd ++ held := by
    intro b
    simp only [List.map_cons, List.mem_append, List.mem_cons]
    tauto
  refine ⟨h.list, h.mList, fun k hk => ?_, fun k hk => ?_, ?_, h.holds, h.size, fun b => ?_, fun b => ?_, ?_, ?_,
    fun b hb => ?_⟩
  · have hne : k.tlv ≠ m.nextBlock := fun heq =>
      hnewTlv (heq ▸ List.mem_append_left _ (List.mem_map_of_mem hk))
    simpa [BoxMemory.mallocBytes, BoxMemory.mallocTlv, hne] using h.tlv k hk
  · have hne : k.block ≠ m.nextBlock + 1 := fun heq =>
      hnewBytes (heq ▸ List.mem_append_left _ (List.mem_append_left _ (List.mem_map_of_mem hk)))
    simpa [BoxMemory.mallocBytes, BoxMemory.mallocTlv, hne] using h.value k hk
  · rw [h.buffer]
    cases hbuffer : m.mSerializedBuffer with
    | none => simp [BoxMemory.mallocBytes, BoxMemory.mallocTlv, hbuffer]
    | some b =>
        have hne : b ≠ m.nextBlock + 1 := fun heq =>
          hnewBytes (heq ▸ List.mem_append_right _ (h.holds b hbuffer))
        simp [BoxMemory.mallocBytes, BoxMemory.mallocTlv, hbuffer, hne]
  · rw [hmemTlv, ← h.tlvs]
    by_cases hb : b = m.nextBlock
    · simp [BoxMemory.mallocBytes, BoxMemory.mallocTlv, hb]
    · simp [BoxMemory.mallocBytes, BoxMemory.mallocTlv, hb]
  · rw [hmemBytes, ← h.bytes]
    by_cases hb : b = m.nextBlock + 1
    · simp [BoxMemory.mallocBytes, BoxMemory.mallocTlv, hb]
    · simp [BoxMemory.mallocBytes, BoxMemory.mallocTlv, hb]
  · rw [List.map_cons]
    exact List.nodup_middle.mpr (List.nodup_cons.mpr ⟨hnewTlv, h.tlvNodup⟩)
  · rw [List.map_cons, List.append_assoc, List.cons_append]
    refine List.nodup_middle.mpr (List.nodup_cons.mpr ⟨?_, ?_⟩)
    · rwa [← List.append_assoc]
    · rw [← List.append_assoc]
      exact h.bytesNodup
  · have hlt : m.nextBlock + 2 ≤ b := hb
    obtain ⟨htlv, hbytes, hnode⟩ := h.fresh b (by omega)
    have hne : b ≠ m.nextBlock := by omega
    have hne' : b ≠ m.nextBlock + 1 := by omega
    simp [BoxMemory.mallocBytes, BoxMemory.mallocTlv, hne, hne', htlv, hbytes, hnode]

theorem accept {tlv block : Nat} (data : TlvT) {list : HeapList Nat Nat}
    (h : Keeps m box kept ((tlv, block) :: leaks) held)
    (htlv : m.tlvs tlv = some ⟨data.type, data.length, block, data.dataType⟩) (hvalue : m.bytes block = some data.value)
    (hlist : list.Holds ((m.nextBlock, data.type.toInt, tlv) :: kept.map Kept.entry)) :
    Keeps { m with
        list := list
        nextBlock := m.nextBlock + 1
        mSerializedBytes := m.mSerializedBytes + (4 + data.length.signExtend 32) }
      (box.push data) (⟨m.nextBlock, tlv, block, data⟩ :: kept) leaks held where
  list := hlist
  mList := by simp [Box.push, h.mList, Kept.item]
  tlv := by
    intro k hk
    rcases List.mem_cons.mp hk with rfl | hk
    · exact htlv
    · exact h.tlv k hk
  value := by
    intro k hk
    rcases List.mem_cons.mp hk with rfl | hk
    · exact hvalue
    · exact h.value k hk
  buffer := h.buffer
  holds := h.holds
  size := by simp [Box.push, h.size]
  tlvs := by
    intro b
    rw [h.tlvs]
    simp only [List.map_cons, List.mem_append, List.mem_cons]
    tauto
  bytes := by
    intro b
    rw [h.bytes]
    simp only [List.map_cons, List.mem_append, List.mem_cons]
    tauto
  tlvNodup := by
    have hnodup := h.tlvNodup
    rw [List.map_cons] at hnodup
    exact List.nodup_middle.mp hnodup
  bytesNodup := by
    have hnodup := h.bytesNodup
    rw [List.map_cons, List.append_assoc, List.cons_append] at hnodup
    rw [List.map_cons, List.append_assoc, List.cons_append]
    exact List.nodup_middle.mp hnodup
  fresh := by
    intro b hb
    have hlt : m.nextBlock + 1 ≤ b := hb
    obtain ⟨htlvs, hbytes, hnode⟩ := h.fresh b (by omega)
    refine ⟨htlvs, hbytes, ?_⟩
    rw [← Option.not_isSome_iff_eq_none]
    intro hsome
    rcases List.mem_cons.mp (hlist.owned b hsome) with heq | hmem
    · have hself : b = m.nextBlock := heq
      omega
    · obtain ⟨entry, hentry, rfl⟩ := List.mem_map.mp hmem
      obtain ⟨node, hstored, -⟩ := h.list.stored entry hentry
      rw [hnode] at hstored
      cases hstored

def refusals (serialized : Bool) (status : Int) : Nat := if serialized = false ∧ status ≠ 0 then 1 else 0

structure Put (m m' : BoxMemory) (serialized : Bool) (status : Int) (kept kept' : List Kept)
    (leaks leaks' : List (Nat × Nat)) (held : List Nat) : Prop where
  buffer : m'.mSerializedBuffer = m.mSerializedBuffer
  held : ∀ b ∈ held, m'.bytes b = m.bytes b
  refused : leaks'.length = leaks.length + refusals serialized status
  total : kept'.length + leaks'.length = kept.length + leaks.length + if serialized then 0 else 1

/-- A put in memory has the status that it has for the box, if it has one. -/
theorem putobject (h : Keeps m box kept leaks held) (type : BitVec 16) (value : List UInt8) (length : BitVec 16)
    (dataType : DataType) :
    (tlvBoxPutobject box type value length dataType = none ∧ m.putobject type value length dataType = none) ∨
    ∃ status box' m' kept' leaks', tlvBoxPutobject box type value length dataType = some (status, box') ∧
      m.putobject type value length dataType = some (m', status) ∧ Keeps m' box' kept' leaks' held ∧
      Put m m' box.mSerializedBuffer.isSome status kept kept' leaks leaks' held := by
  rw [tlvBoxPutobject, BoxMemory.putobject, h.serialized]
  cases hser : box.mSerializedBuffer.isSome with
  | true => exact .inr ⟨-1, box, m, kept, leaks, rfl, rfl, h, rfl, fun _ _ => rfl, rfl, rfl⟩
  | false =>
      rw [if_neg Bool.false_ne_true, if_neg Bool.false_ne_true]
      cases hdup : memdup value (sizeT length) with
      | none => exact .inl ⟨rfl, rfl⟩
      | some contents =>
          right
          simp only [Option.bind_eq_bind, Option.bind_some]
          have hheld : ∀ b ∈ held, Function.update m.bytes (m.nextBlock + 1) (some contents) b = m.bytes b := by
            intro b hb
            apply Function.update_of_ne
            rintro rfl
            have hblock := (h.bytes _).mpr (List.mem_append_right _ hb)
            rw [(h.fresh _ (Nat.le_succ _)).2.1] at hblock
            cases hblock
          have hvalue := h.mallocValue ⟨type, length, m.nextBlock + 1, dataType⟩ contents
          obtain ⟨hentries, hitems⟩ := h.find type.toInt
          have hfresh : m.list.heap (m.nextBlock + 2) = none := (h.fresh _ (by omega)).2.2
          rw [keyListAdd, keyListFindKey, hitems]
          cases hfind : kept.find? fun k => type.toInt = k.data.type.toInt with
          | none =>
              -- The key is new.
              rw [hfind] at hentries
              obtain ⟨list, hadd, hlist⟩ := h.list.add_absent hfresh hentries m.nextBlock
              have haccept := hvalue.accept ⟨type, length, contents, dataType⟩
                (by simp [BoxMemory.mallocBytes, BoxMemory.mallocTlv])
                (by simp [BoxMemory.mallocBytes, BoxMemory.mallocTlv]) hlist
              refine ⟨0, _, _, _, leaks, rfl, ?_, haccept, rfl, hheld, rfl, Nat.succ_add _ _⟩
              simp only [BoxMemory.mallocBytes, BoxMemory.mallocTlv, hadd, Option.bind_some, BoxMemory.addStatus]
              rfl
          | some k =>
              rw [hfind] at hentries
              have hfound : m.list.findKey type.toInt = some true := by
                rw [h.list.findKey_eq, hentries]
                rfl
              have hadd : m.list.add type.toInt m.nextBlock (m.nextBlock + 2) = some (m.list, [.returned (-1)]) := by
                simp [HeapList.add, hfound]
              refine ⟨-1, box, _, kept, (m.nextBlock, m.nextBlock + 1) :: leaks, rfl, ?_, hvalue, rfl, hheld, rfl, rfl⟩
              simp only [BoxMemory.mallocBytes, BoxMemory.mallocTlv, hadd, Option.bind_some, BoxMemory.addStatus]
              rfl

theorem node_at {list : HeapList Nat Nat} {k : Kept}
    (hpath : Path (HeapList.nextOf list.heap list.header) (HeapList.addresses ((k :: kept).map Kept.entry) ++ [none]))
    (hstored : HeapList.Stored list.heap k.entry) :
    ∃ node, list.heap k.node = some node ∧ node.value = k.tlv ∧ node.next = HeapList.first (kept.map Kept.entry) := by
  obtain ⟨node, hnode, -, hvalue⟩ := hstored
  have hnext := HeapList.next_eq_first hpath
  simp only [HeapList.nextOf, Kept.entry] at hnext hnode
  rw [hnode, Option.map_some, Option.some.injEq] at hnext
  exact ⟨node, hnode, hvalue, hnext⟩

/-- The walk of `tlv_box_serialize` along the nodes writes what a walk along the records of the box does. -/
theorem serializeLoop_eq (e : Endian) (hload : ∀ k ∈ kept, m.load k.tlv = some k.data)
    (hpath : Path (HeapList.nextOf m.list.heap m.list.header) (HeapList.addresses (kept.map Kept.entry) ++ [none]))
    (hstored : ∀ k ∈ kept, HeapList.Stored m.list.heap k.entry) {fuel : Nat} (hfuel : kept.length < fuel) (offset : Nat)
    (buffer : List UInt8) :
    m.serializeLoop e fuel (HeapList.first (kept.map Kept.entry)) offset buffer =
      (serializeLoop e (kept.map Kept.data) offset buffer).map Prod.snd := by
  induction kept generalizing fuel offset buffer with
  | nil =>
      obtain ⟨fuel, rfl⟩ : ∃ n, fuel = n + 1 := ⟨fuel - 1, by simp at hfuel; omega⟩
      rfl
  | cons k kept ih =>
      obtain ⟨fuel, rfl⟩ : ∃ n, fuel = n + 1 := ⟨fuel - 1, by simp at hfuel; omega⟩
      obtain ⟨node, hnode, hvalue, hnext⟩ := node_at hpath (hstored k List.mem_cons_self)
      change m.serializeLoop e (fuel + 1) (some k.node) offset buffer = _
      rw [List.map_cons]
      simp only [BoxMemory.serializeLoop, serializeLoop, hnode, hvalue, hnext, hload k List.mem_cons_self,
        Option.bind_eq_bind, Option.bind_some, Option.map_bind, Function.comp_def]
      have hrest := fun offset buffer => ih (fun k hk => hload k (List.mem_cons_of_mem _ hk)) hpath.tail
        (fun k hk => hstored k (List.mem_cons_of_mem _ hk)) (by simpa using hfuel) offset buffer
      simp only [hrest]

theorem serialize (h : Keeps m box kept leaks held) (e : Endian) (heap : Nat → UInt8) :
    (tlvBoxSerialize e heap box = none ∧ m.serialize e heap = none) ∨
    ∃ status box' m' held', tlvBoxSerialize e heap box = some (status, box') ∧
      m.serialize e heap = some (m', status) ∧ Keeps m' box' kept leaks held' ∧
      (held = m.mSerializedBuffer.toList → held' = m'.mSerializedBuffer.toList) := by
  rw [tlvBoxSerialize, BoxMemory.serialize, h.serialized]
  cases hser : box.mSerializedBuffer.isSome with
  | true => exact .inr ⟨-1, box, m, held, rfl, rfl, h, id⟩
  | false =>
      have hnone : m.mSerializedBuffer = none := by
        rw [← Option.not_isSome_iff_eq_none, h.serialized, hser]
        exact Bool.false_ne_true
      have hdata : box.mList.nodes.map Prod.snd = kept.map Kept.data := by
        rw [h.mList, List.map_map]
        rfl
      have hstored : ∀ k ∈ kept, HeapList.Stored m.list.heap k.entry := fun k hk =>
        h.list.stored _ (List.mem_map_of_mem hk)
      have hloop := serializeLoop_eq e (fun k hk => h.load hk) h.list.forward.tail hstored
        (by rw [h.list.count, List.length_map]; omega : _ < m.list.count.toNat + 1) 0
        (malloc heap m.mSerializedBytes.toNat)
      rw [if_neg Bool.false_ne_true, if_neg Bool.false_ne_true, hdata, ← h.size, h.list.header_eq, hloop]
      cases serializeLoop e (kept.map Kept.data) 0 (malloc heap m.mSerializedBytes.toNat) with
      | none => exact .inl ⟨rfl, rfl⟩
      | some r =>
          right
          have hmalloc := h.mallocBytes r.2
          refine ⟨0, _, _, held ++ [m.nextBlock], rfl, rfl, ?_, ?_⟩
          · refine ⟨hmalloc.list, hmalloc.mList, hmalloc.tlv, hmalloc.value, ?_, ?_, rfl, hmalloc.tlvs,
              hmalloc.bytes, hmalloc.tlvNodup, hmalloc.bytesNodup, hmalloc.fresh⟩
            · simp [BoxMemory.mallocBytes]
            · simp
          · intro hheld
            simp [hheld, hnone]

theorem getValue (h : Keeps m box kept leaks held) (type : BitVec 16) :
    m.getValue type = some (keyListGet box.mList type.toInt) := by
  obtain ⟨hentries, hitems⟩ := h.find type.toInt
  rw [keyListGet, hitems, BoxMemory.getValue, HeapList.get, h.list.getNode_eq, hentries]
  cases hfind : kept.find? fun k => type.toInt = k.data.type.toInt with
  | none => rfl
  | some k =>
      have hk : k ∈ kept := List.mem_of_find?_eq_some hfind
      obtain ⟨node, hnode, -, hvalue⟩ := h.list.stored _ (List.mem_map_of_mem hk)
      have hheap : m.list.heap k.node = some node := hnode
      have htlv : node.value = k.tlv := hvalue
      simp [Kept.entry, Kept.item, hheap, htlv, h.load hk]

end Keeps

structure Erased {β : Type} (blocks blocks' : Nat → Option β) (bs : List Nat) : Prop where
  gone : ∀ b ∈ bs, blocks' b = none
  same : ∀ b, b ∉ bs → blocks' b = blocks b

theorem Erased.cons {β : Type} {blocks blocks' : Nat → Option β} {b : Nat} {bs : List Nat}
    (h : Erased (Function.update blocks b none) blocks' bs) : Erased blocks blocks' (b :: bs) where
  gone := by
    intro c hc
    by_cases hmem : c ∈ bs
    · exact h.gone c hmem
    · rw [h.same c hmem]
      rcases List.mem_cons.mp hc with rfl | hc
      · exact Function.update_self _ _ _
      · exact absurd hc hmem
  same := by
    intro c hc
    rw [List.mem_cons, not_or] at hc
    rw [h.same c hc.2, Function.update_of_ne hc.1]

namespace Keeps

variable {m : BoxMemory} {box : Box} {kept : List Kept} {leaks : List (Nat × Nat)} {held : List Nat}

theorem map_fst_entry (kept : List Kept) : (kept.map Kept.entry).map Prod.fst = kept.map Kept.node := by
  rw [List.map_map]
  rfl

/-- `key_list_destroy` frees the blocks of every value once: the node, its `tlv_t` and its bytes. The induction is
on the values that are left, and the walk still has its way from node to node. -/
theorem destroyLoop_eq (hnodes : (kept.map Kept.node).Nodup) (htlvs : (kept.map Kept.tlv).Nodup)
    (hblocks : (kept.map Kept.block).Nodup)
    (hpath : Path (HeapList.nextOf m.list.heap m.list.header) (HeapList.addresses (kept.map Kept.entry) ++ [none]))
    (hstored : ∀ k ∈ kept, HeapList.Stored m.list.heap k.entry)
    (htlv : ∀ k ∈ kept, ∃ t, m.tlvs k.tlv = some t ∧ t.value = k.block) (hvalue : ∀ k ∈ kept, (m.bytes k.block).isSome)
    {fuel : Nat} (hfuel : kept.length < fuel) :
    ∃ m', BoxMemory.destroyLoop fuel (HeapList.first (kept.map Kept.entry)) m = some m' ∧
      m'.mSerializedBuffer = m.mSerializedBuffer ∧ Erased m.list.heap m'.list.heap (kept.map Kept.node) ∧
      Erased m.tlvs m'.tlvs (kept.map Kept.tlv) ∧ Erased m.bytes m'.bytes (kept.map Kept.block) := by
  induction kept generalizing m fuel with
  | nil =>
      obtain ⟨fuel, rfl⟩ : ∃ n, fuel = n + 1 := ⟨fuel - 1, by simp at hfuel; omega⟩
      exact ⟨m, rfl, rfl, ⟨by simp, fun _ _ => rfl⟩, ⟨by simp, fun _ _ => rfl⟩, ⟨by simp, fun _ _ => rfl⟩⟩
  | cons k kept ih =>
      obtain ⟨fuel, rfl⟩ : ∃ n, fuel = n + 1 := ⟨fuel - 1, by simp at hfuel; omega⟩
      obtain ⟨node, hnode, hnodeValue, hnext⟩ := node_at hpath (hstored k List.mem_cons_self)
      obtain ⟨t, ht, htblock⟩ := htlv k List.mem_cons_self
      obtain ⟨contents, hcontents⟩ := Option.isSome_iff_exists.mp (hvalue k List.mem_cons_self)
      rw [List.map_cons, List.nodup_cons] at hnodes htlvs hblocks
      -- The memory once the first value is gone.
      let m₁ : BoxMemory := { m with
        list := { m.list with heap := Function.update m.list.heap k.node none }
        tlvs := Function.update m.tlvs k.tlv none
        bytes := Function.update m.bytes k.block none }
      have hne : ∀ k' ∈ kept, k'.node ≠ k.node ∧ k'.tlv ≠ k.tlv ∧ k'.block ≠ k.block := by
        intro k' hk'
        refine ⟨fun heq => hnodes.1 (heq ▸ List.mem_map_of_mem hk'), fun heq => htlvs.1 (heq ▸ List.mem_map_of_mem hk'),
          fun heq => hblocks.1 (heq ▸ List.mem_map_of_mem hk')⟩
      have hpath₁ : Path (HeapList.nextOf m₁.list.heap m₁.list.header)
          (HeapList.addresses (kept.map Kept.entry) ++ [none]) := by
        change Path (HeapList.nextOf (Function.update m.list.heap k.node none) m.list.header) _
        have htail : Path (HeapList.nextOf m.list.heap m.list.header)
            (HeapList.addresses (kept.map Kept.entry) ++ [none]) := hpath.tail
        rw [HeapList.nextOf_update]
        apply htail.update
        rw [List.dropLast_concat, HeapList.some_mem_addresses, map_fst_entry]
        exact hnodes.1
      obtain ⟨m', hrun, hbuffer, hnode', htlv', hblock'⟩ := ih (m := m₁) hnodes.2 htlvs.2 hblocks.2 hpath₁
        (fun k' hk' => (hstored k' (List.mem_cons_of_mem _ hk')).update_of_ne none (hne k' hk').1)
        (fun k' hk' => by simpa [m₁, (hne k' hk').2.1] using htlv k' (List.mem_cons_of_mem _ hk'))
        (fun k' hk' => by simpa [m₁, (hne k' hk').2.2] using hvalue k' (List.mem_cons_of_mem _ hk'))
        (by simpa using hfuel)
      refine ⟨m', ?_, hbuffer, hnode'.cons, htlv'.cons, hblock'.cons⟩
      change BoxMemory.destroyLoop (fuel + 1) (some k.node) m = _
      simp only [BoxMemory.destroyLoop, hnode, Option.bind_eq_bind, Option.bind_some, BoxMemory.releaseTlv, hnodeValue,
        ht, BoxMemory.freeBytes, htblock, hcontents, Option.map_some, BoxMemory.freeTlv, BoxMemory.freeNode, hnext]
      exact hrun

theorem destroy (h : Keeps m box kept leaks m.mSerializedBuffer.toList) :
    ∃ m', m.destroy = some m' ∧ (∀ a, m'.list.heap a = none) ∧
      (∀ b, (m'.tlvs b).isSome ↔ b ∈ leaks.map Prod.fst) ∧ ∀ b, (m'.bytes b).isSome ↔ b ∈ leaks.map Prod.snd := by
  have hnodes : (kept.map Kept.node).Nodup := by
    rw [← map_fst_entry]
    exact h.list.distinct
  have hbytes := List.nodup_append.mp (List.append_assoc _ _ _ ▸ h.bytesNodup)
  have htlvs := List.nodup_append.mp h.tlvNodup
  obtain ⟨m₁, hrun, hbuffer, hnode, htlv, hblock⟩ := destroyLoop_eq hnodes htlvs.1 hbytes.1 h.list.forward.tail
    (fun k hk => h.list.stored _ (List.mem_map_of_mem hk)) (fun k hk => ⟨_, h.tlv k hk, rfl⟩)
    (fun k hk => by rw [h.value k hk]; rfl) (by rw [h.list.count, List.length_map]; omega : _ < m.list.count.toNat + 1)
  have hheap : ∀ a, m₁.list.heap a = none := by
    intro a
    by_cases ha : a ∈ kept.map Kept.node
    · exact hnode.gone a ha
    · rw [hnode.same a ha, ← Option.not_isSome_iff_eq_none]
      intro hsome
      have howned := h.list.owned a hsome
      rw [map_fst_entry] at howned
      exact ha howned
  have hleft : ∀ b, (m₁.tlvs b).isSome ↔ b ∈ leaks.map Prod.fst := by
    intro b
    by_cases hb : b ∈ kept.map Kept.tlv
    · rw [htlv.gone b hb]
      simp only [Option.isSome_none, Bool.false_eq_true, false_iff]
      exact fun hleak => htlvs.2.2 b hb b hleak rfl
    · rw [htlv.same b hb, h.tlvs, List.mem_append]
      exact or_iff_right hb
  have hrest : ∀ b, (m₁.bytes b).isSome ↔ b ∈ leaks.map Prod.snd ++ m.mSerializedBuffer.toList := by
    intro b
    by_cases hb : b ∈ kept.map Kept.block
    · rw [hblock.gone b hb]
      simp only [Option.isSome_none, Bool.false_eq_true, false_iff]
      exact fun hleak => hbytes.2.2 b hb b hleak rfl
    · rw [hblock.same b hb, h.bytes, List.append_assoc, List.mem_append]
      exact or_iff_right hb
  rw [BoxMemory.destroy, h.list.header_eq, hrun, Option.bind_eq_bind, Option.bind_some, hbuffer]
  cases hbuf : m.mSerializedBuffer with
  | none =>
      refine ⟨m₁, rfl, hheap, hleft, fun b => ?_⟩
      rw [hrest, hbuf]
      simp
  | some buffer =>
      have hthere : (m₁.bytes buffer).isSome := by
        rw [hrest, hbuf]
        simp
      obtain ⟨contents, hcontents⟩ := Option.isSome_iff_exists.mp hthere
      refine ⟨{ m₁ with bytes := Function.update m₁.bytes buffer none }, ?_, hheap, hleft, fun b => ?_⟩
      · simp only [BoxMemory.freeBytes, hcontents, Option.map_some]
      · have hout : buffer ∉ leaks.map Prod.snd := by
          intro hmem
          exact (List.nodup_append.mp hbytes.2.1).2.2 buffer hmem buffer (by simp [hbuf]) rfl
        by_cases hb : b = buffer
        · subst hb
          simpa using hout
        · dsimp only
          rw [Function.update_of_ne hb, hrest, hbuf]
          simp [hb]

/-- The loop of `tlv_box_parse` puts each record into the box; a record that is refused leaves its blocks. -/
theorem parseLoop_format (e : Endian) {cached before : List UInt8} {buffersize : BitVec 32} {rs : List Record} {fuel : Nat}
    (hcached : cached = before ++ format rs) (hsize : buffersize.toInt = cached.length) (hfuel : rs.length < fuel)
    (h : Keeps m box kept leaks held) (hopen : box.mSerializedBuffer = none) :
    ∃ m' kept' leaks', BoxMemory.parseLoop e cached buffersize fuel before.length m = some m' ∧
      Keeps m' (rs.foldl Box.add box) kept' leaks' held ∧ (∀ b ∈ held, m'.bytes b = m.bytes b) ∧
      kept'.length + leaks'.length = kept.length + leaks.length + rs.length := by
  induction rs generalizing before m box kept leaks fuel with
  | nil =>
      obtain ⟨fuel, rfl⟩ : ∃ n, fuel = n + 1 := ⟨fuel - 1, by simp at hfuel; omega⟩
      have hend : ¬ (before.length : Int) < buffersize.toInt := by
        rw [hsize, hcached]
        simp [format]
      exact ⟨m, kept, leaks, by rw [BoxMemory.parseLoop, if_neg hend], h, fun _ _ => rfl, rfl⟩
  | cons r rs ih =>
      obtain ⟨fuel, rfl⟩ : ∃ n, fuel = n + 1 := ⟨fuel - 1, by simp at hfuel; omega⟩
      have hgo : (before.length : Int) < buffersize.toInt := by
        rw [hsize, hcached, List.length_append, format_cons, List.length_append, r.bytes_length]
        omega
      have htype : cached.drop before.length =
          Endian.big.store r.type ++ (Endian.big.store r.length ++ (r.payload ++ format rs)) := by
        rw [hcached, List.drop_left, format_cons, Record.bytes]
        simp only [List.append_assoc]
      have hlength : cached.drop (before.length + 2) = Endian.big.store r.length ++ (r.payload ++ format rs) := by
        rw [← List.drop_drop, htype, List.drop_left' (by simp)]
      have hvalue : cached.drop (before.length + 4) = r.payload ++ format rs := by
        rw [show before.length + 4 = before.length + 2 + 2 from rfl, ← List.drop_drop, hlength,
          List.drop_left' (by simp)]
      have hntoh (v : BitVec 16) : e.ntoh (e.load 16 (Endian.big.store v)) = v := e.ntoh_load rfl v
      have hnext : before.length + 4 + sizeT r.length = (before ++ r.bytes).length := by
        rw [r.sizeT_length, List.length_append, r.bytes_length]
        omega
      obtain ⟨status, hput⟩ := putobject_record r (format rs) hopen
      rcases h.putobject r.type (r.payload ++ format rs) r.length .bytes with
        ⟨hnone, -⟩ | ⟨status', box₁, m₁, kept₁, leaks₁, hbox, hmem, h₁, hdone⟩
      · rw [hput] at hnone
        cases hnone
      · obtain ⟨rfl, rfl⟩ : status = status' ∧ box.add r = box₁ := by
          rw [hput] at hbox
          simpa using hbox
        obtain ⟨m', kept', leaks', hloop, h', hheld, htotal⟩ := ih (hcached.trans (by rw [format_cons, List.append_assoc]))
          (by simpa using hfuel) h₁ (box.add_open r hopen)
        refine ⟨m', kept', leaks', ?_, h', fun b hb => (hheld b hb).trans (hdone.held b hb), ?_⟩
        · simp only [BoxMemory.parseLoop, if_pos hgo, htype, hlength, hvalue, deref_store, hntoh, Option.bind_eq_bind,
            Option.bind_some, hmem, hnext, hloop]
        · have hone := hdone.total
          rw [hopen, Option.isSome_none, if_neg Bool.false_ne_true] at hone
          rw [htotal, hone, List.length_cons]
          omega

end Keeps

/-! ### The life of a box -/

/-- The calls on a box. Every getter looks for a record and then reads it. -/
inductive BoxCall
  | put (type : BitVec 16) (value : List UInt8) (length : BitVec 16) (dataType : DataType)
  | serialize
  | get (type : BitVec 16)

inductive BoxEvent
  | put (serialized : Bool) (status : Int)
  | serialize (status : Int)
  | got (tlv : Option TlvT)

def BoxEvent.refused : BoxEvent → Nat
  | .put serialized status => Keeps.refusals serialized status
  | _ => 0

def boxValues (e : Endian) (heap : Nat → UInt8) : Machine Box BoxCall BoxEvent where
  init := tlvBoxCreate
  step box
    | .put type value length dataType =>
        (tlvBoxPutobject box type value length dataType).map fun r => (r.2, [.put box.mSerializedBuffer.isSome r.1])
    | .serialize => (tlvBoxSerialize e heap box).map fun r => (r.2, [.serialize r.1])
    | .get type => some (box, [.got (keyListGet box.mList type.toInt)])

def boxMemories (e : Endian) (heap : Nat → UInt8) : Machine BoxMemory BoxCall BoxEvent where
  init := .create
  step m
    | .put type value length dataType =>
        (m.putobject type value length dataType).map fun r => (r.1, [.put m.mSerializedBuffer.isSome r.2])
    | .serialize => (m.serialize e heap).map fun r => (r.1, [.serialize r.2])
    | .get type => (m.getValue type).map fun tlv => (m, [.got tlv])

/-- The memory of a box between two calls, with the number of values that were refused. -/
def Owns (m : BoxMemory) (box : Box) (refused : Nat) : Prop :=
  ∃ kept leaks, Keeps m box kept leaks m.mSerializedBuffer.toList ∧ leaks.length = refused

/-- A call on the box in memory answers as one on the box does, and leaves two blocks more if it refuses a value. -/
theorem Owns.step {m : BoxMemory} {box : Box} {refused : Nat} (e : Endian) (heap : Nat → UInt8) (h : Owns m box refused)
    (call : BoxCall) :
    Option.Rel (fun r r' => Owns r.1 r'.1 (refused + (r'.2.map BoxEvent.refused).sum) ∧ r.2 = r'.2)
      ((boxMemories e heap).step m call) ((boxValues e heap).step box call) := by
  obtain ⟨kept, leaks, hkeeps, hlength⟩ := h
  cases call with
  | put type value length dataType =>
      simp only [boxValues, boxMemories, hkeeps.serialized]
      rcases hkeeps.putobject type value length dataType with
        ⟨hnone, hmem⟩ | ⟨status, box', m', kept', leaks', hbox, hmem, hkeeps', hdone⟩
      · rw [hnone, hmem]
        exact .none
      · rw [hbox, hmem]
        refine .some ⟨⟨kept', leaks', hdone.buffer ▸ hkeeps', ?_⟩, rfl⟩
        simp [hdone.refused, hlength, BoxEvent.refused]
  | serialize =>
      simp only [boxValues, boxMemories]
      rcases hkeeps.serialize e heap with ⟨hnone, hmem⟩ | ⟨status, box', m', held', hbox, hmem, hkeeps', hheld⟩
      · rw [hnone, hmem]
        exact .none
      · rw [hbox, hmem]
        exact .some ⟨⟨kept, leaks, hheld rfl ▸ hkeeps', hlength⟩, rfl⟩
  | get type =>
      simp only [boxValues, boxMemories, hkeeps.getValue, Option.map_some]
      exact .some ⟨⟨kept, leaks, hkeeps, hlength⟩, rfl⟩

/-- What `tlv_box_destroy` leaves of a box: for each refused value its `tlv_t` and its bytes, and nothing else. -/
def DestroyLeaves (m : BoxMemory) (refused : Nat) : Prop :=
  ∃ (m' : BoxMemory) (leaks : List (Nat × Nat)), m.destroy = some m' ∧ leaks.length = refused ∧
    (leaks.map Prod.fst).Nodup ∧ (leaks.map Prod.snd).Nodup ∧
    (∀ a, m'.list.heap a = none) ∧ (∀ b, (m'.tlvs b).isSome ↔ b ∈ leaks.map Prod.fst) ∧
    ∀ b, (m'.bytes b).isSome ↔ b ∈ leaks.map Prod.snd

theorem Owns.destroyLeaves {m : BoxMemory} {box : Box} {refused : Nat} (h : Owns m box refused) :
    DestroyLeaves m refused := by
  obtain ⟨kept, leaks, hkeeps, hlength⟩ := h
  obtain ⟨m', hrun, hheap, htlvs, hbytes⟩ := hkeeps.destroy
  have hnodup := List.nodup_append.mp (List.append_assoc _ _ _ ▸ hkeeps.bytesNodup)
  exact ⟨m', leaks, hrun, hlength, (List.nodup_append.mp hkeeps.tlvNodup).2.1, (List.nodup_append.mp hnodup.2.1).1,
    hheap, htlvs, hbytes⟩

/-- Whatever is called on a box that was created: the calls answer in memory as they do on the box, a call has a
result in memory exactly when it has one on the box, and destroying the box then frees every block of it once,
but for two blocks for each value that was refused because its type was there. -/
theorem box_memory (e : Endian) (heap : Nat → UInt8) {tr : List BoxEvent} {box : Box}
    (hsteps : Steps (boxValues e heap) (fun _ _ => True) (boxValues e heap).init tr box) :
    ∃ m, Steps (boxMemories e heap) (fun _ _ => True) (boxMemories e heap).init tr m ∧
      (∀ call, ((boxMemories e heap).step m call).isSome = ((boxValues e heap).step box call).isSome) ∧
      DestroyLeaves m (tr.map BoxEvent.refused).sum := by
  have key : ∃ m, Steps (boxMemories e heap) (fun _ _ => True) (boxMemories e heap).init tr m ∧
      Owns m box (tr.map BoxEvent.refused).sum := by
    refine hsteps.trace_invariant (I := fun tr box => ∃ m, Steps (boxMemories e heap) (fun _ _ => True)
      (boxMemories e heap).init tr m ∧ Owns m box (tr.map BoxEvent.refused).sum)
      ⟨_, .nil, [], [], keeps_create, rfl⟩ ?_
    rintro tr box call box' ev ⟨m, hrun, howns⟩ - hstep
    have hmatch := howns.step e heap call
    rw [hstep] at hmatch
    cases hmem : (boxMemories e heap).step m call with
    | none =>
        rw [hmem] at hmatch
        cases hmatch
    | some r =>
        rw [hmem] at hmatch
        cases hmatch with
        | some hres =>
            rw [List.map_append, List.sum_append]
            exact ⟨r.1, .snoc hrun trivial (hmem.trans (congrArg some (Prod.ext rfl hres.2))), hres.1⟩
  obtain ⟨m, hrun, howns⟩ := key
  refine ⟨m, hrun, fun call => ?_, howns.destroyLeaves⟩
  have hmatch := howns.step e heap call
  cases hmem : (boxMemories e heap).step m call with
  | none =>
      cases hbox : (boxValues e heap).step box call with
      | none => rfl
      | some r =>
          rw [hmem, hbox] at hmatch
          cases hmatch
  | some r =>
      cases hbox : (boxValues e heap).step box call with
      | none =>
          rw [hmem, hbox] at hmatch
          cases hmatch
      | some r' => rfl

def putTwice : List BoxCall := [.put 1 [7] 1 .char, .put 1 [8] 1 .char, .put 2 [9] 1 .char, .serialize, .put 3 [9] 1 .char]

theorem box_memory_putTwice : ∃ tr box m, Steps (boxValues .little fun _ => 0) (fun _ _ => True)
      (boxValues .little fun _ => 0).init tr box ∧ box.mSerializedBuffer = some [0, 2, 0, 1, 9, 0, 1, 0, 1, 7] ∧
    Steps (boxMemories .little fun _ => 0) (fun _ _ => True) (boxMemories .little fun _ => 0).init tr m ∧
    DestroyLeaves m 1 := by
  have hany : ((boxValues .little fun _ => 0).exec (fun _ _ => True) (boxValues .little fun _ => 0).init putTwice).any
      (fun r => decide (r.1.mSerializedBuffer = some [0, 2, 0, 1, 9, 0, 1, 0, 1, 7] ∧
        (r.2.map BoxEvent.refused).sum = 1)) = true := by decide +kernel
  obtain ⟨box, tr, hsteps, htest⟩ := exists_steps_of_exec putTwice hany
  obtain ⟨hbuffer, hrefused⟩ := of_decide_eq_true htest
  obtain ⟨m, hrun, -, hleaves⟩ := box_memory .little (fun _ => 0) hsteps
  exact ⟨tr, box, m, hsteps, hbuffer, hrun, hrefused ▸ hleaves⟩

/-- A parsed buffer: the box in memory holds what the parsed box holds, and destroying it frees every block of it
once, but for two blocks for each record whose type had come before. -/
theorem parsed_memory (e : Endian) (rs : List Record) (buffersize : BitVec 32)
    (hsize : buffersize.toInt = (format rs).length) :
    ∃ m box, BoxMemory.parse e (format rs) buffersize = some m ∧ tlvBoxParse e (format rs) buffersize = some box ∧
      (∀ type, m.getValue type = some (keyListGet box.mList type.toInt)) ∧
      DestroyLeaves m (rs.length - (rs.map Record.type).dedup.length) := by
  have hdup : memdup (format rs) buffersize.toNat = some (format rs) := by simp [memdup, toNat_eq_length hsize]
  have hcached : format rs = [] ++ format rs := rfl
  obtain ⟨m, kept, leaks, hloop, hkeeps, hheld, htotal⟩ := Keeps.parseLoop_format e hcached hsize
    (Nat.lt_succ_of_le (length_le_format rs)) (keeps_create.mallocBytes (format rs)) rfl
  have hcopy : m.bytes 0 = some (format rs) := by
    rw [hheld 0 (by simp [BoxMemory.create])]
    rfl
  have hparse : tlvBoxParse e (format rs) buffersize = some
      { rs.foldl Box.add tlvBoxCreate with mSerializedBuffer := some (format rs), mSerializedBytes := buffersize } := by
    rw [tlvBoxParse_eq e hsize, tlvBoxParseTrace_format e hsize]
    rfl
  have hdone : Keeps { m with mSerializedBuffer := some 0, mSerializedBytes := buffersize }
      { rs.foldl Box.add tlvBoxCreate with mSerializedBuffer := some (format rs), mSerializedBytes := buffersize }
      kept leaks [0] :=
    ⟨hkeeps.list, hkeeps.mList, hkeeps.tlv, hkeeps.value, by simp [hcopy], by simp, rfl, hkeeps.tlvs, hkeeps.bytes,
      hkeeps.tlvNodup, hkeeps.bytesNodup, hkeeps.fresh⟩
  have hcount : kept.length = (rs.map Record.type).dedup.length := by
    rw [← foldl_add_count, keyListCount, hkeeps.mList]
  refine ⟨_, _, ?_, hparse, hdone.getValue, ?_⟩
  · rw [BoxMemory.parse, hdup, Option.bind_eq_bind, Option.bind_some]
    exact congrArg (fun r : Option BoxMemory => r.bind fun m =>
      some { m with mSerializedBuffer := some 0, mSerializedBytes := buffersize }) hloop
  · have howns : Owns _ _ leaks.length := ⟨kept, leaks, hdone, rfl⟩
    have hrefused : rs.length - (rs.map Record.type).dedup.length = leaks.length := by
      simp only [List.length_nil] at htotal
      omega
    rw [hrefused]
    exact howns.destroyLeaves

def repeatedType : List Record := [⟨1, [7], by decide⟩, ⟨1, [], by decide⟩]

theorem parsed_memory_repeatedType : ∃ m box, BoxMemory.parse .little (format repeatedType) 9 = some m ∧
    tlvBoxParse .little (format repeatedType) 9 = some box ∧
    (∀ type, m.getValue type = some (keyListGet box.mList type.toInt)) ∧ DestroyLeaves m 1 := by
  have hsize : (9 : BitVec 32).toInt = (format repeatedType).length := by decide
  have hrefused : repeatedType.length - (repeatedType.map Record.type).dedup.length = 1 := by decide
  rw [← hrefused]
  exact parsed_memory .little repeatedType 9 hsize

end Pc02.Tlv

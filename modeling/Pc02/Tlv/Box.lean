import Pc02.Lib.ByteOrder
import Pc02.Lib.Memory
import Pc02.Tlv.KeyList

/-!
# TLV boxes

A box holds typed values until it is serialised. Numbers are kept in host order in a box that is being
built and in network order in one that was parsed. A call that reads or writes outside the memory it
owns has no result.
-/

namespace Pc02.Tlv

open Pc02.Lib

inductive DataType
  | char | short | int | long | bytes | string | object
deriving DecidableEq, Repr

structure TlvT where
  type : BitVec 16
  length : BitVec 16
  value : List UInt8
  dataType : DataType

structure Box where
  mList : KeyList TlvT
  mSerializedBuffer : Option (List UInt8)
  mSerializedBytes : BitVec 32

def tlvBoxCreate : Box := { mList := keyListCreate, mSerializedBuffer := none, mSerializedBytes := 0 }

/-- What a `short` becomes as a `size_t`: a negative length is huge. -/
def sizeT (length : BitVec 16) : Nat := (length.signExtend 32).toNat

def deref (e : Endian) (w : Nat) (p : List UInt8) : Option (BitVec w) :=
  if w / 8 ≤ p.length then some (e.load w (p.take (w / 8))) else none

/-- The status with the box after the call. -/
def tlvBoxPutobject (box : Box) (type : BitVec 16) (value : List UInt8) (length : BitVec 16)
    (dataType : DataType) : Option (Int × Box) :=
  if box.mSerializedBuffer.isSome then some (-1, box)
  else do
    let value ← memdup value (sizeT length)
    let tlv : TlvT := { type := type, length := length, value := value, dataType := dataType }
    let (status, list) := keyListAdd box.mList type.toInt tlv
    if status ≠ 0 then some (-1, box)
    else
      some (0, { box with mList := list, mSerializedBytes := box.mSerializedBytes + (4 + length.signExtend 32) })

def tlvBoxPutChar (box : Box) (type : BitVec 16) (value : UInt8) : Option (Int × Box) :=
  tlvBoxPutobject box type [value] 1 .char

def tlvBoxPutNumber (e : Endian) (dataType : DataType) {w : Nat} (box : Box) (type : BitVec 16) (value : BitVec w) :
    Option (Int × Box) :=
  tlvBoxPutobject box type (e.store value) (BitVec.ofNat 16 (w / 8)) dataType

def tlvBoxPutShort (e : Endian) : Box → BitVec 16 → BitVec 16 → Option (Int × Box) := tlvBoxPutNumber e .short

def tlvBoxPutInt (e : Endian) : Box → BitVec 16 → BitVec 32 → Option (Int × Box) := tlvBoxPutNumber e .int

def tlvBoxPutLong (e : Endian) : Box → BitVec 16 → BitVec 32 → Option (Int × Box) := tlvBoxPutNumber e .long

/-- `value` is the string without the NUL that ends it. -/
def tlvBoxPutString (box : Box) (type : BitVec 16) (value : List UInt8) : Option (Int × Box) :=
  tlvBoxPutobject box type (value ++ [0]) (BitVec.ofNat 16 (value.length + 1)) .string

def tlvBoxPutBytes (box : Box) (type : BitVec 16) (value : List UInt8) (length : BitVec 16) : Option (Int × Box) :=
  tlvBoxPutobject box type value length .bytes

def tlvBoxPutObject (box : Box) (type : BitVec 16) (object : Box) : Option (Int × Box) :=
  tlvBoxPutobject box type (object.mSerializedBuffer.getD []) (object.mSerializedBytes.setWidth 16) .object

def networkValue (e : Endian) (tlv : TlvT) : Option (List UInt8) :=
  match tlv.dataType with
  | .short => (deref e 16 tlv.value).map fun t => e.store (e.hton t)
  | .int => (deref e 32 tlv.value).map fun t => e.store (e.hton t)
  | .long => (deref e 32 tlv.value).map fun t => e.store (e.hton t)
  | _ => some tlv.value

/-- The loop of `tlv_box_serialize`, with the offset it ends at. -/
def serializeLoop (e : Endian) : List TlvT → Nat → List UInt8 → Option (Nat × List UInt8)
  | [], offset, buffer => some (offset, buffer)
  | tlv :: tlvs, offset, buffer => do
      let buffer ← memcpy buffer offset (e.store (e.hton tlv.type)) 2
      let buffer ← memcpy buffer (offset + 2) (e.store (e.hton tlv.length)) 2
      let t ← networkValue e tlv
      let buffer ← memcpy buffer (offset + 4) t (sizeT tlv.length)
      serializeLoop e tlvs (offset + 4 + sizeT tlv.length) buffer

/-- A block from `malloc`, filled with whatever was there. -/
def malloc (heap : Nat → UInt8) (size : Nat) : List UInt8 := (List.range size).map heap

def tlvBoxSerialize (e : Endian) (heap : Nat → UInt8) (box : Box) : Option (Int × Box) :=
  if box.mSerializedBuffer.isSome then some (-1, box)
  else do
    let (_, buffer) ← serializeLoop e (box.mList.nodes.map Prod.snd) 0 (malloc heap box.mSerializedBytes.toNat)
    some (0, { box with mSerializedBuffer := some buffer })

def tlvBoxGetBuffer (box : Box) : List UInt8 := box.mSerializedBuffer.getD []

def tlvBoxGetSize (box : Box) : BitVec 32 := box.mSerializedBytes

/-- The loop of `tlv_box_parse`. The fuel is for records, of which none is shorter than four bytes. -/
def parseLoop (e : Endian) (cached : List UInt8) (buffersize : BitVec 32) : Nat → Nat → Box → Option Box
  | 0, _, _ => none
  | fuel + 1, offset, box =>
      if (offset : Int) < buffersize.toInt then do
        let type ← deref e 16 (cached.drop offset)
        let length ← deref e 16 (cached.drop (offset + 2))
        let (_, box) ← tlvBoxPutobject box (e.ntoh type) (cached.drop (offset + 4)) (e.ntoh length) .bytes
        parseLoop e cached buffersize fuel (offset + 4 + sizeT (e.ntoh length)) box
      else some box

def tlvBoxParse (e : Endian) (buffer : List UInt8) (buffersize : BitVec 32) : Option Box := do
  let cached ← memdup buffer buffersize.toNat
  let box ← parseLoop e cached buffersize (cached.length + 1) 0 tlvBoxCreate
  some { box with mSerializedBuffer := some cached, mSerializedBytes := buffersize }

/-- A getter: nothing is returned with the status -1. -/
def getValue {α : Type} (box : Box) (type : BitVec 16) (read : TlvT → Option (Option α)) : Option (Option α) :=
  match keyListGet box.mList type.toInt with
  | none => some none
  | some tlv => read tlv

def tlvBoxGetChar (box : Box) (type : BitVec 16) : Option (Option UInt8) :=
  getValue box type fun tlv => tlv.value.head?.map some

def tlvBoxGetNumber (e : Endian) (w : Nat) (box : Box) (type : BitVec 16) : Option (Option (BitVec w)) :=
  getValue box type fun tlv => (deref e w tlv.value).map fun t => some (e.ntoh t)

def tlvBoxGetShort (e : Endian) : Box → BitVec 16 → Option (Option (BitVec 16)) := tlvBoxGetNumber e 16

def tlvBoxGetInt (e : Endian) : Box → BitVec 16 → Option (Option (BitVec 32)) := tlvBoxGetNumber e 32

def tlvBoxGetLong (e : Endian) : Box → BitVec 16 → Option (Option (BitVec 32)) := tlvBoxGetNumber e 32

/-- The buffer of the caller, which has `length` bytes, and the length stored back. -/
def tlvBoxGetBytes (box : Box) (type : BitVec 16) (length : BitVec 16) : Option (Option (List UInt8 × BitVec 16)) :=
  getValue box type fun tlv =>
    if length.toInt < tlv.length.toInt then some none
    else (memcpy (List.replicate (sizeT length) 0) 0 tlv.value (sizeT tlv.length)).map fun value =>
      some (value, tlv.length)

def tlvBoxGetString : Box → BitVec 16 → BitVec 16 → Option (Option (List UInt8 × BitVec 16)) := tlvBoxGetBytes

def tlvBoxGetBytesPtr (box : Box) (type : BitVec 16) : Option (Option (List UInt8 × BitVec 16)) :=
  getValue box type fun tlv => some (some (tlv.value, tlv.length))

def tlvBoxGetObject (e : Endian) (box : Box) (type : BitVec 16) : Option (Option Box) :=
  getValue box type fun tlv => (tlvBoxParse e tlv.value (tlv.length.signExtend 32)).map some

end Pc02.Tlv

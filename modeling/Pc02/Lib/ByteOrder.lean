import Mathlib.Tactic.Linarith

/-!
# Numbers in memory

A number is stored in so many bytes, the least or the most significant first. Reading them in the
order they were stored in gives the number back; reading them in the other order swaps its bytes.
-/

namespace Pc02.Lib

inductive Endian
  | little
  | big
deriving DecidableEq, Repr

def bytesOf : (n : Nat) → Nat → List UInt8
  | 0, _ => []
  | n + 1, v => UInt8.ofNat v :: bytesOf n (v / 256)

def ofBytes : List UInt8 → Nat
  | [] => 0
  | b :: bytes => b.toNat + 256 * ofBytes bytes

/-- The bytes of an object of `8 * n` bits in memory. -/
def Endian.store (e : Endian) {w : Nat} (v : BitVec w) : List UInt8 :=
  match e with
  | .little => bytesOf (w / 8) v.toNat
  | .big => (bytesOf (w / 8) v.toNat).reverse

/-- The object that bytes in memory stand for. -/
def Endian.load (e : Endian) (w : Nat) (bytes : List UInt8) : BitVec w :=
  match e with
  | .little => BitVec.ofNat w (ofBytes bytes)
  | .big => BitVec.ofNat w (ofBytes bytes.reverse)

/-- `htons` and `htonl`: the object that is in memory on the host as `v` is in network order. -/
def Endian.hton (e : Endian) {w : Nat} (v : BitVec w) : BitVec w := e.load w (Endian.big.store v)

def Endian.ntoh (e : Endian) {w : Nat} (v : BitVec w) : BitVec w := Endian.big.load w (e.store v)

theorem bytesOf_length (n v : Nat) : (bytesOf n v).length = n := by
  induction n generalizing v with
  | zero => rfl
  | succ n ih => simp [bytesOf, ih]

theorem ofBytes_bytesOf (n v : Nat) : ofBytes (bytesOf n v) = v % 256 ^ n := by
  induction n generalizing v with
  | zero => simp [bytesOf, ofBytes, Nat.mod_one]
  | succ n ih =>
      have hbyte : (UInt8.ofNat v).toNat = v % 256 := by simp
      rw [bytesOf, ofBytes, ih, hbyte, pow_succ, Nat.mul_comm (256 ^ n), Nat.mod_mul]

theorem bytesOf_ofBytes {n : Nat} {bytes : List UInt8} (h : bytes.length = n) : bytesOf n (ofBytes bytes) = bytes := by
  induction n generalizing bytes with
  | zero => simp [List.length_eq_zero_iff.mp h, bytesOf]
  | succ n ih =>
      match bytes, h with
      | b :: bytes, h =>
          have hlt : b.toNat < 256 := b.toNat_lt
          have hhead : UInt8.ofNat (b.toNat + 256 * ofBytes bytes) = b := by
            apply UInt8.toNat_inj.mp
            rw [UInt8.toNat_ofNat']
            omega
          have htail : (b.toNat + 256 * ofBytes bytes) / 256 = ofBytes bytes := by omega
          rw [ofBytes, bytesOf, hhead, htail, ih (by simpa using h)]

theorem ofBytes_lt (bytes : List UInt8) : ofBytes bytes < 256 ^ bytes.length := by
  induction bytes with
  | nil => simp [ofBytes]
  | cons b bytes ih =>
      have hlt : b.toNat < 256 := b.toNat_lt
      rw [ofBytes, List.length_cons, pow_succ]
      omega

variable (e : Endian) {w : Nat}

@[simp] theorem Endian.store_length (v : BitVec w) : (e.store v).length = w / 8 := by
  cases e <;> simp [Endian.store, bytesOf_length]

@[simp] theorem Endian.load_store (hw : w = 8 * (w / 8)) (v : BitVec w) : e.load w (e.store v) = v := by
  have hpow : 256 ^ (w / 8) = 2 ^ w := by
    rw [show 256 = 2 ^ 8 from rfl, ← pow_mul, ← hw]
  cases e <;> simp [Endian.store, Endian.load, ofBytes_bytesOf, hpow]

theorem Endian.store_load {bytes : List UInt8} (h : w = 8 * bytes.length) : e.store (e.load w bytes) = bytes := by
  have hpow : 256 ^ bytes.length = 2 ^ w := by
    rw [show 256 = 2 ^ 8 from rfl, ← pow_mul, ← h]
  have hdiv : w / 8 = bytes.length := by omega
  have hlt := ofBytes_lt bytes
  have hlt' := ofBytes_lt bytes.reverse
  rw [List.length_reverse] at hlt'
  rw [hpow] at hlt hlt'
  cases e with
  | little =>
      rw [Endian.store, Endian.load, BitVec.toNat_ofNat, Nat.mod_eq_of_lt hlt, hdiv]
      exact bytesOf_ofBytes rfl
  | big =>
      rw [Endian.store, Endian.load, BitVec.toNat_ofNat, Nat.mod_eq_of_lt hlt', hdiv]
      rw [bytesOf_ofBytes (List.length_reverse), List.reverse_reverse]

/-- In memory, a converted object is the object in network order. -/
theorem Endian.store_hton (hw : w = 8 * (w / 8)) (v : BitVec w) : e.store (e.hton v) = Endian.big.store v := by
  rw [Endian.hton, Endian.store_load]
  simpa using hw

theorem Endian.ntoh_load (hw : w = 8 * (w / 8)) (v : BitVec w) : e.ntoh (e.load w (Endian.big.store v)) = v := by
  rw [Endian.ntoh, Endian.store_load, Endian.load_store _ hw]
  simpa using hw

theorem Endian.store_ntoh_load {bytes : List UInt8} (h : w = 8 * bytes.length) :
    Endian.big.store (e.ntoh (e.load w bytes)) = bytes := by
  rw [Endian.ntoh, Endian.store_load e h, Endian.store_load .big h]

end Pc02.Lib

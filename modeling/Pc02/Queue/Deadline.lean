import Mathlib.Tactic.Linarith

/-!
# Deadlines

A timeout in milliseconds becomes a point in time in two places, for semaphores with signed and for
queues with unsigned arithmetic. They agree on every timeout that is positive. A negative timeout other
than -1 is let through by the callers: it is a large number for the one, and makes the nanoseconds of the
other negative.
-/

namespace Pc02.Queue

/-- `struct timeval`. `time_t` and `long` have 32 bits. -/
structure Timeval where
  sec : BitVec 32
  usec : BitVec 32

structure Deadline where
  sec : BitVec 32
  nsec : BitVec 32
deriving DecidableEq

/-- The operations on the microseconds depend on the type of the timeout. -/
structure Arith where
  div : BitVec 32 → BitVec 32 → BitVec 32
  rem : BitVec 32 → BitVec 32 → BitVec 32
  le : BitVec 32 → BitVec 32 → Bool
  addOverflow : BitVec 32 → BitVec 32 → Bool
  mulOverflow : BitVec 32 → BitVec 32 → Bool

def signed : Arith where
  div := BitVec.sdiv
  rem := BitVec.srem
  le := BitVec.sle
  addOverflow := BitVec.saddOverflow
  mulOverflow := BitVec.smulOverflow

def unsigned : Arith where
  div := BitVec.udiv
  rem := BitVec.umod
  le := BitVec.ule
  addOverflow := BitVec.uaddOverflow
  mulOverflow := BitVec.umulOverflow

namespace Arith

/-- `(timeout%1000)*1000 + current_time.tv_usec`. -/
def micros (a : Arith) (now : Timeval) (timeout : BitVec 32) : BitVec 32 := a.rem timeout 1000 * 1000 + now.usec

def deadline (a : Arith) (now : Timeval) (timeout : BitVec 32) : Deadline :=
  if a.le 1000000 (a.micros now timeout) then
    { sec := now.sec + a.div timeout 1000 + 1, nsec := a.rem (a.micros now timeout) 1000000 * 1000 }
  else { sec := now.sec + a.div timeout 1000, nsec := a.micros now timeout * 1000 }

/-- Which of the operations on the way overflow. `tv_sec` and `tv_nsec` are signed. -/
def overflows (a : Arith) (now : Timeval) (timeout : BitVec 32) : List Bool :=
  [now.sec.saddOverflow (a.div timeout 1000), a.mulOverflow (a.rem timeout 1000) 1000,
    a.addOverflow (a.rem timeout 1000 * 1000) now.usec] ++
  if a.le 1000000 (a.micros now timeout) then
    [(now.sec + a.div timeout 1000).saddOverflow 1, (a.rem (a.micros now timeout) 1000000).smulOverflow 1000]
  else [(a.micros now timeout).smulOverflow 1000]

end Arith

inductive Wait
  | not
  | forever
  | until (deadline : Deadline)
deriving DecidableEq

def osSemWait (now : Timeval) (timeout : BitVec 32) : Wait :=
  if timeout = 0 then .not
  else if timeout = -1 then .forever
  else .until (signed.deadline now timeout)

def osalSemTake (now : Timeval) (waitTime : BitVec 32) : Wait := osSemWait now waitTime

def osMillisec2Timespec (timeout : BitVec 32) (now : Timeval) : Deadline := unsigned.deadline now timeout

/-- `osal_queue_recv` and `osal_queue_send`. The `int` becomes an `uint32_t` with the same bits. -/
def osalQueueWait (now : Timeval) (timeout : BitVec 32) : Wait :=
  if -1 = timeout then .forever else .until (osMillisec2Timespec timeout now)

/-- Both conversions give the time that lies so many milliseconds ahead. -/
structure ExactDeadline (now : Timeval) (timeout : BitVec 32) (deadline : Deadline) : Prop where
  sem : osalSemTake now timeout = .until deadline
  queue : osalQueueWait now timeout = .until deadline
  normal : 0 ≤ deadline.nsec.toInt ∧ deadline.nsec.toInt < 1000000000
  exact : deadline.sec.toInt * 1000000000 + deadline.nsec.toInt =
    now.sec.toInt * 1000000000 + now.usec.toInt * 1000 + timeout.toInt * 1000000
  noOverflow : ∀ b ∈ signed.overflows now timeout ++ unsigned.overflows now timeout, b = false

variable {now : Timeval} {timeout : BitVec 32}

theorem toInt_of_lt {x : BitVec 32} (h : x.toNat < 2 ^ 31) : x.toInt = x.toNat :=
  BitVec.toInt_eq_toNat_of_lt (by omega)

theorem msb_of_lt {x : BitVec 32} (h : x.toNat < 2 ^ 31) : x.msb = false := by
  rw [BitVec.msb_eq_false_iff_two_mul_lt]
  omega

theorem sdiv_eq_udiv {x y : BitVec 32} (hx : x.toNat < 2 ^ 31) (hy : y.toNat < 2 ^ 31) : x.sdiv y = x.udiv y := by
  rw [BitVec.sdiv_eq, msb_of_lt hx, msb_of_lt hy]

theorem srem_eq_umod {x y : BitVec 32} (hx : x.toNat < 2 ^ 31) (hy : y.toNat < 2 ^ 31) : x.srem y = x.umod y := by
  rw [BitVec.srem_eq, msb_of_lt hx, msb_of_lt hy]
  rfl

theorem sle_eq_ule {x y : BitVec 32} (hx : x.toNat < 2 ^ 31) (hy : y.toNat < 2 ^ 31) : x.sle y = x.ule y := by
  rw [BitVec.sle, BitVec.ule, toInt_of_lt hx, toInt_of_lt hy]
  exact decide_eq_decide.mpr Int.ofNat_le

theorem unsigned_micros (husec : now.usec.toNat < 1000000) :
    (unsigned.micros now timeout).toNat = timeout.toNat % 1000 * 1000 + now.usec.toNat := by
  simp only [Arith.micros, unsigned, BitVec.umod_eq, BitVec.toNat_add, BitVec.toNat_mul, BitVec.toNat_umod,
    BitVec.ofNat_eq_ofNat, BitVec.toNat_ofNat, Nat.reducePow, Nat.reduceMod]
  omega

theorem unsigned_quotient : (unsigned.div timeout 1000).toNat = timeout.toNat / 1000 := by
  simp [unsigned]

theorem unsigned_quotient_toInt : (unsigned.div timeout 1000).toInt = timeout.toNat / 1000 := by
  have hlt := timeout.isLt
  rw [toInt_of_lt (by rw [unsigned_quotient]; omega), unsigned_quotient]
  norm_cast

structure Arith.Divides (a : Arith) (now : Timeval) (timeout : BitVec 32) : Prop where
  div : a.div timeout 1000 = unsigned.div timeout 1000
  rem : a.rem timeout 1000 = unsigned.rem timeout 1000
  le : a.le 1000000 (unsigned.micros now timeout) = unsigned.le 1000000 (unsigned.micros now timeout)
  carry : a.rem (unsigned.micros now timeout) 1000000 = unsigned.rem (unsigned.micros now timeout) 1000000

theorem unsigned_divides : unsigned.Divides now timeout := ⟨rfl, rfl, rfl, rfl⟩

theorem signed_divides (husec : now.usec.toNat < 1000000) (htimeout : timeout.toNat < 2 ^ 31) :
    signed.Divides now timeout := by
  have hlt : (unsigned.micros now timeout).toNat < 2 ^ 31 := by
    rw [unsigned_micros husec]
    omega
  constructor
  · exact sdiv_eq_udiv htimeout (by decide)
  · exact srem_eq_umod htimeout (by decide)
  · exact sle_eq_ule (by decide) hlt
  · exact srem_eq_umod hlt (by decide)

theorem Arith.Divides.micros {a : Arith} (h : a.Divides now timeout) :
    a.micros now timeout = unsigned.micros now timeout := by
  rw [Arith.micros, Arith.micros, h.rem]

theorem Arith.Divides.deadline {a : Arith} (h : a.Divides now timeout) :
    a.deadline now timeout = unsigned.deadline now timeout := by
  rw [Arith.deadline, Arith.deadline, h.micros, h.div, h.le, h.carry]

theorem unsigned_deadline (timeout : BitVec 32) (husec : now.usec.toNat < 1000000) :
    ∃ carry : Nat, carry ≤ 1 ∧
      (unsigned.deadline now timeout).sec = now.sec + unsigned.div timeout 1000 + BitVec.ofNat 32 carry ∧
      (unsigned.deadline now timeout).nsec.toNat + carry * 1000000000 =
        (timeout.toNat % 1000 * 1000 + now.usec.toNat) * 1000 ∧
      (unsigned.deadline now timeout).nsec.toNat < 1000000000 := by
  have hmicros : (unsigned.micros now timeout).toNat = _ := unsigned_micros husec
  have hle : unsigned.le 1000000 (unsigned.micros now timeout) = true ↔
      1000000 ≤ timeout.toNat % 1000 * 1000 + now.usec.toNat := by
    rw [← hmicros]
    simp [unsigned, BitVec.ule]
  rw [Arith.deadline]
  split
  · rename_i hcarry
    rw [hle] at hcarry
    have hnsec : (unsigned.rem (unsigned.micros now timeout) 1000000 * 1000).toNat =
        (timeout.toNat % 1000 * 1000 + now.usec.toNat - 1000000) * 1000 := by
      simp only [unsigned, BitVec.umod_eq, BitVec.toNat_mul, BitVec.toNat_umod, BitVec.ofNat_eq_ofNat,
        BitVec.toNat_ofNat, Nat.reducePow, Nat.reduceMod]
      change (unsigned.micros now timeout).toNat % 1000000 * 1000 % 4294967296 = _
      have hmod : (unsigned.micros now timeout).toNat % 1000000 =
          timeout.toNat % 1000 * 1000 + now.usec.toNat - 1000000 := by omega
      rw [hmod]
      omega
    refine ⟨1, le_rfl, rfl, ?_, ?_⟩
    · rw [hnsec]
      omega
    · rw [hnsec]
      omega
  · rename_i hcarry
    rw [hle] at hcarry
    have hnsec : (unsigned.micros now timeout * 1000).toNat = (timeout.toNat % 1000 * 1000 + now.usec.toNat) * 1000 := by
      rw [BitVec.toNat_mul, hmicros]
      simp only [BitVec.ofNat_eq_ofNat, BitVec.toNat_ofNat, Nat.reducePow, Nat.reduceMod]
      omega
    refine ⟨0, by omega, ?_, ?_, ?_⟩
    · simp
    · rw [hnsec]
      omega
    · rw [hnsec]
      omega

theorem toInt_add_of_range {x y : BitVec 32} (hlo : -2147483648 ≤ x.toInt + y.toInt)
    (hhi : x.toInt + y.toInt < 2147483648) : (x + y).toInt = x.toInt + y.toInt := by
  rw [BitVec.toInt_add]
  apply Int.bmod_eq_of_le
  · norm_num
    omega
  · norm_num
    omega

def Timeval.Early (now : Timeval) : Prop := now.sec.toInt + 4294968 < 2147483648

theorem unsigned_sec (hearly : now.Early) {carry : Nat} (hcarry : carry ≤ 1) :
    (now.sec + unsigned.div timeout 1000 + BitVec.ofNat 32 carry).toInt =
      now.sec.toInt + timeout.toNat / 1000 + carry := by
  have hlt := timeout.isLt
  have hlo : -2 ^ 31 ≤ now.sec.toInt := BitVec.le_toInt now.sec
  have hone : (BitVec.ofNat 32 carry).toInt = carry := by
    rw [toInt_of_lt (by rw [BitVec.toNat_ofNat]; omega), BitVec.toNat_ofNat]
    omega
  rw [Timeval.Early] at hearly
  rw [toInt_add_of_range, toInt_add_of_range, unsigned_quotient_toInt, hone]
  all_goals try rw [toInt_add_of_range]
  all_goals try rw [unsigned_quotient_toInt]
  all_goals try rw [hone]
  all_goals omega

theorem saddOverflow_of_range {x y : BitVec 32} (hlo : -2147483648 ≤ x.toInt + y.toInt)
    (hhi : x.toInt + y.toInt < 2147483648) : x.saddOverflow y = false := by
  simp only [BitVec.saddOverflow, Nat.add_one_sub_one, Bool.or_eq_false_iff, decide_eq_false_iff_not]
  omega

theorem smulOverflow_of_lt {x y : BitVec 32} (hx : x.toNat < 2 ^ 31) (hy : y.toNat < 2 ^ 31)
    (hlt : x.toNat * y.toNat < 2 ^ 31) : x.smulOverflow y = false := by
  have hprod : ((x.toNat * y.toNat : Nat) : Int) < 2 ^ 31 := by exact_mod_cast hlt
  simp only [BitVec.smulOverflow, toInt_of_lt hx, toInt_of_lt hy, Nat.add_one_sub_one, Bool.or_eq_false_iff,
    decide_eq_false_iff_not]
  push_cast at hprod
  constructor
  · omega
  · have hnonneg : (0 : Int) ≤ x.toNat * y.toNat := by positivity
    omega

theorem saddOverflow_of_lt {x y : BitVec 32} (hlt : x.toNat + y.toNat < 2 ^ 31) : x.saddOverflow y = false := by
  apply saddOverflow_of_range
  · rw [toInt_of_lt (by omega), toInt_of_lt (by omega)]
    omega
  · rw [toInt_of_lt (by omega), toInt_of_lt (by omega)]
    omega

theorem sec_noOverflow (timeout : BitVec 32) (hearly : now.Early) : now.sec.saddOverflow (unsigned.div timeout 1000) = false ∧
    (now.sec + unsigned.div timeout 1000).saddOverflow 1 = false := by
  have hlt := timeout.isLt
  have hlo : -2 ^ 31 ≤ now.sec.toInt := BitVec.le_toInt now.sec
  have hsum : (now.sec + unsigned.div timeout 1000 + BitVec.ofNat 32 0).toInt = _ :=
    unsigned_sec hearly (Nat.zero_le 1)
  have hone : (1 : BitVec 32).toInt = 1 := rfl
  rw [show BitVec.ofNat 32 0 = 0#32 from rfl, BitVec.add_zero] at hsum
  rw [Timeval.Early] at hearly
  constructor
  · apply saddOverflow_of_range
    · rw [unsigned_quotient_toInt]
      omega
    · rw [unsigned_quotient_toInt]
      omega
  · apply saddOverflow_of_range
    · rw [hsum, hone]
      omega
    · rw [hsum, hone]
      omega

/-- The largest numbers on the way are the microseconds of two seconds and the nanoseconds of one. -/
theorem Arith.Divides.overflows {a : Arith} (h : a.Divides now timeout) (husec : now.usec.toNat < 1000000)
    (hearly : now.Early) (hadd : ∀ x y, x.toNat + y.toNat < 2 ^ 31 → a.addOverflow x y = false)
    (hmul : ∀ x y, x.toNat < 2 ^ 31 → y.toNat < 2 ^ 31 → x.toNat * y.toNat < 2 ^ 31 → a.mulOverflow x y = false) :
    ∀ b ∈ a.overflows now timeout, b = false := by
  have hmicros : (unsigned.micros now timeout).toNat = _ := unsigned_micros husec
  have hrem : (unsigned.rem timeout 1000).toNat = timeout.toNat % 1000 := by simp [unsigned]
  have hcarry : (unsigned.rem (unsigned.micros now timeout) 1000000).toNat =
      (unsigned.micros now timeout).toNat % 1000000 := by simp [unsigned]
  have hle : unsigned.le 1000000 (unsigned.micros now timeout) = true ↔
      1000000 ≤ (unsigned.micros now timeout).toNat := by simp [unsigned, BitVec.ule]
  have hthousand : (1000 : BitVec 32).toNat = 1000 := rfl
  have hproduct : (unsigned.rem timeout 1000 * 1000).toNat = timeout.toNat % 1000 * 1000 := by
    rw [BitVec.toNat_mul, hrem, hthousand]
    omega
  have hfirst : a.mulOverflow (unsigned.rem timeout 1000) 1000 = false := by
    apply hmul
    · rw [hrem]
      omega
    · decide
    · rw [hrem, hthousand]
      omega
  have hsecond : a.addOverflow (unsigned.rem timeout 1000 * 1000) now.usec = false := by
    apply hadd
    rw [hproduct]
    omega
  obtain ⟨hsec, hnext⟩ := sec_noOverflow timeout hearly
  rw [Arith.overflows, h.micros, h.div, h.rem, h.le, h.carry, hfirst, hsecond, hsec, hnext]
  split
  · have hnsec : (unsigned.rem (unsigned.micros now timeout) 1000000).smulOverflow 1000 = false := by
      apply smulOverflow_of_lt
      · rw [hcarry]
        omega
      · decide
      · rw [hcarry, hthousand]
        omega
    rw [hnsec]
    decide
  · rename_i hless
    rw [hle] at hless
    have hnsec : (unsigned.micros now timeout).smulOverflow 1000 = false := by
      apply smulOverflow_of_lt
      · omega
      · decide
      · rw [hthousand]
        omega
    rw [hnsec]
    decide

theorem uaddOverflow_of_lt {x y : BitVec 32} (hlt : x.toNat + y.toNat < 2 ^ 31) : x.uaddOverflow y = false := by
  simp only [BitVec.uaddOverflow, decide_eq_false_iff_not]
  omega

theorem umulOverflow_of_lt {x y : BitVec 32} (hlt : x.toNat * y.toNat < 2 ^ 31) : x.umulOverflow y = false := by
  simp only [BitVec.umulOverflow, decide_eq_false_iff_not]
  omega

theorem unsigned_exact (timeout : BitVec 32) (husec : now.usec.toNat < 1000000) (hearly : now.Early) :
    (unsigned.deadline now timeout).nsec.toInt < 1000000000 ∧ 0 ≤ (unsigned.deadline now timeout).nsec.toInt ∧
      (unsigned.deadline now timeout).sec.toInt * 1000000000 + (unsigned.deadline now timeout).nsec.toInt =
        now.sec.toInt * 1000000000 + now.usec.toInt * 1000 + timeout.toNat * 1000000 := by
  obtain ⟨carry, hcarry, hsec, hnsec, hlt⟩ := unsigned_deadline timeout husec
  have hnat : (unsigned.deadline now timeout).nsec.toInt = (unsigned.deadline now timeout).nsec.toNat :=
    toInt_of_lt (by omega)
  have husec' : now.usec.toInt = now.usec.toNat := toInt_of_lt (by omega)
  rw [hsec, unsigned_sec hearly hcarry, hnat, husec']
  refine ⟨by omega, by omega, ?_⟩
  have hdivision := Nat.div_add_mod timeout.toNat 1000
  omega

/-- Both waits end at the same exact time for the positive timeouts and for no other. -/
theorem exactDeadline_iff (husec : now.usec.toNat < 1000000) (hearly : now.Early) (hzero : timeout ≠ 0)
    (hforever : timeout ≠ -1) : (∃ deadline, ExactDeadline now timeout deadline) ↔ 0 < timeout.toInt := by
  have hqueue : osalQueueWait now timeout = .until (unsigned.deadline now timeout) := by
    rw [osalQueueWait, if_neg (Ne.symm hforever), osMillisec2Timespec]
  have hsem : osalSemTake now timeout = .until (signed.deadline now timeout) := by
    rw [osalSemTake, osSemWait, if_neg hzero, if_neg hforever]
  obtain ⟨hlt, hnonneg, hexact⟩ := unsigned_exact timeout husec hearly
  constructor
  · rintro ⟨deadline, h⟩
    -- The queue's deadline is exact for the bits of the timeout as an unsigned number.
    have hdeadline : unsigned.deadline now timeout = deadline := by
      have heq := h.queue
      rw [hqueue] at heq
      exact Wait.until.inj heq
    have hsame : (timeout.toNat : Int) = timeout.toInt := by
      have heq := h.exact
      rw [← hdeadline] at heq
      omega
    have hne : timeout.toNat ≠ 0 := fun h0 => hzero (BitVec.eq_of_toNat_eq h0)
    omega
  · intro hpos
    have htimeout : timeout.toNat < 2 ^ 31 := by
      have htoInt := BitVec.toInt_eq_toNat_cond timeout
      split at htoInt
      · omega
      · omega
    have hdivides := signed_divides husec htimeout
    refine ⟨unsigned.deadline now timeout, ?_, hqueue, ⟨hnonneg, hlt⟩, ?_, ?_⟩
    · rw [hsem, hdivides.deadline]
    · rw [hexact, toInt_of_lt htimeout]
    · intro b hb
      rcases List.mem_append.mp hb with hs | hu
      · exact hdivides.overflows husec hearly (fun _ _ => saddOverflow_of_lt)
          (fun _ _ => smulOverflow_of_lt) b hs
      · exact unsigned_divides.overflows husec hearly (fun _ _ => uaddOverflow_of_lt)
          (fun _ _ _ _ => umulOverflow_of_lt) b hu

theorem exactDeadline_one : ∃ deadline, ExactDeadline { sec := 5, usec := 999999 } 1 deadline :=
  (exactDeadline_iff (by decide) (by unfold Timeval.Early; decide) (by decide) (by decide)).mpr (by decide)

/-- The queue waits for 49 days, and the semaphore is given -2000000 nanoseconds. -/
theorem deadline_of_minus_two :
    osalQueueWait { sec := 5, usec := 0 } (-2) = .until { sec := 4294972, nsec := 294000000 } ∧
      osalSemTake { sec := 5, usec := 0 } (-2) = .until { sec := 5, nsec := -2000000 } ∧
      ¬ ∃ deadline, ExactDeadline { sec := 5, usec := 0 } (-2) deadline := by
  have hqueue : osalQueueWait { sec := 5, usec := 0 } (-2) = .until { sec := 4294972, nsec := 294000000 } := by
    decide
  have hsem : osalSemTake { sec := 5, usec := 0 } (-2) = .until { sec := 5, nsec := -2000000 } := by decide
  refine ⟨hqueue, hsem, ?_⟩
  rintro ⟨deadline, h⟩
  have hsame := h.sem.symm.trans hsem
  rw [← h.queue, hqueue] at hsame
  exact absurd hsame (by decide)

end Pc02.Queue

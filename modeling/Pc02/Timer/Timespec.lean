import Mathlib.Data.Prod.Lex
import Mathlib.Data.Int.Order.Basic
import Mathlib.Tactic.Linarith
import Mathlib.Tactic.Ring

/-!
# Timespec arithmetic of the timer module

Seconds are unbounded integers here: the clock is `CLOCK_MONOTONIC`, which counts from boot and
stays far from the limit of `time_t`. Nanoseconds carry exactly as in the source.
-/

namespace Pc02.Timer

structure Timespec where
  sec : Int
  nsec : Int
deriving DecidableEq, Repr

structure Itimerspec where
  interval : Timespec
  value : Timespec
deriving DecidableEq, Repr

def nsecPerSec : Int := 1000000000

def zeroTimespec : Timespec := ⟨0, 0⟩

def zeroItimerspec : Itimerspec := ⟨zeroTimespec, zeroTimespec⟩

/-- C division and remainder truncate towards zero. -/
def ms2ts (ms : Int) : Timespec := ⟨ms.tdiv 1000, ms.tmod 1000 * 1000000⟩

def timespecCompare (left right : Timespec) : Int :=
  if left.sec < right.sec then -1
  else if left.sec > right.sec then 1
  else if left.nsec < right.nsec then -1
  else if left.nsec > right.nsec then 1
  else 0

def timespecAdd (left right : Timespec) : Timespec :=
  let nsec := left.nsec + right.nsec
  if nsec ≥ nsecPerSec then ⟨left.sec + right.sec + 1, nsec - nsecPerSec⟩
  else ⟨left.sec + right.sec, nsec⟩

def delaytimerMax : Nat := 2147483647

/-- The `while` loop that moves a periodic timer past `now`, with its saturating overrun count.
The fuel only bounds the recursion: `catchUp_spec` shows that `catchUp` never exhausts it. -/
def catchUpLoop (now interval : Timespec) : Nat → Timespec → Nat → Timespec × Nat
  | 0, expirytime, overrun => (expirytime, overrun)
  | fuel + 1, expirytime, overrun =>
      if timespecCompare expirytime now < 0 then
        catchUpLoop now interval fuel (timespecAdd expirytime interval)
          (if overrun < delaytimerMax then overrun + 1 else overrun)
      else (expirytime, overrun)

def Timespec.toNs (ts : Timespec) : Int := ts.sec * nsecPerSec + ts.nsec

/-- The next expiry of a periodic timer popped at clock reading `now`, and its overrun count. -/
def catchUp (now interval expirytime : Timespec) : Timespec × Nat :=
  let next := timespecAdd expirytime interval
  catchUpLoop now interval (now.toNs - next.toNs).toNat next 0

def Timespec.Normal (ts : Timespec) : Prop := 0 ≤ ts.nsec ∧ ts.nsec < nsecPerSec

instance (ts : Timespec) : Decidable ts.Normal := inferInstanceAs (Decidable (_ ∧ _))

abbrev ClockReading := {ts : Timespec // ts.Normal}

/-- Timespecs compare field by field, seconds first. -/
def Timespec.key (ts : Timespec) : Int ×ₗ Int := toLex (ts.sec, ts.nsec)

theorem timespecCompare_lt (a b : Timespec) : timespecCompare a b < 0 ↔ a.key < b.key := by
  simp only [timespecCompare, Timespec.key, Prod.Lex.toLex_lt_toLex]
  split_ifs <;> simp <;> omega

theorem timespecCompare_le (a b : Timespec) : timespecCompare a b ≤ 0 ↔ a.key ≤ b.key := by
  simp only [timespecCompare, Timespec.key, Prod.Lex.toLex_le_toLex]
  split_ifs <;> simp <;> omega

theorem key_lt_iff_toNs {a b : Timespec} (ha : a.Normal) (hb : b.Normal) :
    a.key < b.key ↔ a.toNs < b.toNs := by
  simp only [Timespec.Normal, nsecPerSec] at ha hb
  simp only [Timespec.key, Timespec.toNs, nsecPerSec, Prod.Lex.toLex_lt_toLex]
  omega

theorem toNs_inj {a b : Timespec} (ha : a.Normal) (hb : b.Normal) (h : a.toNs = b.toNs) : a = b := by
  obtain ⟨sec, nsec⟩ := a
  obtain ⟨sec', nsec'⟩ := b
  simp only [Timespec.Normal, Timespec.toNs, nsecPerSec] at ha hb h
  rw [Timespec.mk.injEq]
  omega

theorem timespecCompare_lt_toNs {a b : Timespec} (ha : a.Normal) (hb : b.Normal) :
    timespecCompare a b < 0 ↔ a.toNs < b.toNs := by
  rw [timespecCompare_lt, key_lt_iff_toNs ha hb]

theorem zeroTimespec_normal : zeroTimespec.Normal := by decide

theorem ne_zeroTimespec (ts : Timespec) : ts ≠ zeroTimespec ↔ ts.sec ≠ 0 ∨ ts.nsec ≠ 0 := by
  obtain ⟨sec, nsec⟩ := ts
  simp only [zeroTimespec, ne_eq, Timespec.mk.injEq]
  tauto

theorem timespecAdd_toNs (a b : Timespec) : (timespecAdd a b).toNs = a.toNs + b.toNs := by
  by_cases h : a.nsec + b.nsec ≥ nsecPerSec
  · simp only [timespecAdd, if_pos h, Timespec.toNs]
    ring
  · simp only [timespecAdd, if_neg h, Timespec.toNs]
    ring

theorem timespecAdd_normal {a b : Timespec} (ha : a.Normal) (hb : b.Normal) :
    (timespecAdd a b).Normal := by
  simp only [Timespec.Normal] at ha hb ⊢
  by_cases h : a.nsec + b.nsec ≥ nsecPerSec
  · simp only [timespecAdd, if_pos h]
    omega
  · simp only [timespecAdd, if_neg h]
    omega

theorem ms2ts_toNs (ms : Int) : (ms2ts ms).toNs = ms * 1000000 := by
  have h := Int.mul_tdiv_add_tmod ms 1000
  simp only [ms2ts, Timespec.toNs, nsecPerSec]
  omega

theorem ms2ts_normal {ms : Int} (h : 0 ≤ ms) : (ms2ts ms).Normal := by
  have hlo := Int.tmod_nonneg 1000 h
  have hhi := Int.tmod_lt_of_pos ms (show (0 : Int) < 1000 by decide)
  simp only [ms2ts, Timespec.Normal, nsecPerSec]
  omega

theorem ms2ts_sec_nonneg {ms : Int} (h : 0 ≤ ms) : 0 ≤ (ms2ts ms).sec :=
  Int.tdiv_nonneg h (by decide)

theorem ms2ts_ne_zero {ms : Int} (h : 0 < ms) : ms2ts ms ≠ zeroTimespec := by
  intro hzero
  have hns := ms2ts_toNs ms
  rw [hzero] at hns
  simp only [zeroTimespec, Timespec.toNs] at hns
  omega

theorem catchUpLoop_normal {now interval : Timespec} (hi : interval.Normal) (fuel : Nat)
    (e : Timespec) (overrun : Nat) (he : e.Normal) :
    (catchUpLoop now interval fuel e overrun).1.Normal := by
  induction fuel generalizing e overrun with
  | zero => exact he
  | succ fuel ih =>
      simp only [catchUpLoop]
      split
      · exact ih _ _ (timespecAdd_normal he hi)
      · exact he

theorem catchUp_normal (now : Timespec) {interval e : Timespec} (hi : interval.Normal)
    (he : e.Normal) : (catchUp now interval e).1.Normal :=
  catchUpLoop_normal hi _ _ _ (timespecAdd_normal he hi)

private theorem saturating_count (cap n k : Nat) (hn : n ≤ cap) :
    (if n < cap then n + 1 else n) ≤ cap ∧
      min ((if n < cap then n + 1 else n) + k) cap = min (n + (k + 1)) cap := by
  split_ifs <;> omega

private theorem catchUpLoop_spec {now interval : Timespec} (hnow : now.Normal)
    (hi : interval.Normal) (hpos : 0 < interval.toNs) (fuel : Nat) (e : Timespec) (overrun : Nat)
    (he : e.Normal) (hfuel : now.toNs - e.toNs ≤ fuel) (hov : overrun ≤ delaytimerMax) :
    ∃ k : Nat, (catchUpLoop now interval fuel e overrun).1.toNs = e.toNs + k * interval.toNs ∧
      now.toNs ≤ (catchUpLoop now interval fuel e overrun).1.toNs ∧
      (∀ j : Nat, j < k → e.toNs + j * interval.toNs < now.toNs) ∧
      (catchUpLoop now interval fuel e overrun).2 = min (overrun + k) delaytimerMax := by
  induction fuel generalizing e overrun with
  | zero =>
      refine ⟨0, by simp [catchUpLoop], ?_, by simp, by rw [Nat.add_zero, min_eq_left hov, catchUpLoop]⟩
      simp only [catchUpLoop]
      simp only [Nat.cast_zero] at hfuel
      omega
  | succ fuel ih =>
      have hcmp := timespecCompare_lt_toNs he hnow
      simp only [catchUpLoop]
      by_cases hlt : e.toNs < now.toNs
      · rw [if_pos (hcmp.mpr hlt)]
        have hadd := timespecAdd_toNs e interval
        obtain ⟨k, hk, hreach, hbelow, hcount⟩ := ih (timespecAdd e interval)
          (if overrun < delaytimerMax then overrun + 1 else overrun) (timespecAdd_normal he hi)
          (by push_cast at hfuel; omega) (saturating_count _ _ 0 hov).1
        refine ⟨k + 1, ?_, hreach, ?_, by rw [hcount, (saturating_count _ _ k hov).2]⟩
        · rw [hk, hadd]
          push_cast
          ring
        · intro j hj
          cases j with
          | zero => simpa using hlt
          | succ j =>
              have := hbelow j (by omega)
              rw [hadd] at this
              push_cast
              linarith
      · rw [if_neg (fun h => hlt (hcmp.mp h))]
        exact ⟨0, by simp, not_lt.mp hlt, by simp, by rw [Nat.add_zero, min_eq_left hov]⟩

/-- The requeued expiry is the first whole number of intervals, at least one, that reaches `now`;
the overrun count is the number of intervals skipped, saturated. -/
theorem catchUp_spec {now interval e : Timespec} (hnow : now.Normal) (hi : interval.Normal)
    (hpos : 0 < interval.toNs) (he : e.Normal) :
    ∃ k : Nat, 1 ≤ k ∧ (catchUp now interval e).1.toNs = e.toNs + k * interval.toNs ∧
      now.toNs ≤ (catchUp now interval e).1.toNs ∧
      (∀ j : Nat, 1 ≤ j → j < k → e.toNs + j * interval.toNs < now.toNs) ∧
      (catchUp now interval e).2 = min (k - 1) delaytimerMax := by
  have hadd := timespecAdd_toNs e interval
  obtain ⟨k, hk, hreach, hbelow, hcount⟩ := catchUpLoop_spec hnow hi hpos
    (now.toNs - (timespecAdd e interval).toNs).toNat (timespecAdd e interval) 0
    (timespecAdd_normal he hi) (Int.self_le_toNat _) (Nat.zero_le _)
  refine ⟨k + 1, by omega, ?_, hreach, ?_, by rw [Nat.add_sub_cancel, ← Nat.zero_add k]; exact hcount⟩
  · change (catchUpLoop now interval _ _ 0).1.toNs = _
    rw [hk, hadd]
    push_cast
    ring
  · intro j hj hjk
    have := hbelow (j - 1) (by omega)
    rw [hadd, Nat.cast_sub hj] at this
    push_cast at this
    linarith

end Pc02.Timer

import Mathlib.Data.List.GetD
import Pc02.Lib.Memory

/-!
# Splitting the reader list

`luareader_get_list` fills a buffer with the names of the readers, each followed by a NUL, and one
NUL at the end. `eg_usbto322_init` walks over it with two cursors and copies every name to a row of
`device_str`. Nothing there compares the length of a name with the length of a row.
-/

namespace Pc02.Usb

open Pc02.Lib

def max322Num : Nat := 4

def outputSize : Nat := 1024

def rowSize : Nat := 32

inductive Access
  /-- A byte of `output` is read. -/
  | output (i : Nat)
  /-- `n` bytes are copied from `output` to `device_str`, the latter counted from its first row. -/
  | copy (dest src n : Nat)
deriving DecidableEq, Repr

/-- The splitting loop, with `n` turns to go: `i` is the byte looked at, `j` the start of the name. A
copy that leaves `device_str` has no meaning. -/
def splitLoop (output : List UInt8) :
    (n i j devIndex : Nat) → List UInt8 → List Access × Option (Nat × List UInt8)
  | 0, _, _, devIndex, deviceStr => ([], some (devIndex, deviceStr))
  | n + 1, i, j, devIndex, deviceStr =>
      if max322Num ≤ devIndex then ([], some (devIndex, deviceStr))
      else if output.getD i 0 = 0 ∧ devIndex ≤ max322Num then
        let copy := Access.copy (devIndex * rowSize) j (i - j + 1)
        match memcpy deviceStr (devIndex * rowSize) (output.drop j) (i - j + 1) with
        | none => ([.output i, copy], none)
        | some deviceStr =>
            let r := splitLoop output n (i + 1) (i + 1) (devIndex + 1) deviceStr
            (.output i :: copy :: r.1, r.2)
      else
        let r := splitLoop output n (i + 1) j devIndex deviceStr
        (.output i :: r.1, r.2)

/-- The first loop of `eg_usbto322_init`, from what `luareader_get_list` stored and returned. -/
def split (output : List UInt8) (ret : Int) : List Access × Option (Nat × List UInt8) :=
  splitLoop output (ret - 1).toNat 0 0 0 (List.replicate (max322Num * rowSize) 0)

def encode (names : List (List UInt8)) : List UInt8 := names.flatMap fun name => name ++ [0]

/-- A list of readers that `luareader_get_list` can return. -/
structure ReaderList where
  names : List (List UInt8)
  name_ne_nil : ∀ name ∈ names, name ≠ []
  nul_free : ∀ name ∈ names, 0 ∉ name
  fits : (encode names).length + 1 ≤ outputSize

namespace ReaderList

def output (readers : ReaderList) : List UInt8 :=
  encode readers.names ++ List.replicate (outputSize - (encode readers.names).length) 0

def ret (readers : ReaderList) : Int := (encode readers.names).length + 1

def extracted (readers : ReaderList) : List (List UInt8) := readers.names.take max322Num

end ReaderList

def copyRows (devIndex : Nat) (deviceStr : List UInt8) : List (List UInt8) → Option (Nat × List UInt8)
  | [] => some (devIndex, deviceStr)
  | name :: names =>
      if max322Num ≤ devIndex then some (devIndex, deviceStr)
      else
        match memcpy deviceStr (devIndex * rowSize) (name ++ [0]) (name.length + 1) with
        | none => none
        | some deviceStr => copyRows (devIndex + 1) deviceStr names

variable {output deviceStr : List UInt8} {devIndex : Nat}

theorem splitLoop_chars {chars : List UInt8} (hchars : 0 ∉ chars) (n : Nat) {i : Nat} (j : Nat)
    (hdev : devIndex < max322Num) (hat : ∀ k, k < chars.length → output.getD (i + k) 0 = chars.getD k 0) :
    (splitLoop output (chars.length + n) i j devIndex deviceStr).2 =
      (splitLoop output n (i + chars.length) j devIndex deviceStr).2 := by
  induction chars generalizing i with
  | nil => simp
  | cons ch chars ih =>
      simp only [List.mem_cons, not_or] at hchars
      have hch : output.getD i 0 = ch := by simpa using hat 0 (by simp)
      have hne : ¬ (output.getD i 0 = 0 ∧ devIndex ≤ max322Num) := fun h => hchars.1 (h.1.symm.trans hch)
      have hrest : ∀ k, k < chars.length → output.getD (i + 1 + k) 0 = chars.getD k 0 := by
        intro k hk
        have hk := hat (k + 1) (by simpa using hk)
        rwa [List.getD_cons_succ, show i + (k + 1) = i + 1 + k by omega] at hk
      rw [List.length_cons, show chars.length + 1 + n = chars.length + n + 1 by omega, splitLoop,
        if_neg (by omega), if_neg hne]
      simp only
      rw [ih hchars.2 hrest, show i + 1 + chars.length = i + (chars.length + 1) by omega]

theorem splitLoop_names {before after : List UInt8} {names : List (List UInt8)}
    (hnul : ∀ name ∈ names, 0 ∉ name) (houtput : output = before ++ encode names ++ after) :
    (splitLoop output (encode names).length before.length before.length devIndex deviceStr).2 =
      copyRows devIndex deviceStr names := by
  induction names generalizing before devIndex deviceStr with
  | nil => rfl
  | cons name names ih =>
      have hlen : (encode (name :: names)).length = name.length + ((encode names).length + 1) := by
        simp only [encode, List.flatMap_cons, List.length_append, List.length_singleton]
        omega
      have hsplit : output = before ++ (name ++ 0 :: (encode names ++ after)) := by
        simp [houtput, encode]
      rw [hlen, copyRows]
      by_cases hdev : max322Num ≤ devIndex
      · rw [if_pos hdev, ← Nat.add_assoc, splitLoop, if_pos hdev]
      · have hat : ∀ k, k < name.length → output.getD (before.length + k) 0 = name.getD k 0 := by
          intro k hk
          rw [hsplit, List.getD_append_right _ _ _ _ (by omega), Nat.add_sub_cancel_left,
            List.getD_append _ _ _ _ hk]
        have hnul' : output.getD (before.length + name.length) 0 = 0 := by
          rw [hsplit, List.getD_append_right _ _ _ _ (by omega), Nat.add_sub_cancel_left,
            List.getD_append_right _ _ _ _ (by omega), Nat.sub_self, List.getD_cons_zero]
        have hbytes : memcpy deviceStr (devIndex * rowSize) (output.drop before.length)
            (before.length + name.length - before.length + 1) =
              memcpy deviceStr (devIndex * rowSize) (name ++ [0]) (name.length + 1) := by
          rw [hsplit, List.drop_left, Nat.add_sub_cancel_left]
          simp [memcpy, List.take_length_add_append]
        have hnext : output = (before ++ name ++ [0]) ++ encode names ++ after := by
          simp [hsplit]
        rw [splitLoop_chars (hnul name (by simp)) _ _ (by omega) hat, splitLoop, if_neg hdev,
          if_pos ⟨hnul', by omega⟩, if_neg hdev, hbytes]
        cases hcopy : memcpy deviceStr (devIndex * rowSize) (name ++ [0]) (name.length + 1) with
        | none => rfl
        | some deviceStr' =>
            have ih : _ = copyRows (devIndex + 1) deviceStr' names :=
              ih (fun name hname => hnul name (by simp [hname])) hnext
            simp only [List.length_append, List.length_singleton] at ih
            exact ih

theorem split_eq (readers : ReaderList) :
    (split readers.output readers.ret).2 = copyRows 0 (List.replicate (max322Num * rowSize) 0) readers.names := by
  have hret : (readers.ret - 1).toNat = (encode readers.names).length := by
    simp only [ReaderList.ret]
    omega
  have houtput : readers.output = [] ++ encode readers.names ++
      List.replicate (outputSize - (encode readers.names).length) 0 := rfl
  rw [split, hret]
  exact splitLoop_names readers.nul_free houtput

def cstr (bytes : List UInt8) (offset : Nat) : List UInt8 := (bytes.drop offset).takeWhile (· ≠ 0)

/-- After a copy into one row, later copies reach later rows only: every row holds the name that was
copied to it, as far as it fits. -/
theorem copyRows_spec {names : List (List UInt8)} {devIndex' : Nat} {deviceStr' : List UInt8}
    (hdev : devIndex ≤ max322Num)
    (h : copyRows devIndex deviceStr names = some (devIndex', deviceStr')) :
    devIndex' = min (devIndex + names.length) max322Num ∧
      deviceStr'.take (devIndex * rowSize) = deviceStr.take (devIndex * rowSize) ∧
      ∀ k name, names[k]? = some name → devIndex + k < max322Num →
        (name ++ [0]).take rowSize <+: deviceStr'.drop ((devIndex + k) * rowSize) := by
  induction names generalizing devIndex deviceStr with
  | nil =>
      cases h
      exact ⟨by simp [hdev], rfl, by simp⟩
  | cons first names ih =>
      rw [copyRows] at h
      split at h
      · cases h
        refine ⟨by simp only [List.length_cons]; omega, rfl, fun k name _ hk => by omega⟩
      · cases hcopy : memcpy deviceStr (devIndex * rowSize) (first ++ [0]) (first.length + 1) with
        | none => simp [hcopy] at h
        | some copied =>
            rw [hcopy] at h
            obtain ⟨hlen, hbefore, hrow⟩ := memcpy_spec hcopy
            rw [List.take_of_length_le (by simp)] at hrow
            obtain ⟨hdev', htake, hrows⟩ := ih (by omega) h
            have hle : devIndex * rowSize ≤ (devIndex + 1) * rowSize := Nat.mul_le_mul_right _ (by omega)
            refine ⟨by rw [hdev', List.length_cons]; omega, ?_, ?_⟩
            · have hshort := congrArg (List.take (devIndex * rowSize)) htake
              rwa [List.take_take, List.take_take, Nat.min_eq_left hle, hbefore] at hshort
            · intro k name hname hk
              cases k with
              | zero =>
                  obtain rfl : first = name := by simpa using hname
                  have hsub : (devIndex + 1) * rowSize - devIndex * rowSize = rowSize := by
                    rw [Nat.succ_mul, Nat.add_sub_cancel_left]
                  have hsame := congrArg (List.drop (devIndex * rowSize)) htake
                  rw [List.drop_take, List.drop_take, hsub] at hsame
                  have hprefix := List.IsPrefix.take hrow rowSize
                  rw [← hsame] at hprefix
                  exact hprefix.trans (List.take_prefix _ _)
              | succ k =>
                  have hrow' := hrows k name (by simpa using hname) (by omega)
                  rwa [show devIndex + 1 + k = devIndex + (k + 1) by omega] at hrow'

theorem copyRows_isSome {names : List (List UInt8)} (hsize : deviceStr.length = max322Num * rowSize)
    (h : ∀ name ∈ names.take (max322Num - devIndex), name.length < rowSize) :
    ∃ r, copyRows devIndex deviceStr names = some r := by
  induction names generalizing devIndex deviceStr with
  | nil => exact ⟨_, rfl⟩
  | cons name names ih =>
      rw [copyRows]
      split
      · exact ⟨_, rfl⟩
      · rename_i hdev
        have htake : max322Num - devIndex = (max322Num - (devIndex + 1)) + 1 := by omega
        rw [htake, List.take_succ_cons] at h
        have hname : name.length < rowSize := h name (by simp)
        have hle : devIndex * rowSize + (name.length + 1) ≤ deviceStr.length := by
          have hmul : (devIndex + 1) * rowSize ≤ max322Num * rowSize := Nat.mul_le_mul_right _ (by omega)
          rw [Nat.succ_mul] at hmul
          omega
        have hcopy : memcpy deviceStr (devIndex * rowSize) (name ++ [0]) (name.length + 1) = some _ :=
          memcpy_eq (by simp) hle
        rw [hcopy]
        exact ih ((memcpy_spec hcopy).1.trans hsize) fun name hname => h name (List.mem_cons_of_mem _ hname)

theorem cstr_row {name : List UInt8} {offset : Nat} (hnul : 0 ∉ name)
    (hrow : (name ++ [0]).take rowSize <+: deviceStr.drop offset) :
    cstr deviceStr offset = name ∨ (rowSize ≤ name.length ∧ rowSize ≤ (cstr deviceStr offset).length) := by
  have hall : ∀ ch ∈ name, decide (ch ≠ 0) = true := by
    intro ch hch
    simpa using fun h : ch = 0 => hnul (h ▸ hch)
  obtain ⟨rest, hrest⟩ := hrow
  by_cases hlen : name.length < rowSize
  · left
    rw [List.take_of_length_le (by simpa using Nat.succ_le_of_lt hlen)] at hrest
    rw [cstr, ← hrest, List.append_assoc, List.takeWhile_append_of_pos hall]
    simp
  · right
    refine ⟨by omega, ?_⟩
    rw [List.take_append_of_le_length (by omega)] at hrest
    have hall' : ∀ ch ∈ name.take rowSize, decide (ch ≠ 0) = true :=
      fun ch hch => hall ch (List.mem_of_mem_take hch)
    rw [cstr, ← hrest, List.takeWhile_append_of_pos hall', List.length_append, List.length_take]
    omega

def Access.Inside (ret size : Nat) : Access → Prop
  | .output i => i < ret
  | .copy dest src n => src + n < ret ∧ dest + n ≤ size

/-- A loop that comes to its end made every access in its bounds, since a copy out of them has no meaning. -/
theorem splitLoop_inside {n i j : Nat} {r : Nat × List UInt8} {ret size : Nat} (hj : j ≤ i) (hret : i + n < ret)
    (hsize : deviceStr.length = size) (h : (splitLoop output n i j devIndex deviceStr).2 = some r) :
    r.2.length = size ∧ ∀ access ∈ (splitLoop output n i j devIndex deviceStr).1, access.Inside ret size := by
  induction n generalizing i j devIndex deviceStr with
  | zero =>
      cases h
      exact ⟨hsize, by simp [splitLoop]⟩
  | succ n ih =>
      have hread : (Access.output i).Inside ret size := by
        simp only [Access.Inside]
        omega
      rw [splitLoop] at h ⊢
      split
      · rename_i hfull
        rw [if_pos hfull] at h
        cases h
        exact ⟨hsize, by simp⟩
      · rename_i hfull
        rw [if_neg hfull] at h
        split
        · rename_i hend
          rw [if_pos hend] at h
          cases hcopy : memcpy deviceStr (devIndex * rowSize) (output.drop j) (i - j + 1) with
          | none => simp [hcopy] at h
          | some copied =>
              simp only [hcopy] at h ⊢
              have hbound : devIndex * rowSize + (i - j + 1) ≤ deviceStr.length := memcpy_bound hcopy
              have hwrite : (Access.copy (devIndex * rowSize) j (i - j + 1)).Inside ret size := by
                simp only [Access.Inside]
                omega
              obtain ⟨hlength, hrest⟩ := ih le_rfl (by omega) ((memcpy_spec hcopy).1.trans hsize) h
              refine ⟨hlength, ?_⟩
              simp only [List.forall_mem_cons]
              exact ⟨hread, hwrite, hrest⟩
        · rename_i hend
          rw [if_neg hend] at h
          simp only at h ⊢
          obtain ⟨hlength, hrest⟩ := ih (by omega) (by omega) hsize h
          refine ⟨hlength, ?_⟩
          simp only [List.forall_mem_cons]
          exact ⟨hread, hrest⟩

/-- What the loop leaves for a list of readers. -/
structure SplitInto (readers : ReaderList) (devIndex : Nat) (deviceStr : List UInt8) : Prop where
  result : (split readers.output readers.ret).2 = some (devIndex, deviceStr)
  count : devIndex = min readers.names.length max322Num
  size : deviceStr.length = max322Num * rowSize
  row : ∀ i name, readers.names[i]? = some name → i < devIndex → name ++ [0] <+: deviceStr.drop (i * rowSize)
  inside : ∀ access ∈ (split readers.output readers.ret).1,
    access.Inside readers.ret.toNat (max322Num * rowSize)

theorem split_short_names (readers : ReaderList) (hshort : ∀ name ∈ readers.names, name.length ≤ 31) :
    ∃ devIndex deviceStr, SplitInto readers devIndex deviceStr := by
  have hfit : ∀ name ∈ readers.names.take (max322Num - 0), name.length < rowSize := by
    intro name hname
    exact Nat.lt_succ_of_le (hshort name (List.mem_of_mem_take hname))
  obtain ⟨⟨devIndex, deviceStr⟩, hcopy⟩ :=
    copyRows_isSome (List.length_replicate : (List.replicate (max322Num * rowSize) (0 : UInt8)).length = _) hfit
  have hresult := (split_eq readers).trans hcopy
  obtain ⟨hcount, -, hrows⟩ := copyRows_spec (Nat.zero_le _) hcopy
  have hret : 0 + (readers.ret - 1).toNat < readers.ret.toNat := by
    simp only [ReaderList.ret]
    omega
  obtain ⟨hlength, hinside⟩ := splitLoop_inside le_rfl hret List.length_replicate hresult
  refine ⟨devIndex, deviceStr, hresult, ?_, hlength, ?_, hinside⟩
  · rw [hcount, Nat.zero_add]
  · intro i name hname hi
    have hrow := hrows i name hname (by omega)
    have hlen : (name ++ [0]).length ≤ rowSize := by
      have hle := hshort name (List.mem_of_getElem? hname)
      simp only [List.length_append, List.length_singleton, rowSize]
      omega
    rwa [List.take_of_length_le hlen, Nat.zero_add] at hrow

def fiveReaders : ReaderList where
  names := [[65], [66, 66], [67], [68], [69]]
  name_ne_nil := by decide
  nul_free := by decide
  fits := by decide

theorem split_fiveReaders : ∃ devIndex deviceStr, SplitInto fiveReaders devIndex deviceStr :=
  split_short_names fiveReaders (by decide)

end Pc02.Usb

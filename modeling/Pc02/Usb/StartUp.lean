import Mathlib.Tactic.IntervalCases
import Pc02.Usb.ReaderList

/-!
# Start-up of the readers

`eg_usbto322_init` gives every extracted name a slot, a thread and a timer. `alloc_322_index` answers
-1 for a name that is no known port, and nothing looks at the answer before it is used as an index.
Nothing compares the length of a name with the size of `usb_port` either.
-/

namespace Pc02.Usb

open Pc02.Lib

inductive UsbCommState
  | idle | init | poll | cfg | push | transfer | acl | invalid | log
deriving DecidableEq, Repr

def usbPortSize : Nat := 16

abbrev UsbPort : Type := { bytes : List UInt8 // bytes.length = usbPortSize }

/-- The fields of `usb_ccid_322_t` that are set here. A timer is the number of its creation. -/
structure UsbCcid322 where
  ccid322Exist : UInt8
  usbPort : UsbPort
  ccid322Index : UInt8
  usbState : UsbCommState
  timer322 : Option Nat
deriving DecidableEq, Repr

/-- `"1-1.2"`, `"1-1.3"`, `"1-1.4"` and `"1-1.5"`. -/
def usbPortDef : List (List UInt8) :=
  [[0x31, 0x2d, 0x31, 0x2e, 0x32], [0x31, 0x2d, 0x31, 0x2e, 0x33], [0x31, 0x2d, 0x31, 0x2e, 0x34],
    [0x31, 0x2d, 0x31, 0x2e, 0x35]]

def alloc322Index (portName : List UInt8) : Int :=
  match usbPortDef.findIdx? (· = portName) with
  | some i => i
  | none => -1

/-- `strcpy` to `usb_port`. A string that leaves it, with its NUL, overwrites the fields behind it: that has no
meaning here. -/
def strcpy (dest : UsbPort) (src : List UInt8) : Option UsbPort :=
  match h : memcpy dest.1 0 (src ++ [0]) (src.length + 1) with
  | none => none
  | some bytes => some ⟨bytes, (memcpy_spec h).1.trans dest.2⟩

inductive Effect
  /-- The fields of the slot are written. -/
  | write (i : Int)
  | task (name : List UInt8) (i : Int)
  /-- A timer is created and stored in the slot. -/
  | timer (i : Int)
deriving DecidableEq, Repr

def Effect.index : Effect → Int
  | .write i => i
  | .task _ i => i
  | .timer i => i

/-- The slots by their index, also those that lie outside the array. -/
structure StartUp where
  slots : Int → UsbCcid322
  effects : List Effect
  creations : Nat
  /-- A failed `osal_assert` never returns. -/
  stuck : Bool

/-- One turn of the second loop. `created` says which of the thread and timer creations succeed. -/
def setUp (created : Nat → Bool) (s : StartUp) (name : List UInt8) : Option StartUp :=
  if s.stuck then some s
  else
    let ret := alloc322Index name
    let slot := s.slots ret
    match strcpy slot.usbPort name with
    | none => none
    | some usbPort =>
        let slot := { slot with ccid322Index := UInt8.ofInt ret, usbState := .init, ccid322Exist := 1, usbPort := usbPort }
        let effects := s.effects ++ [.write ret, .task name ret]
        if created s.creations then
          let timer := if created (s.creations + 1) then some (s.creations + 1) else none
          some
            { slots := Function.update s.slots ret { slot with timer322 := timer }
              effects := effects ++ [.timer ret]
              creations := s.creations + 2
              stuck := !created (s.creations + 1) }
        else
          some
            { slots := Function.update s.slots ret slot
              effects := effects
              creations := s.creations + 1
              stuck := true }

def StartUp.begin (slots : Int → UsbCcid322) : StartUp :=
  { slots := slots, effects := [], creations := 0, stuck := false }

def egUsbto322Init (created : Nat → Bool) (slots : Int → UsbCcid322) (output : List UInt8) (ret : Int) :
    Option StartUp :=
  match (split output ret).2 with
  | none => none
  | some (devIndex, deviceStr) =>
      let devIndex := if devIndex < max322Num then devIndex else max322Num
      ((List.range devIndex).map fun i => cstr deviceStr (i * rowSize)).foldlM (setUp created) (.begin slots)

/-- Start-up has done what the names it extracted ask for. -/
structure StartedRight (extracted : List (List UInt8)) (slots : Int → UsbCcid322) (s : StartUp) : Prop where
  in_array : ∀ e ∈ s.effects, 0 ≤ e.index ∧ e.index < max322Num
  known : ∀ (i : Nat) (name : List UInt8), usbPortDef[i]? = some name → name ∈ extracted →
    (s.slots i).ccid322Index.toNat = i ∧ (s.slots i).ccid322Exist = 1 ∧ (s.slots i).usbState = .init ∧
      cstr (s.slots i).usbPort.1 0 = name
  others : ∀ i : Int, (∀ (k : Nat) (name : List UInt8), usbPortDef[k]? = some name → name ∈ extracted → i ≠ k) →
    s.slots i = slots i
  tasks : s.effects.filterMap (fun e => match e with | .task name i => some (name, i) | _ => none) =
    (extracted.filter (· ∈ usbPortDef)).map fun name => (name, (usbPortDef.idxOf name : Int))
  timers : s.effects.filterMap (fun e => match e with | .timer i => some i | _ => none) =
    (extracted.filter (· ∈ usbPortDef)).map fun name => (usbPortDef.idxOf name : Int)

theorem alloc322Index_port {i : Nat} {name : List UInt8} (h : usbPortDef[i]? = some name) :
    alloc322Index name = i ∧ usbPortDef.idxOf name = i ∧ i < max322Num ∧ name.length = 5 ∧ 0 ∉ name := by
  match i, h with
  | 0, h => cases h; decide
  | 1, h => cases h; decide
  | 2, h => cases h; decide
  | 3, h => cases h; decide
  | i + 4, h => simp [usbPortDef] at h

theorem alloc322Index_unknown {name : List UInt8} (h : name ∉ usbPortDef) : alloc322Index name = -1 := by
  have hnone : usbPortDef.findIdx? (· = name) = none := by
    rw [List.findIdx?_eq_none_iff]
    intro port hport
    simpa using fun heq : port = name => h (heq ▸ hport)
  simp [alloc322Index, hnone]

theorem strcpy_fits (dest : UsbPort) {src : List UInt8} (h : src.length < usbPortSize) :
    ∃ usbPort, strcpy dest src = some usbPort ∧ (0 ∉ src → cstr usbPort.1 0 = src) := by
  have hcopy : memcpy dest.1 0 (src ++ [0]) (src.length + 1) = some _ :=
    memcpy_eq (by simp) (by rw [dest.2]; omega)
  refine ⟨⟨_, (memcpy_spec hcopy).1.trans dest.2⟩, ?_, fun hnul => ?_⟩
  · rw [strcpy]
    split
    · rename_i hnone
      cases hnone.symm.trans hcopy
    · rename_i bytes hsome
      cases hsome.symm.trans hcopy
      rfl
  · have hname : ∀ ch ∈ src, decide (ch ≠ 0) = true := by
      intro ch hch
      simpa using fun h : ch = 0 => hnul (h ▸ hch)
    simp only [cstr, List.drop_zero, List.take_zero, List.nil_append, List.take_length_add_append, List.take_succ_cons,
      List.take_zero, List.append_assoc]
    rw [List.takeWhile_append_of_pos hname]
    simp

variable {created : Nat → Bool} {s s' : StartUp}

theorem setUp_eq_some (hcreated : ∀ k, created k = true) (hstuck : s.stuck = false) {name : List UInt8}
    (h : setUp created s name = some s') : ∃ usbPort, strcpy (s.slots (alloc322Index name)).usbPort name = some usbPort ∧
      s' =
        { slots := Function.update s.slots (alloc322Index name)
            { s.slots (alloc322Index name) with
              ccid322Index := UInt8.ofInt (alloc322Index name)
              usbState := .init
              ccid322Exist := 1
              usbPort := usbPort
              timer322 := some (s.creations + 1) }
          effects := s.effects ++
            [.write (alloc322Index name), .task name (alloc322Index name), .timer (alloc322Index name)]
          creations := s.creations + 2
          stuck := false } := by
  simp only [setUp, hstuck, Bool.false_eq_true, if_false, hcreated, if_true, Bool.not_true] at h
  split at h
  · cases h
  · rename_i usbPort hcopy
    refine ⟨usbPort, hcopy, ?_⟩
    simpa using (Option.some.inj h).symm

theorem setUp_isSome (hcreated : ∀ k, created k = true) (hstuck : s.stuck = false) {name : List UInt8}
    (hname : name.length < usbPortSize) : ∃ s', setUp created s name = some s' := by
  obtain ⟨usbPort, hcopy, -⟩ := strcpy_fits (s.slots (alloc322Index name)).usbPort hname
  simp only [setUp, hstuck, Bool.false_eq_true, if_false, hcopy, hcreated, if_true]
  exact ⟨_, rfl⟩

theorem setUps_effects (hcreated : ∀ k, created k = true) (hstuck : s.stuck = false) {names : List (List UInt8)}
    (h : names.foldlM (setUp created) s = some s') :
    s'.effects = s.effects ++ names.flatMap fun name =>
      [.write (alloc322Index name), .task name (alloc322Index name), .timer (alloc322Index name)] := by
  induction names generalizing s with
  | nil =>
      cases h
      simp
  | cons name names ih =>
      obtain ⟨s₁, hfirst, hrest⟩ := Option.bind_eq_some_iff.mp h
      obtain ⟨usbPort, -, rfl⟩ := setUp_eq_some hcreated hstuck hfirst
      rw [ih rfl hrest]
      simp

theorem setUp_slots (hcreated : ∀ k, created k = true) (hstuck : s.stuck = false) {i : Nat} {name : List UInt8}
    (hport : usbPortDef[i]? = some name) (h : setUp created s name = some s') :
    (s'.slots i).ccid322Index.toNat = i ∧ (s'.slots i).ccid322Exist = 1 ∧ (s'.slots i).usbState = .init ∧
      cstr (s'.slots i).usbPort.1 0 = name ∧ ∀ k : Int, k ≠ i → s'.slots k = s.slots k := by
  obtain ⟨halloc, -, hi, hlen, hnul⟩ := alloc322Index_port hport
  have hindex : (UInt8.ofInt (i : Int)).toNat = i := by
    simp only [max322Num] at hi
    interval_cases i <;> rfl
  obtain ⟨usbPort, hcopy, rfl⟩ := setUp_eq_some hcreated hstuck h
  rw [halloc] at hcopy
  have hfits : name.length < usbPortSize := by
    rw [hlen]
    decide
  obtain ⟨usbPort', hcopy', hcstr⟩ := strcpy_fits (s.slots i).usbPort hfits
  obtain rfl : usbPort' = usbPort := Option.some.inj (hcopy'.symm.trans hcopy)
  simp only [halloc, Function.update_self, hindex, hcstr hnul, true_and]
  intro k hk
  exact Function.update_of_ne hk _ _

/-- Readers at known ports, one after the other: a port that is named has its slot set, every other
slot is kept. -/
theorem setUps_slots (hcreated : ∀ k, created k = true) (hstuck : s.stuck = false) {names : List (List UInt8)}
    (hnames : ∀ name ∈ names, name ∈ usbPortDef) (h : names.foldlM (setUp created) s = some s') :
    (∀ (i : Nat) (name : List UInt8), usbPortDef[i]? = some name → name ∈ names →
      (s'.slots i).ccid322Index.toNat = i ∧ (s'.slots i).ccid322Exist = 1 ∧ (s'.slots i).usbState = .init ∧
        cstr (s'.slots i).usbPort.1 0 = name) ∧
    (∀ i : Int, (∀ (k : Nat) (name : List UInt8), usbPortDef[k]? = some name → name ∈ names → i ≠ k) →
      s'.slots i = s.slots i) := by
  induction names generalizing s with
  | nil =>
      cases h
      simp
  | cons first names ih =>
      obtain ⟨s₁, hfirst, hrest⟩ := Option.bind_eq_some_iff.mp h
      obtain ⟨j, hj⟩ := List.mem_iff_getElem?.mp (hnames first (by simp))
      obtain ⟨hindex, hexist, hstate, hport, hframe⟩ := setUp_slots hcreated hstuck hj hfirst
      have hstuck₁ : s₁.stuck = false := by
        obtain ⟨usbPort, -, rfl⟩ := setUp_eq_some hcreated hstuck hfirst
        rfl
      obtain ⟨hknown, hothers⟩ := ih hstuck₁ (fun name h => hnames name (by simp [h])) hrest
      constructor
      · intro i name hi hmem
        by_cases hlater : name ∈ names
        · exact hknown i name hi hlater
        · -- the port is named by the first name only
          obtain rfl : name = first := by simpa [hlater] using hmem
          obtain rfl : i = j := by
            have heq := (alloc322Index_port hi).2.1
            rw [(alloc322Index_port hj).2.1] at heq
            omega
          have hkept := hothers i fun k name' hk hname' heq => by
            obtain rfl : i = k := by omega
            rw [hi] at hk
            cases hk
            exact hlater hname'
          rw [hkept]
          exact ⟨hindex, hexist, hstate, hport⟩
      · intro i hi
        rw [hothers i fun k name hk hname => hi k name hk (by simp [hname])]
        exact hframe i (hi j first hj (by simp))

theorem setUps_isSome (hcreated : ∀ k, created k = true) (hstuck : s.stuck = false) {names : List (List UInt8)}
    (hnames : ∀ name ∈ names, name.length < usbPortSize) : ∃ s', names.foldlM (setUp created) s = some s' := by
  induction names generalizing s with
  | nil => exact ⟨s, rfl⟩
  | cons first names ih =>
      obtain ⟨s₁, hfirst⟩ := setUp_isSome hcreated hstuck (hnames first (by simp))
      obtain ⟨usbPort, -, heq⟩ := setUp_eq_some hcreated hstuck hfirst
      have hstuck₁ : s₁.stuck = false := by rw [heq]
      obtain ⟨s', hrest⟩ := ih hstuck₁ fun name h => hnames name (by simp [h])
      exact ⟨s', Option.bind_eq_some_iff.mpr ⟨s₁, hfirst, hrest⟩⟩

theorem init_rows {readers : ReaderList} {slots : Int → UsbCcid322}
    (h : egUsbto322Init created slots readers.output readers.ret = some s) :
    ∃ rows : List (List UInt8), rows.foldlM (setUp created) (.begin slots) = some s ∧
      rows.length = readers.extracted.length ∧
      ∀ (k : Nat) (name : List UInt8), readers.extracted[k]? = some name → ∃ row : List UInt8, rows[k]? = some row ∧
        (row = name ∨ (rowSize ≤ name.length ∧ rowSize ≤ row.length)) := by
  rw [egUsbto322Init, split_eq] at h
  split at h
  · cases h
  · rename_i devIndex deviceStr hsplit
    obtain ⟨hdev, -, hrows⟩ := copyRows_spec (by simp) hsplit
    have hcount : (if devIndex < max322Num then devIndex else max322Num) = readers.extracted.length := by
      rw [ReaderList.extracted, List.length_take, hdev]
      split <;> omega
    simp only [hcount] at h
    refine ⟨_, h, by simp, ?_⟩
    intro k name hname
    have hk : k < readers.extracted.length := (List.getElem?_eq_some_iff.mp hname).1
    have hk' : k < max322Num := lt_of_lt_of_le hk (List.length_take_le _ _)
    rw [ReaderList.extracted, List.getElem?_take_of_lt hk'] at hname
    have hrow := hrows k name hname (by omega)
    rw [Nat.zero_add] at hrow
    exact ⟨_, by simp [hk], cstr_row (readers.nul_free name (List.mem_of_getElem? hname)) hrow⟩

theorem init_short {readers : ReaderList} (slots : Int → UsbCcid322)
    (hshort : ∀ name ∈ readers.extracted, name.length < rowSize) :
    egUsbto322Init created slots readers.output readers.ret =
      readers.extracted.foldlM (setUp created) (.begin slots) := by
  obtain ⟨⟨devIndex, deviceStr⟩, hcopy⟩ : ∃ r, copyRows 0 (List.replicate (max322Num * rowSize) 0) readers.names = some r :=
    copyRows_isSome (by simp) hshort
  obtain ⟨hdev, -, hrows⟩ := copyRows_spec (by simp) hcopy
  have hcount : (if devIndex < max322Num then devIndex else max322Num) = readers.extracted.length := by
    rw [ReaderList.extracted, List.length_take, hdev]
    split <;> omega
  have hnames : ((List.range readers.extracted.length).map fun i => cstr deviceStr (i * rowSize)) = readers.extracted := by
    apply List.ext_getElem?
    intro k
    cases hname : readers.extracted[k]? with
    | none =>
        rw [List.getElem?_eq_none_iff] at hname ⊢
        simpa using hname
    | some name =>
        have hk : k < readers.extracted.length := (List.getElem?_eq_some_iff.mp hname).1
        have hk' : k < max322Num := lt_of_lt_of_le hk (List.length_take_le _ _)
        have hfits := hshort name (List.mem_of_getElem? hname)
        rw [ReaderList.extracted, List.getElem?_take_of_lt hk'] at hname
        have hrow := hrows k name hname (by omega)
        rw [Nat.zero_add] at hrow
        rcases cstr_row (readers.nul_free name (List.mem_of_getElem? hname)) hrow with heq | ⟨hlong, -⟩
        · simp [hk, heq]
        · omega
  rw [egUsbto322Init, split_eq, hcopy]
  simp only [hcount, hnames]

theorem setUps_started {α : Type} (pick : Effect → Option α) (start : List UInt8 → Int → α)
    {names : List (List UInt8)} (hnames : ∀ name ∈ names, name ∈ usbPortDef)
    (hpick : ∀ name i, ([.write i, .task name i, .timer i] : List Effect).filterMap pick = [start name i]) :
    (names.flatMap fun name => [.write (alloc322Index name), .task name (alloc322Index name),
        .timer (alloc322Index name)]).filterMap pick =
      (names.filter (· ∈ usbPortDef)).map fun name => start name (usbPortDef.idxOf name) := by
  induction names with
  | nil => rfl
  | cons name names ih =>
      have hname := hnames name (by simp)
      obtain ⟨i, hi⟩ := List.mem_iff_getElem?.mp hname
      obtain ⟨halloc, hidx, -⟩ := alloc322Index_port hi
      rw [List.flatMap_cons, List.filterMap_append, hpick, ih fun name h => hnames name (by simp [h])]
      simp [hname, halloc, hidx]

/-- A row that holds no known port is set up in the slot before the first. -/
theorem known_of_startedRight (hcreated : ∀ k, created k = true) {slots : Int → UsbCcid322} {readers : ReaderList}
    (hs : egUsbto322Init created slots readers.output readers.ret = some s)
    (hright : StartedRight readers.extracted slots s) : ∀ name ∈ readers.extracted, name ∈ usbPortDef := by
  intro name hname
  by_contra hunknown
  obtain ⟨rows, hfold, -, hrows⟩ := init_rows hs
  obtain ⟨k, hk⟩ := List.mem_iff_getElem?.mp hname
  obtain ⟨row, hrow, hcase⟩ := hrows k name hk
  -- the row holds the name itself, or something that is too long to be a port
  have hport : row ∉ usbPortDef := by
    rcases hcase with rfl | ⟨-, hlong⟩
    · exact hunknown
    · intro hmem
      obtain ⟨i, hi⟩ := List.mem_iff_getElem?.mp hmem
      have hlen := (alloc322Index_port hi).2.2.2.1
      simp only [rowSize] at hlong
      omega
  have hwrite : Effect.write (-1) ∈ s.effects := by
    rw [setUps_effects hcreated rfl hfold]
    apply List.mem_append_right
    apply List.mem_flatMap.mpr
    exact ⟨row, List.mem_of_getElem? hrow, by simp [alloc322Index_unknown hport]⟩
  have hin := (hright.in_array _ hwrite).1
  simp [Effect.index] at hin

theorem startedRight_of_known (hcreated : ∀ k, created k = true) {slots : Int → UsbCcid322}
    {extracted : List (List UInt8)} (hknown : ∀ name ∈ extracted, name ∈ usbPortDef)
    (h : extracted.foldlM (setUp created) (.begin slots) = some s) : StartedRight extracted slots s := by
  have hslots := setUps_slots hcreated rfl hknown h
  have heffects : s.effects = _ := setUps_effects hcreated rfl h
  constructor
  · intro e he
    rw [heffects] at he
    obtain ⟨name, hname, he⟩ := List.mem_flatMap.mp he
    obtain ⟨i, hi⟩ := List.mem_iff_getElem?.mp (hknown name hname)
    obtain ⟨halloc, -, hlt, -⟩ := alloc322Index_port hi
    have hindex : e.index = i := by
      simp only [halloc, List.mem_cons, List.not_mem_nil, or_false] at he
      rcases he with rfl | rfl | rfl <;> rfl
    rw [hindex]
    omega
  · exact hslots.1
  · exact hslots.2
  · rw [heffects]
    exact setUps_started _ (fun name i => (name, i)) hknown fun name i => rfl
  · rw [heffects]
    exact setUps_started _ (fun _ i => i) hknown fun name i => rfl

/-- Start-up does what it should exactly if every name that it extracts is one of the four ports. -/
theorem start_up_by_ports (created : Nat → Bool) (hcreated : ∀ k, created k = true) (slots : Int → UsbCcid322)
    (readers : ReaderList) :
    (∃ s, egUsbto322Init created slots readers.output readers.ret = some s ∧
      StartedRight readers.extracted slots s) ↔ ∀ name ∈ readers.extracted, name ∈ usbPortDef := by
  constructor
  · rintro ⟨s, hs, hright⟩
    exact known_of_startedRight hcreated hs hright
  · intro hknown
    have hlen : ∀ name ∈ readers.extracted, name.length = 5 := by
      intro name hname
      obtain ⟨i, hi⟩ := List.mem_iff_getElem?.mp (hknown name hname)
      exact (alloc322Index_port hi).2.2.2.1
    have hshort : ∀ name ∈ readers.extracted, name.length < rowSize := by
      intro name hname
      rw [hlen name hname]
      decide
    obtain ⟨s, hs⟩ := setUps_isSome hcreated (s := .begin slots) rfl fun name hname => by
      rw [hlen name hname]
      decide
    exact ⟨s, (init_short slots hshort).trans hs, startedRight_of_known hcreated hknown hs⟩

def cleared : Int → UsbCcid322 := fun _ =>
  { ccid322Exist := 0, usbPort := ⟨List.replicate usbPortSize 0, rfl⟩, ccid322Index := 0, usbState := .idle,
    timer322 := none }

def twoPorts : ReaderList where
  names := [[0x31, 0x2d, 0x31, 0x2e, 0x35], [0x31, 0x2d, 0x31, 0x2e, 0x32]]
  name_ne_nil := by decide
  nul_free := by decide
  fits := by decide

theorem start_up_by_ports_two :
    ∃ s, egUsbto322Init (fun _ => true) cleared twoPorts.output twoPorts.ret = some s ∧
      StartedRight twoPorts.extracted cleared s :=
  (start_up_by_ports (fun _ => true) (fun _ => rfl) cleared twoPorts).mpr (by decide)

def unknownPort : ReaderList where
  names := [[0x31, 0x2d, 0x31, 0x2e, 0x36]]
  name_ne_nil := by decide
  nul_free := by decide
  fits := by decide

/-- A reader at an unknown port is set up, with a thread and a timer, in the slot before the first. -/
theorem unknown_port_set_up :
    ∃ s, egUsbto322Init (fun _ => true) cleared unknownPort.output unknownPort.ret = some s ∧
      s.effects = [.write (-1), .task [0x31, 0x2d, 0x31, 0x2e, 0x36] (-1), .timer (-1)] ∧
      ¬ StartedRight unknownPort.extracted cleared s := by
  have heffects : (egUsbto322Init (fun _ => true) cleared unknownPort.output unknownPort.ret).map (·.effects) =
      some [.write (-1), .task [0x31, 0x2d, 0x31, 0x2e, 0x36] (-1), .timer (-1)] := by decide +kernel
  obtain ⟨s, hs, heq⟩ := Option.map_eq_some_iff.mp heffects
  refine ⟨s, hs, heq, fun hright => ?_⟩
  have hin := (hright.in_array (.write (-1)) (by simp [heq])).1
  simp [Effect.index] at hin

end Pc02.Usb

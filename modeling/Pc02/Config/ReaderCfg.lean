import Mathlib.Data.List.GetD
import Pc02.Lib.ByteOrder

/-!
# Loading the reader configuration

`cfg_reader_RD` reads a file record by record into `controll_eg.reader_cfg`. Its loop counts the type
codes of the records and uses them as indices, so that not one record reaches the array.
-/

namespace Pc02.Config

open Pc02.Lib

def reader1Cfg : Nat := 0x601

def reader8Cfg : Nat := 0x608

/-- `sizeof(reader_cfg_t)`, with a byte of padding before `reader_area`. -/
def readerCfgSize : Nat := 6

inductive Target
  | readerCfg (i : Nat)
  | sysCtrl
  | legacyWG
deriving DecidableEq, Repr

/-- Where an object starts, counted from the start of `reader_cfg`. -/
def Target.address : Target → Nat
  | readerCfg i => i * readerCfgSize
  | sysCtrl => 8 * readerCfgSize
  | legacyWG => 8 * readerCfgSize + 1

/-- The bytes that `fread` stored at the start of an object. -/
structure Write where
  target : Target
  bytes : List UInt8
deriving DecidableEq, Repr

/-- `fread` of one item: what it stores, and what is left of the file. At the end of the file it stores what
there is. -/
def fread (size : Nat) (rest : List UInt8) : List UInt8 × List UInt8 := (rest.take size, rest.drop size)

/-- The loop, with `n` turns to go. `type` and `length` are read and not looked at. -/
def cfgReaderLoop : (n i : Nat) → List UInt8 → List Write × List UInt8
  | 0, _, rest => ([], rest)
  | n + 1, i, rest =>
      let type := fread 2 rest
      let length := fread 2 type.2
      let record := fread 5 length.2
      let r := cfgReaderLoop n (i + 1) record.2
      (⟨.readerCfg i, record.1⟩ :: r.1, r.2)

/-- What `cfg_reader_RD` returns and writes, for a file that may not be there. -/
def cfgReaderRD : Option (List UInt8) → Int × List Write
  | none => (0, [])
  | some content =>
      let r := cfgReaderLoop (reader8Cfg - reader1Cfg) reader1Cfg content
      let sysCtrl := fread 1 r.2
      let legacyWG := fread 1 sysCtrl.2
      (1, r.1 ++ [⟨.sysCtrl, sysCtrl.1⟩, ⟨.legacyWG, legacyWG.1⟩])

abbrev Bytes := Nat → UInt8

def Write.run (mem : Bytes) (w : Write) : Bytes := fun address =>
  if w.target.address ≤ address then w.bytes.getD (address - w.target.address) (mem address) else mem address

def loaded (mem : Bytes) (content : List UInt8) : Bytes := (cfgReaderRD (some content)).2.foldl Write.run mem

structure ReaderCfg where
  readerNo : UInt8
  readerDoorno : UInt8
  readerDirect : UInt8
  readerArea : BitVec 16
deriving DecidableEq

def readerCfg (e : Endian) (mem : Bytes) (k : Nat) : ReaderCfg where
  readerNo := mem (k * readerCfgSize)
  readerDoorno := mem (k * readerCfgSize + 1)
  readerDirect := mem (k * readerCfgSize + 2)
  readerArea := e.load 16 [mem (k * readerCfgSize + 4), mem (k * readerCfgSize + 5)]

def ReaderCfg.encode (e : Endian) (type : Nat) (r : ReaderCfg) : List UInt8 :=
  e.store (BitVec.ofNat 16 type) ++ e.store (5 : BitVec 16) ++
    ([r.readerNo, r.readerDoorno, r.readerDirect] ++ e.store r.readerArea)

def encodeFile (e : Endian) (records : Fin 8 → ReaderCfg) (sysCtrl legacyWG : UInt8) : List UInt8 :=
  (List.ofFn fun k => (records k).encode e (reader1Cfg + k)).flatten ++ [sysCtrl, legacyWG]

def fileSize : Nat := 8 * 9 + 2

/-- What loading a file is to do. -/
structure Loads (e : Endian) (mem : Bytes) (content : List UInt8) : Prop where
  inside : ∀ w ∈ (cfgReaderRD (some content)).2, ∀ i, w.target = .readerCfg i → w.bytes ≠ [] → i < 8
  complete : ∀ records sysCtrl legacyWG rest, content = encodeFile e records sysCtrl legacyWG ++ rest →
    (∀ k : Fin 8, readerCfg e (loaded mem content) k = records k) ∧
      loaded mem content Target.sysCtrl.address = sysCtrl ∧ loaded mem content Target.legacyWG.address = legacyWG
  short : content.length < fileSize → ∀ address < 8 * readerCfgSize + 2, loaded mem content address = mem address

theorem encodeFile_length (e : Endian) (records : Fin 8 → ReaderCfg) (sysCtrl legacyWG : UInt8) :
    (encodeFile e records sysCtrl legacyWG).length = fileSize := by
  simp [encodeFile, ReaderCfg.encode, List.ofFn_succ, fileSize]

theorem cfgReaderLoop_nil (n i : Nat) :
    (cfgReaderLoop n i []).2 = [] ∧ ∀ w ∈ (cfgReaderLoop n i []).1, w.bytes = [] := by
  induction n generalizing i with
  | zero => simp [cfgReaderLoop]
  | succ n ih => simpa [cfgReaderLoop, fread] using ih (i + 1)

theorem cfgReaderLoop_short {content : List UInt8} (h : content.length ≤ 4) (n i : Nat) :
    (cfgReaderLoop (n + 1) i content).2 = [] ∧ ∀ w ∈ (cfgReaderLoop (n + 1) i content).1, w.bytes = [] := by
  have hbytes : content.drop 4 = [] := List.drop_of_length_le h
  have hrest : content.drop 9 = [] := List.drop_of_length_le (by omega)
  simpa [cfgReaderLoop, fread, hbytes, hrest] using cfgReaderLoop_nil n (i + 1)

theorem cfgReaderRD_short {content : List UInt8} (h : content.length ≤ 4) :
    ∀ w ∈ (cfgReaderRD (some content)).2, w.bytes = [] := by
  obtain ⟨hrest, hwrites⟩ := cfgReaderLoop_short h 6 reader1Cfg
  intro w hw
  simp only [cfgReaderRD, reader8Cfg, reader1Cfg, Nat.reduceSub] at hw
  simp only [reader1Cfg] at hrest hwrites
  simp only [hrest, fread, List.take_nil, List.drop_nil, List.mem_append, List.mem_cons,
    List.not_mem_nil, or_false] at hw
  rcases hw with hw | rfl | rfl
  · exact hwrites w hw
  · rfl
  · rfl

theorem run_empty {w : Write} (h : w.bytes = []) (mem : Bytes) : w.run mem = mem := by
  funext address
  simp [Write.run, h]

theorem foldl_run_empty {writes : List Write} (h : ∀ w ∈ writes, w.bytes = []) (mem : Bytes) :
    writes.foldl Write.run mem = mem := by
  induction writes generalizing mem with
  | nil => rfl
  | cons w writes ih =>
      rw [List.foldl_cons, run_empty (h w (by simp)), ih fun w hw => h w (List.mem_cons_of_mem _ hw)]

theorem first_write (content : List UInt8) :
    ⟨.readerCfg reader1Cfg, (content.drop 4).take 5⟩ ∈ (cfgReaderRD (some content)).2 := by
  simp [cfgReaderRD, cfgReaderLoop, fread, reader1Cfg, reader8Cfg]

/-- Loading is right only where nothing is loaded. -/
theorem loads_iff (e : Endian) (mem : Bytes) (content : List UInt8) : Loads e mem content ↔ content.length ≤ 4 := by
  constructor
  · intro h
    by_contra hlong
    have hbytes : (content.drop 4).take 5 ≠ [] := by
      intro hnil
      have hlength := congrArg List.length hnil
      simp only [List.length_take, List.length_drop, List.length_nil] at hlength
      omega
    have hindex : reader1Cfg < 8 := h.inside _ (first_write content) _ rfl hbytes
    exact absurd hindex (by decide)
  · intro h
    have hempty := cfgReaderRD_short h
    have hmem : loaded mem content = mem := foldl_run_empty hempty mem
    constructor
    · intro w hw i _ hbytes
      exact absurd (hempty w hw) hbytes
    · intro records sysCtrl legacyWG rest hcontent
      have hlength := congrArg List.length hcontent
      rw [List.length_append, encodeFile_length, fileSize] at hlength
      omega
    · intro _ address _
      rw [hmem]

/-- Record `k` holds the number `k + 1`. -/
def wellFormedFile : List UInt8 :=
  encodeFile .little (fun k => ⟨UInt8.ofNat (k + 1), 2, 1, 7⟩) 1 1

/-- The first record goes to index 0x601, and `sys_ctrl` is the low byte of the last record's type. -/
theorem wellFormedFile_not_loaded :
    ⟨.readerCfg 0x601, [1, 2, 1, 7, 0]⟩ ∈ (cfgReaderRD (some wellFormedFile)).2 ∧
      ⟨.sysCtrl, [0x08]⟩ ∈ (cfgReaderRD (some wellFormedFile)).2 ∧ ¬ Loads .little (fun _ => 0) wellFormedFile := by
  have hfirst : ⟨.readerCfg 0x601, [1, 2, 1, 7, 0]⟩ ∈ (cfgReaderRD (some wellFormedFile)).2 := by decide
  refine ⟨hfirst, by decide, fun h => ?_⟩
  have hindex : 0x601 < 8 := h.inside _ hfirst _ rfl (by decide)
  omega

end Pc02.Config

import Pc02.Lib.Ownership
import Pc02.Thread.Create

/-!
# Who owns a block

A thread owns the blocks that it is going to free or to hand over, at most one of each kind. Every block
that is allocated is owned by one thread, or is left. A step of a thread changes its own blocks and new
ones, so that what it does concerns that thread alone.
-/

namespace Pc02.Thread

open Function Pc02.Lib

inductive Kind
  | task
  | attr
  | info
  | name
deriving DecidableEq

namespace Pc

def task : Pc → Option Nat
  | .created _ task | .attributed _ task _ | .informed _ task _ _ | .named _ task _ _ _ => some task
  | .refused task _ | .unnamed task _ => some task
  | _ => none

def attr : Pc → Option Nat
  | .attributed _ _ attr | .informed _ _ attr _ | .named _ _ attr _ _ => some attr
  | _ => none

def info : Pc → Option Nat
  | .informed _ _ _ info | .named _ _ _ info _ | .refused _ info | .unnamed _ info => some info
  | .started arg | .copied arg _ | .titled arg _ | .freed arg _ => some arg
  | _ => none

/-- The name is owned through the block that points to it. -/
def owns (h : Heap) (pc : Pc) : Kind → Option Nat
  | .task => pc.task
  | .attr => pc.attr
  | .info => pc.info
  | .name => (pc.info.bind h.info).bind ThreadInfo.name

end Pc

def Tasks.owns (P : Tasks) (o : Nat × Kind) : Option Nat := (P.pc o.1).owns P.heap o.2

structure ThreadInfo.For (h : Heap) (args : Args) (failed : Bool) (i : ThreadInfo) : Prop where
  startRoutine : i.startRoutine = args.startRoutine
  arg : i.arg = args.arg
  name : ∀ n, i.name = some n → ∃ s, args.given failed = some s ∧ h n = some (.name s)
  noName : i.name = none → args.given failed = none

def Spawned (tr : List Event) (child : Nat) (args : Args) (failed : Bool) : Prop :=
  ∃ p task attr a, Event.started p task attr child a args failed ∈ tr

namespace Pc

def Agrees (h : Heap) (tr : List Event) (p : Nat) : Pc → Prop
  | .user => True
  | .created _ task => h task = some (.task none)
  | .attributed args task attr => h task = some (.task none) ∧ h attr = some (.attr args.attr)
  | .informed args task attr info => (h task = some (.task none) ∧ h attr = some (.attr args.attr)) ∧
      h info = some (.info args.info)
  | .named args task attr info failed => (h task = some (.task none) ∧ h attr = some (.attr args.attr)) ∧
      ∃ i, h info = some (.info i) ∧ i.For h args failed
  | .refused task info => h task = some (.task none) ∧ ∃ i args failed, h info = some (.info i) ∧ i.For h args failed
  | .unnamed task info => h task = some (.task none) ∧ ∃ i, h info = some (.info i) ∧ i.name = none
  | .started arg => ∃ i args failed, Spawned tr p args failed ∧ h arg = some (.info i) ∧ i.For h args failed
  | .copied arg i => ∃ args failed, Spawned tr p args failed ∧ h arg = some (.info i) ∧ i.For h args failed
  | .titled arg i => ∃ args failed, Spawned tr p args failed ∧ h arg = some (.info i) ∧ i.For h args failed
  | .freed arg i => ∃ args failed, Spawned tr p args failed ∧ h arg = some (.info { i with name := none }) ∧
      i.startRoutine = args.startRoutine ∧ i.arg = args.arg

end Pc

section Frame

variable {h h' : Heap} {tr tr' : List Event} {p : Nat} {pc : Pc}

theorem Heap.info_eq {b : Nat} {i : ThreadInfo} (hb : h b = some (.info i)) : h.info b = some i := by
  simp [Heap.info, hb]

theorem Heap.info_congr {b : Nat} (hb : h' b = h b) : h'.info b = h.info b := by
  simp [Heap.info, hb]

theorem Spawned.mono {child : Nat} {args : Args} {failed : Bool} (hs : Spawned tr child args failed) (htr : tr ⊆ tr') :
    Spawned tr' child args failed := by
  obtain ⟨p, task, attr, a, hmem⟩ := hs
  exact ⟨p, task, attr, a, htr hmem⟩

theorem ThreadInfo.For.frame {args : Args} {failed : Bool} {i : ThreadInfo} (hi : i.For h args failed)
    (hname : ∀ n, i.name = some n → h' n = h n) : i.For h' args failed where
  startRoutine := hi.startRoutine
  arg := hi.arg
  name := by
    intro n hn
    obtain ⟨s, hs, hcell⟩ := hi.name n hn
    exact ⟨s, hs, (hname n hn).trans hcell⟩
  noName := hi.noName

theorem Pc.owns_frame (hown : ∀ k b, pc.owns h k = some b → h' b = h b) (k : Kind) : pc.owns h' k = pc.owns h k := by
  cases k with
  | name =>
      cases hinfo : pc.info with
      | none => simp [Pc.owns, hinfo]
      | some b => simp [Pc.owns, hinfo, Heap.info_congr (hown .info b hinfo)]
  | _ => rfl

theorem Pc.owns_user (k : Kind) : Pc.user.owns h k = none := by
  cases k <;> rfl

theorem Pc.Agrees.frame (hag : pc.Agrees h tr p) (htr : tr ⊆ tr') (hown : ∀ k b, pc.owns h k = some b → h' b = h b) :
    pc.Agrees h' tr' p := by
  have htask : ∀ b, pc.task = some b → h' b = h b := hown .task
  have hattr : ∀ b, pc.attr = some b → h' b = h b := hown .attr
  have hinfo : ∀ b, pc.info = some b → h' b = h b := hown .info
  have hname : ∀ b i, pc.info = some b → h b = some (.info i) → ∀ n, i.name = some n → h' n = h n := by
    intro b i hb hcell n hn
    exact hown .name n (by simp [Pc.owns, hb, Heap.info_eq hcell, hn])
  cases pc with
  | user => trivial
  | created args task => exact (htask task rfl).trans hag
  | attributed args task attr => exact ⟨(htask task rfl).trans hag.1, (hattr attr rfl).trans hag.2⟩
  | informed args task attr info =>
      exact ⟨⟨(htask task rfl).trans hag.1.1, (hattr attr rfl).trans hag.1.2⟩, (hinfo info rfl).trans hag.2⟩
  | named args task attr info failed =>
      obtain ⟨⟨ht, ha⟩, i, hi, hfor⟩ := hag
      exact ⟨⟨(htask task rfl).trans ht, (hattr attr rfl).trans ha⟩, i, (hinfo info rfl).trans hi,
        hfor.frame (hname info i rfl hi)⟩
  | refused task info =>
      obtain ⟨ht, i, args, failed, hi, hfor⟩ := hag
      exact ⟨(htask task rfl).trans ht, i, args, failed, (hinfo info rfl).trans hi, hfor.frame (hname info i rfl hi)⟩
  | unnamed task info =>
      obtain ⟨ht, i, hi, hnone⟩ := hag
      exact ⟨(htask task rfl).trans ht, i, (hinfo info rfl).trans hi, hnone⟩
  | started arg =>
      obtain ⟨i, args, failed, hs, hi, hfor⟩ := hag
      exact ⟨i, args, failed, hs.mono htr, (hinfo arg rfl).trans hi, hfor.frame (hname arg i rfl hi)⟩
  | copied arg i =>
      obtain ⟨args, failed, hs, hi, hfor⟩ := hag
      exact ⟨args, failed, hs.mono htr, (hinfo arg rfl).trans hi, hfor.frame (hname arg i rfl hi)⟩
  | titled arg i =>
      obtain ⟨args, failed, hs, hi, hfor⟩ := hag
      exact ⟨args, failed, hs.mono htr, (hinfo arg rfl).trans hi, hfor.frame (hname arg i rfl hi)⟩
  | freed arg i =>
      obtain ⟨args, failed, hs, hi, hfor⟩ := hag
      exact ⟨args, failed, hs.mono htr, (hinfo arg rfl).trans hi, hfor⟩

end Frame

/-- A block that is allocated is one that a thread owns, or is left. -/
structure Mem (tr : List Event) (P : Tasks) : Prop where
  fresh : ∀ b, P.heap b ≠ none → b < P.next
  past : ∀ b, b ∈ tr.filterMap Event.handle ∨ b ∈ tr.filterMap Event.freed → b < P.next
  owned : Owned (fun b => P.heap b ≠ none ∧ ¬ Left tr b) P.owns
  given : ∀ b, (b ∈ tr.filterMap Event.handle ∧ b ∉ tr.filterMap Event.freed) ↔
    ∃ thread, P.heap b = some (.task (some thread))
  gone : ∀ b ∈ tr.filterMap Event.freed, P.heap b = none
  lost : ∀ b ∈ tr.filterMap Event.lost, P.heap b = some (.task none) ∨ ∃ a, P.heap b = some (.attr a)
  agrees : ∀ p, (P.pc p).Agrees P.heap tr p

/-- A step of one thread changes its own blocks, and new ones. -/
structure Changed (p : Nat) (P P' : Tasks) : Prop where
  pc : ∀ q, q ≠ p → P'.pc q = P.pc q
  heap : ∀ b, P'.heap b ≠ P.heap b → P.next ≤ b ∨ ∃ k, P.owns (p, k) = some b
  next : P.next ≤ P'.next

section Change

variable {tr ev : List Event} {P P' : Tasks} {p q b : Nat} {k : Kind}

namespace Mem

theorem left_ne_none (hm : Mem tr P) (hb : Left tr b) : P.heap b ≠ none := by
  rcases hb with hgiven | hlost
  · obtain ⟨thread, hcell⟩ := (hm.given b).mp hgiven
    simp [hcell]
  · rcases hm.lost b hlost with hcell | ⟨a, hcell⟩ <;> simp [hcell]

theorem owns_ne_none (hm : Mem tr P) (hb : P.owns (p, k) = some b) : P.heap b ≠ none := (hm.owned.used_of_owns hb).1

theorem owns_not_left (hm : Mem tr P) (hb : P.owns (p, k) = some b) : ¬ Left tr b := (hm.owned.used_of_owns hb).2

theorem other (hm : Mem tr P) (hc : Changed p P P') (hq : q ≠ p) (hb : P.owns (q, k) = some b) :
    P'.heap b = P.heap b := by
  by_contra hne
  rcases hc.heap b hne with hnew | ⟨k', hk'⟩
  · exact absurd (hm.fresh b (hm.owns_ne_none hb)) (Nat.not_lt.mpr hnew)
  · exact hq (congrArg Prod.fst (hm.owned.one _ _ b hb hk'))

theorem unchanged_left (hm : Mem tr P) (hc : Changed p P P') (hb : Left tr b) : P'.heap b = P.heap b := by
  by_contra hne
  rcases hc.heap b hne with hnew | ⟨k', hk'⟩
  · exact absurd (hm.fresh b (hm.left_ne_none hb)) (Nat.not_lt.mpr hnew)
  · exact hm.owns_not_left hk' hb

theorem owns_other (hm : Mem tr P) (hc : Changed p P P') (hq : q ≠ p) (k : Kind) : P'.owns (q, k) = P.owns (q, k) := by
  simp only [Tasks.owns, hc.pc q hq]
  apply Pc.owns_frame
  intro k' b hb
  exact hm.other hc hq (k := k') hb

theorem agrees_other (hm : Mem tr P) (hc : Changed p P P') (hq : q ≠ p) : (P'.pc q).Agrees P'.heap (tr ++ ev) q := by
  rw [hc.pc q hq]
  apply (hm.agrees q).frame (List.subset_append_left ..)
  intro k b hb
  exact hm.other hc hq (k := k) hb

theorem left_append (hhandle : ev.filterMap Event.handle = []) (hfreed : ev.filterMap Event.freed = []) :
    Left (tr ++ ev) b ↔ Left tr b ∨ b ∈ ev.filterMap Event.lost := by
  simp [Left, hhandle, hfreed, or_assoc]

/-- A step that starts no thread and deletes no handle. -/
theorem change (hm : Mem tr P) (hc : Changed p P P') (hfresh : ∀ b, P'.heap b ≠ none → b < P'.next)
    (hhandle : ev.filterMap Event.handle = []) (hfreed : ev.filterMap Event.freed = [])
    (howned : Owned (fun b => P'.heap b ≠ none ∧ ¬ Left (tr ++ ev) b) P'.owns)
    (htask : ∀ b thread, P'.heap b = some (.task (some thread)) → P.heap b = some (.task (some thread)))
    (hlost : ∀ b ∈ ev.filterMap Event.lost, P'.heap b = some (.task none) ∨ ∃ a, P'.heap b = some (.attr a))
    (hag : (P'.pc p).Agrees P'.heap (tr ++ ev) p) : Mem (tr ++ ev) P' where
  fresh := hfresh
  past := by
    intro b hb
    simp only [List.filterMap_append, hhandle, hfreed, List.append_nil] at hb
    exact Nat.lt_of_lt_of_le (hm.past b hb) hc.next
  owned := howned
  given := by
    intro b
    simp only [List.filterMap_append, hhandle, hfreed, List.append_nil]
    constructor
    · intro hb
      rw [hm.unchanged_left hc (.inl hb)]
      exact (hm.given b).mp hb
    · rintro ⟨thread, hcell⟩
      exact (hm.given b).mpr ⟨thread, htask b thread hcell⟩
  gone := by
    intro b hb
    rw [List.filterMap_append, hfreed, List.append_nil] at hb
    by_contra hne
    rcases hc.heap b (by rwa [hm.gone b hb]) with hnew | ⟨k, hk⟩
    · exact absurd (hm.past b (.inr hb)) (Nat.not_lt.mpr hnew)
    · exact hm.owns_ne_none hk (hm.gone b hb)
  lost := by
    intro b hb
    rw [List.filterMap_append, List.mem_append] at hb
    rcases hb with hb | hb
    · rw [hm.unchanged_left hc (.inr hb)]
      exact hm.lost b hb
    · exact hlost b hb
  agrees := by
    intro q
    by_cases hq : q = p
    · exact hq ▸ hag
    · exact hm.agrees_other hc hq

theorem owns_eq (hm : Mem tr P) (hc : Changed p P P') {f : Nat × Kind → Option Nat}
    (hp : ∀ k, P'.owns (p, k) = f (p, k)) (hf : ∀ q k, q ≠ p → f (q, k) = P.owns (q, k)) (o : Nat × Kind) :
    P'.owns o = f o := by
  obtain ⟨q, k⟩ := o
  by_cases hq : q = p
  · subst hq
    exact hp k
  · rw [hm.owns_other hc hq, hf q k hq]

variable {c : Cell} {pc' : Pc} (h' : Heap)

theorem changed_jump (hheap : ∀ b, h' b ≠ P.heap b → ∃ k, P.owns (p, k) = some b) :
    Changed p P ({ P with heap := h' }.jump p pc') where
  pc _ hq := update_of_ne hq ..
  heap b hb := .inr (hheap b hb)
  next := Nat.le_refl _

theorem changed_malloc (hheap : ∀ b, h' b ≠ P.heap b → ∃ k, P.owns (p, k) = some b) :
    Changed p P (({ P with heap := h' }.malloc c).jump p pc') where
  pc _ hq := update_of_ne hq ..
  heap := by
    intro b hb
    by_cases hnew : b = P.next
    · exact .inl (Nat.le_of_eq hnew.symm)
    · right
      apply hheap
      intro heq
      exact hb ((update_of_ne hnew ..).trans heq)
  next := Nat.le_succ _

theorem malloc (hm : Mem tr P) (hk : P.owns (p, k) = none) (hcell : ∀ thread, c ≠ .task (some thread))
    (hheap : ∀ b, h' b ≠ P.heap b →
      (∃ k, P.owns (p, k) = some b) ∧ h' b ≠ none ∧ ∀ thread, h' b ≠ some (.task (some thread)))
    (hpc : ∀ k', pc'.owns (h'.write P.next c) k' = if k' = k then some P.next else P.owns (p, k'))
    (hag : pc'.Agrees (h'.write P.next c) (tr ++ []) p) :
    Mem (tr ++ []) (({ P with heap := h' }.malloc c).jump p pc') := by
  have hc : Changed p P (({ P with heap := h' }.malloc c).jump p pc') := changed_malloc h' fun b hb => (hheap b hb).1
  have hlive : ∀ b, h' b ≠ none ↔ P.heap b ≠ none := by
    intro b
    by_cases heq : h' b = P.heap b
    · rw [heq]
    · obtain ⟨⟨k, hown⟩, hne, -⟩ := hheap b heq
      exact iff_of_true hne (hm.owns_ne_none hown)
  have hleft : ¬ Left tr P.next := by
    intro hl
    exact Nat.lt_irrefl _ (hm.fresh P.next (hm.left_ne_none hl))
  apply hm.change hc _ rfl rfl _ _ (by simp) (by simpa [Tasks.jump, Tasks.malloc] using hag)
  · intro b hb
    simp only [Tasks.jump, Tasks.malloc, Heap.write, update_apply] at hb
    split at hb
    · subst b
      exact Nat.lt_succ_self _
    · exact Nat.lt_succ_of_lt (hm.fresh b ((hlive b).mp hb))
  · apply hm.owned.grant (o := (p, k)) (t := P.next)
    · rintro ⟨hne, -⟩
      exact Nat.lt_irrefl _ (hm.fresh P.next hne)
    · exact hk
    · intro b
      simp only [Tasks.jump, Tasks.malloc, Heap.write, update_apply, List.append_nil]
      by_cases hb : b = P.next
      · simp [hb, hleft]
      · rw [if_neg hb, hlive]
        simp [hb]
    · apply hm.owns_eq hc
      · intro k'
        simp only [Tasks.owns, Tasks.jump, Tasks.malloc, update_self, hpc, update_apply, Prod.mk.injEq, true_and]
      · intro q k' hq
        simp [hq]
  · intro b thread hb
    simp only [Tasks.jump, Tasks.malloc, Heap.write, update_apply] at hb
    split at hb
    · cases hb
      exact absurd rfl (hcell thread)
    · by_cases heq : h' b = P.heap b
      · rwa [← heq]
      · exact absurd hb ((hheap b heq).2.2 thread)

theorem jump (hm : Mem tr P) (hhandle : ev.filterMap Event.handle = []) (hfreed : ev.filterMap Event.freed = [])
    (hlost : ev.filterMap Event.lost = []) (hpc : ∀ k, pc'.owns P.heap k = P.owns (p, k))
    (hag : pc'.Agrees P.heap (tr ++ ev) p) : Mem (tr ++ ev) (P.jump p pc') := by
  have hc : Changed p P (P.jump p pc') := changed_jump P.heap fun b hb => absurd rfl hb
  apply hm.change hc hm.fresh hhandle hfreed _ (fun b thread hb => hb) (by simp [hlost])
    (by simpa [Tasks.jump] using hag)
  apply hm.owned.congr
  · intro b
    rw [left_append hhandle hfreed]
    simp [hlost, Tasks.jump]
  · apply hm.owns_eq hc
    · intro k
      simpa [Tasks.owns, Tasks.jump] using hpc k
    · intro q k hq
      rfl

theorem owns_ne {b' : Nat} {k' : Kind} (hm : Mem tr P) (hb : P.owns (p, k) = some b) (hb' : P.owns (p, k') = some b')
    (hk : k ≠ k') : b ≠ b' := by
  rintro rfl
  exact hk (congrArg Prod.snd (hm.owned.one _ _ b hb hb'))

theorem drop (hm : Mem tr P) (hhandle : ev.filterMap Event.handle = []) (hfreed : ev.filterMap Event.freed = [])
    (hheap : ∀ b, h' b ≠ P.heap b → ∃ k, P.owns (p, k) = some b)
    (htask : ∀ b thread, h' b = some (.task (some thread)) → P.heap b = some (.task (some thread)))
    (hlost : ∀ b ∈ ev.filterMap Event.lost, (∃ k, P.owns (p, k) = some b) ∧ h' b = some (.task none))
    (hpc : ∀ k, pc'.owns h' k = P.owns (p, k) ∨ pc'.owns h' k = none)
    (hkept : ∀ k b, P.owns (p, k) = some b → (pc'.owns h' k = some b ↔ h' b ≠ none ∧ b ∉ ev.filterMap Event.lost))
    (hag : pc'.Agrees h' (tr ++ ev) p) : Mem (tr ++ ev) ({ P with heap := h' }.jump p pc') := by
  have hc : Changed p P ({ P with heap := h' }.jump p pc') := changed_jump h' hheap
  have hlive : ∀ b, h' b ≠ none → P.heap b ≠ none := by
    intro b hb hnone
    obtain ⟨k, hk⟩ := hheap b (by rwa [hnone])
    exact hm.owns_ne_none hk hnone
  apply hm.change hc (fun b hb => hm.fresh b (hlive b hb)) hhandle hfreed _ htask (fun b hb => .inl (hlost b hb).2)
    (by simpa [Tasks.jump] using hag)
  have howns : ∀ k, ({ P with heap := h' }.jump p pc').owns (p, k) = pc'.owns h' k := by
    intro k
    simp [Tasks.owns, Tasks.jump]
  apply hm.owned.restrict
  · rintro ⟨q, k⟩
    by_cases hq : q = p
    · subst hq
      rw [howns]
      exact hpc k
    · exact .inl (hm.owns_other hc hq k)
  · intro b
    rw [left_append hhandle hfreed, not_or]
    constructor
    · rintro ⟨hb, hleft, hnot⟩
      refine ⟨⟨hlive b hb, hleft⟩, ?_⟩
      rintro ⟨q, k⟩ hx
      by_cases hq : q = p
      · subst hq
        rw [howns]
        exact (hkept k b hx).mpr ⟨hb, hnot⟩
      · rwa [hm.owns_other hc hq]
    · rintro ⟨⟨hb, hleft⟩, hall⟩
      obtain ⟨⟨q, k⟩, hx⟩ := (hm.owned.used_iff b).mp ⟨hb, hleft⟩
      by_cases hq : q = p
      · subst hq
        obtain ⟨hb', hnot⟩ := (hkept k b hx).mp ((howns k).symm.trans (hall _ hx))
        exact ⟨hb', hleft, hnot⟩
      · refine ⟨?_, hleft, ?_⟩
        · rw [hm.other hc hq hx]
          exact hb
        · intro hl
          obtain ⟨⟨k', hk'⟩, -⟩ := hlost b hl
          exact hq (congrArg Prod.fst (hm.owned.one _ _ b hx hk'))

end Mem

end Change

end Pc02.Thread

import Pc02.Thread.Blocks

/-!
# Blocks handed over

What the threads do, one step at a time, and to whom the blocks belong after each: a thread that starts
another one hands over the description and the name, and leaves the handle and the attributes.
-/

namespace Pc02.Thread

open Function Pc02.Lib

/-- `free_thread_info` has freed the name. -/
def Heap.unname (h : Heap) (info : Nat) (i : ThreadInfo) : Heap := fun b =>
  if b = info then some (.info { i with name := none }) else if i.name = some b then none else h b

/-- What a thread does, its blocks being what it takes them for. -/
inductive Move (exe : List UInt8) (P : Tasks) (p : Nat) : Tasks → List Event → Prop
  | noTask : Move exe P p P [.failed p none]
  | task (args : Args) : P.pc p = .user → p < P.threads →
      Move exe P p ((P.malloc (.task none)).jump p (.created args P.next)) []
  | attr {args : Args} {task : Nat} : P.pc p = .created args task →
      Move exe P p ((P.malloc (.attr args.attr)).jump p (.attributed args task P.next)) []
  | noAttr {args : Args} {task : Nat} : P.pc p = .created args task →
      Move exe P p (P.jump p .user) [.failed p (some task)]
  | info {args : Args} {task attr : Nat} : P.pc p = .attributed args task attr →
      Move exe P p ((P.malloc (.info args.info)).jump p (.informed args task attr P.next)) []
  | noInfo {args : Args} {task attr : Nat} : P.pc p = .attributed args task attr →
      Move exe P p ({ P with heap := update P.heap attr none }.jump p .user) [.failed p (some task)]
  | name {args : Args} {task attr info : Nat} {s : List UInt8} : P.pc p = .informed args task attr info →
      args.name = some s →
      Move exe P p (({ P with heap := P.heap.write info (.info { args.info with name := some P.next }) }.malloc
        (.name s)).jump p (.named args task attr info false)) []
  | noName {args : Args} {task attr info : Nat} {failed : Bool} : P.pc p = .informed args task attr info →
      args.given failed = none → Move exe P p (P.jump p (.named args task attr info failed)) []
  | start {args : Args} {task attr info : Nat} {failed : Bool} : P.pc p = .named args task attr info failed →
      Move exe P p (P.start p args task attr info failed args.attr).1
        [.started p task attr P.threads args.attr args failed]
  | refuse {args : Args} {task attr info : Nat} {failed : Bool} : P.pc p = .named args task attr info failed →
      Move exe P p ({ P with heap := update P.heap attr none }.jump p (.refused task info)) []
  | unname {task info : Nat} {i : ThreadInfo} : P.pc p = .refused task info → P.heap info = some (.info i) →
      Move exe P p ({ P with heap := P.heap.unname info i }.jump p (.unnamed task info)) []
  | uninfo {task info : Nat} : P.pc p = .unnamed task info →
      Move exe P p ({ P with heap := update P.heap info none }.jump p .user) [.failed p (some task)]
  | copy {arg : Nat} {i : ThreadInfo} : P.pc p = .started arg → P.heap arg = some (.info i) →
      Move exe P p (P.jump p (.copied arg i)) []
  | title {arg : Nat} {i : ThreadInfo} : P.pc p = .copied arg i →
      Move exe P p (P.jump p (.titled arg i)) [.titled p (osSetprocparam exe (i.name.bind P.heap.name))]
  | freeName {arg : Nat} {i : ThreadInfo} : P.pc p = .titled arg i → P.heap arg = some (.info i) →
      Move exe P p ({ P with heap := P.heap.unname arg i }.jump p (.freed arg i)) []
  | freeInfo {arg : Nat} {i : ThreadInfo} : P.pc p = .freed arg i →
      Move exe P p ({ P with heap := update P.heap arg none }.jump p .user) [.runs p i.startRoutine i.arg]
  | noDelete : Move exe P p P [.deleted p none]
  | delete {b thread : Nat} : P.heap b = some (.task (some thread)) →
      Move exe P p { P with heap := update P.heap b none } [.deleted p (some b)]

section Moves

variable {exe : List UInt8} {tr ev : List Event} {P P' : Tasks} {p : Nat} {ok : Bool} {pc : Pc}

theorem Heap.free_eq {h : Heap} {b : Nat} {c : Cell} (hb : h b = some c) : h.free b = some (update h b none) := by
  simp [Heap.free, hb]

theorem Heap.isHandle_iff {h : Heap} {b : Nat} : h.isHandle b = true ↔ ∃ thread, h b = some (.task (some thread)) := by
  simp only [Heap.isHandle]
  split
  · simp [*]
  · simp_all

theorem Heap.freeName_eq {h : Heap} {info : Nat} {i : ThreadInfo} {args : Args} {failed : Bool}
    (hinfo : h info = some (.info i)) (hfor : i.For h args failed) : h.freeName info = some (h.unname info i) := by
  simp only [Heap.freeName, Heap.info_eq hinfo, Option.bind_some]
  cases hname : i.name with
  | none =>
      simp only [Option.some.injEq]
      funext b
      by_cases hb : b = info
      · subst b
        have heq : i = { i with name := none } := by rw [← hname]
        rw [hinfo, Heap.unname, if_pos rfl, ← heq]
      · simp [Heap.unname, hb, hname]
  | some n =>
      obtain ⟨s, -, hn⟩ := hfor.name n hname
      simp only [Heap.free_eq hn, Option.map_some, Option.some.injEq]
      funext b
      by_cases hb : b = info
      · subst b
        simp [Heap.write, Heap.unname]
      · by_cases hbn : b = n
        · subst b
          simp [Heap.write, Heap.unname, hb, hname]
        · simp [Heap.write, Heap.unname, hb, hname, hbn, Ne.symm hbn]

theorem go_cases (hm : Mem tr P) (hstep : P.go exe p ok = some (P', ev)) : Move exe P p P' ev := by
  have hag := hm.agrees p
  unfold Tasks.go at hstep
  cases hpc : P.pc p with
  | user =>
      rw [hpc] at hstep
      cases hstep
  | created args task =>
      rw [hpc] at hstep
      cases hstep
  | attributed args task attr =>
      rw [hpc] at hstep hag
      obtain ⟨ht, ha⟩ := hag
      simp only [Heap.free_eq ha, Tasks.access, Tasks.fail] at hstep
      split at hstep
      · cases hstep
        exact .info hpc
      · cases hstep
        exact .noInfo hpc
  | informed args task attr info =>
      rw [hpc] at hstep hag
      obtain ⟨-, hi⟩ := hag
      simp only [Heap.info_eq hi, Option.map_some, Tasks.access] at hstep
      split at hstep
      · rename_i s hs
        split at hstep
        · cases hstep
          exact .name hpc hs
        · cases hstep
          exact .noName hpc rfl
      · rename_i hs
        cases hstep
        exact .noName hpc hs
  | named args task attr info failed =>
      rw [hpc] at hstep hag
      obtain ⟨⟨ht, ha⟩, -⟩ := hag
      simp only [ha, Heap.free_eq ha, Tasks.access] at hstep
      split at hstep
      · cases hstep
        exact .start hpc
      · cases hstep
        exact .refuse hpc
  | refused task info =>
      rw [hpc] at hstep hag
      obtain ⟨-, i, args, failed, hi, hfor⟩ := hag
      simp only [Heap.freeName_eq hi hfor, Tasks.access] at hstep
      cases hstep
      exact .unname hpc hi
  | unnamed task info =>
      rw [hpc] at hstep hag
      obtain ⟨-, i, hi, -⟩ := hag
      simp only [Heap.free_eq hi, Tasks.access, Tasks.fail] at hstep
      cases hstep
      exact .uninfo hpc
  | started arg =>
      rw [hpc] at hstep hag
      obtain ⟨i, args, failed, -, hi, -⟩ := hag
      simp only [Heap.info_eq hi] at hstep
      cases hstep
      exact .copy hpc hi
  | copied arg i =>
      rw [hpc] at hstep hag
      obtain ⟨args, failed, -, -, hfor⟩ := hag
      have htitle : Move exe P p _ _ := .title hpc
      cases hname : i.name with
      | none =>
          simp only [hname] at hstep htitle
          cases hstep
          exact htitle
      | some n =>
          obtain ⟨s, hs, hn⟩ := hfor.name n hname
          have hread : P.heap.name n = some s := by simp [Heap.name, hn]
          simp only [hname, hread, Option.bind_some] at hstep htitle
          cases hstep
          exact htitle
  | titled arg i =>
      rw [hpc] at hstep hag
      obtain ⟨args, failed, -, hi, hfor⟩ := hag
      simp only [Heap.freeName_eq hi hfor, Tasks.access] at hstep
      cases hstep
      exact .freeName hpc hi
  | freed arg i =>
      rw [hpc] at hstep hag
      obtain ⟨args, failed, -, hi, -⟩ := hag
      simp only [Heap.free_eq hi, Tasks.access] at hstep
      cases hstep
      exact .freeInfo hpc

theorem step_cases {a : Action} (hm : Mem tr P) (hd : P.Disciplined a) (hstep : P.step exe a = some (P', ev)) :
    ∃ p, Move exe P p P' ev := by
  cases a with
  | create p args ok =>
      simp only [Tasks.step] at hstep
      split at hstep
      case isFalse => cases hstep
      case isTrue hp =>
        split at hstep
        · cases hstep
          exact ⟨p, .task args hp.2 hp.1⟩
        · cases hstep
          exact ⟨p, .noTask⟩
  | attr p fails =>
      simp only [Tasks.step] at hstep
      split at hstep
      · rename_i args task hpc
        split at hstep
        · cases hstep
          exact ⟨p, .attr hpc⟩
        · split at hstep
          · cases hstep
            exact ⟨p, .noAttr hpc⟩
          · cases hstep
      · cases hstep
  | go p ok => exact ⟨p, go_cases hm hstep⟩
  | del p task =>
      simp only [Tasks.step] at hstep
      split at hstep
      case isFalse => cases hstep
      case isTrue hp =>
        cases task with
        | none =>
            cases hstep
            exact ⟨p, .noDelete⟩
        | some b =>
            obtain ⟨thread, hb⟩ := Heap.isHandle_iff.mp hd
            simp only [Heap.free_eq hb, Tasks.access] at hstep
            cases hstep
            exact ⟨p, .delete hb⟩

namespace Mem

theorem ne_next {b : Nat} {c : Cell} (hm : Mem tr P) (hb : P.heap b = some c) : b ≠ P.next := by
  have hlt := hm.fresh b (by simp [hb])
  omega

theorem owns_at (hpc : P.pc p = pc) (k : Kind) : P.owns (p, k) = pc.owns P.heap k := by
  rw [Tasks.owns, hpc]

theorem silent (hm : Mem tr P) (hhandle : ev.filterMap Event.handle = []) (hfreed : ev.filterMap Event.freed = [])
    (hlost : ev.filterMap Event.lost = []) : Mem (tr ++ ev) P := by
  have hself : Mem (tr ++ ev) (P.jump 0 (P.pc 0)) := hm.jump hhandle hfreed hlost (fun _ => rfl)
    ((hm.agrees 0).frame (List.subset_append_left ..) fun _ _ _ => rfl)
  rwa [Tasks.jump, update_eq_self] at hself

theorem unname {info : Nat} {i : ThreadInfo} {pc' : Pc} (hm : Mem tr P) (hpc : P.pc p = pc) (hinfo : pc.info = some info)
    (hcell : P.heap info = some (.info i)) (htask : pc'.task = pc.task) (hattr : pc'.attr = pc.attr)
    (hinfo' : pc'.info = some info) (hag : pc'.Agrees (P.heap.unname info i) (tr ++ []) p) :
    Mem (tr ++ []) ({ P with heap := P.heap.unname info i }.jump p pc') := by
  have hi : P.owns (p, .info) = some info := by rw [owns_at hpc, Pc.owns, hinfo]
  have hn : P.owns (p, .name) = i.name := by
    rw [owns_at hpc, Pc.owns, hinfo]
    simp [Heap.info_eq hcell]
  have hname : pc'.owns (P.heap.unname info i) .name = none := by simp [Pc.owns, hinfo', Heap.info, Heap.unname]
  have hkeep : ∀ {k b}, P.owns (p, k) = some b → k ≠ .name → P.heap.unname info i b ≠ none := by
    intro k b hb hk
    by_cases hbi : b = info
    · simp [Heap.unname, hbi]
    · have hne : i.name ≠ some b := by
        intro heq
        exact hm.owns_ne hb (hn.trans heq) hk rfl
      simp only [Heap.unname, if_neg hbi, if_neg hne]
      exact hm.owns_ne_none hb
  apply hm.drop _ rfl rfl _ _ (by simp) _ _ hag
  · intro b hb
    by_cases hbi : b = info
    · exact ⟨.info, hbi ▸ hi⟩
    · refine ⟨.name, hn.trans ?_⟩
      by_contra hne
      exact hb (by simp [Heap.unname, hbi, hne])
  · intro b thread hb
    simp only [Heap.unname] at hb
    split at hb
    · cases hb
    · split at hb
      · cases hb
      · exact hb
  · intro k
    cases k with
    | task => exact .inl (htask.trans (owns_at hpc .task).symm)
    | attr => exact .inl (hattr.trans (owns_at hpc .attr).symm)
    | info => exact .inl (hinfo'.trans hi.symm)
    | name => exact .inr hname
  · intro k b hb
    cases k with
    | task => simpa [Pc.owns, htask, hkeep hb] using (owns_at hpc .task).symm.trans hb
    | attr => simpa [Pc.owns, hattr, hkeep hb] using (owns_at hpc .attr).symm.trans hb
    | info => simpa [Pc.owns, hinfo', hkeep hb] using hi.symm.trans hb
    | name =>
        have hfree : P.heap.unname info i b = none := by
          have hbi : b ≠ info := hm.owns_ne hb hi (by simp)
          simp [Heap.unname, hbi, hn.symm.trans hb]
        simp [hname, hfree]

theorem free {k : Kind} {b : Nat} {pc' : Pc} (hm : Mem tr P) (hb : P.owns (p, k) = some b) (hk : k ≠ .task)
    (hhandle : ev.filterMap Event.handle = []) (hfreed : ev.filterMap Event.freed = [])
    (hlost : ∀ t ∈ ev.filterMap Event.lost, P.owns (p, .task) = some t ∧ P.heap t = some (.task none))
    (hpc : ∀ k' b', P.owns (p, k') = some b' →
      pc'.owns (update P.heap b none) k' = if k' = k ∨ b' ∈ ev.filterMap Event.lost then none else some b')
    (hnew : ∀ k', P.owns (p, k') = none → pc'.owns (update P.heap b none) k' = none)
    (hag : pc'.Agrees (update P.heap b none) (tr ++ ev) p) :
    Mem (tr ++ ev) ({ P with heap := update P.heap b none }.jump p pc') := by
  apply hm.drop _ hhandle hfreed _ _ _ _ _ hag
  · intro b' hb'
    refine ⟨k, ?_⟩
    by_contra hne
    refine hb' (update_of_ne ?_ ..)
    rintro rfl
    exact hne hb
  · intro b' thread hb'
    rw [update_apply] at hb'
    split at hb'
    · cases hb'
    · exact hb'
  · intro t ht
    obtain ⟨hown, hcell⟩ := hlost t ht
    refine ⟨⟨.task, hown⟩, ?_⟩
    rwa [update_of_ne]
    exact hm.owns_ne hown hb hk.symm
  · intro k'
    cases hown : P.owns (p, k') with
    | none => exact .inr (hnew k' hown)
    | some b' =>
        rw [hpc k' b' hown]
        split
        · exact .inr rfl
        · exact .inl rfl
  · intro k' b' hown
    rw [hpc k' b' hown]
    by_cases hkk : k' = k
    · subst hkk
      cases hb.symm.trans hown
      simp
    · have hne : b' ≠ b := hm.owns_ne hown hb hkk
      by_cases hl : b' ∈ ev.filterMap Event.lost
      · simp [hl]
      · simp [hkk, hl, hne, hm.owns_ne_none hown]

theorem new {c : Cell} {k : Kind} {pc' : Pc} (hm : Mem tr P) (hpc : P.pc p = pc) (hk : pc.owns P.heap k = none)
    (hcell : ∀ thread, c ≠ .task (some thread))
    (howns : ∀ k', pc'.owns (P.heap.write P.next c) k' = if k' = k then some P.next else pc.owns P.heap k')
    (hag : pc'.Agrees (P.heap.write P.next c) (tr ++ []) p) : Mem (tr ++ []) ((P.malloc c).jump p pc') := by
  apply hm.malloc P.heap ((owns_at hpc k).trans hk) hcell (fun b hb => absurd rfl hb) _ hag
  intro k'
  rw [howns, owns_at hpc]

section Start

variable {args : Args} {task attr info : Nat} {failed : Bool}

theorem write_task (b : Nat) : P.heap.write task (.task (some P.threads)) b =
    if b = task then some (.task (some P.threads)) else P.heap b := update_apply ..

theorem left_start (hfreed : task ∉ tr.filterMap Event.freed) (b : Nat) :
    Left (tr ++ [.started p task attr P.threads args.attr args failed]) b ↔ Left tr b ∨ b = task ∨ b = attr := by
  have hone : b ∈ [Event.started p task attr P.threads args.attr args failed].filterMap Event.handle ↔ b = task := by
    simp [Event.handle]
  have htwo : b ∈ [Event.started p task attr P.threads args.attr args failed].filterMap Event.lost ↔ b = attr := by
    simp [Event.lost]
  have hnone : b ∉ [Event.started p task attr P.threads args.attr args failed].filterMap Event.freed := by
    simp [Event.freed]
  simp only [Left, List.filterMap_append, List.mem_append]
  rw [hone, htwo]
  by_cases hb : b = task
  · subst b
    simp [hfreed, hnone]
  · simp only [hb, hnone]
    tauto

theorem changed_start (hpc : P.pc p = .named args task attr info failed) :
    Changed p P ({ P with heap := P.heap.write task (.task (some P.threads)) }.jump p .user) := by
  apply changed_jump
  intro b hb
  refine ⟨.task, ?_⟩
  by_contra hne
  rw [write_task, if_neg] at hb
  · exact hb rfl
  · rintro rfl
    exact hne (owns_at hpc .task)

/-- The thread that starts the other one puts back two of its blocks, and the two then change places. -/
theorem owned_start (hm : Mem tr P) (hpc : P.pc p = .named args task attr info failed) (hidle : P.pc P.threads = .user)
    (hfreed : task ∉ tr.filterMap Event.freed) :
    Owned (fun b => (P.start p args task attr info failed args.attr).1.heap b ≠ none ∧
        ¬ Left (tr ++ [.started p task attr P.threads args.attr args failed]) b)
      (P.start p args task attr info failed args.attr).1.owns := by
  have htask : P.owns (p, .task) = some task := owns_at hpc .task
  have hinfo : P.owns (p, .info) = some info := owns_at hpc .info
  have hni : info ≠ task := hm.owns_ne hinfo htask (by simp)
  have hp : P.threads ≠ p := by
    intro heq
    rw [heq, hpc] at hidle
    cases hidle
  have hput : Owned (fun b => (P.heap b ≠ none ∧ ¬ Left tr b) ∧ b ≠ task ∧ b ≠ attr)
      (update (update P.owns (p, .task) none) (p, .attr) none) := by
    have hfirst := hm.owned.release htask (fun _ => Iff.rfl) (fun _ => rfl)
    apply hfirst.release (o := (p, .attr)) (t := attr)
    · exact (update_of_ne (by simp) ..).trans (owns_at hpc .attr)
    · intro b
      exact and_assoc.symm
    · intro x
      rfl
  apply hput.relabel (Equiv.prodCongr (Equiv.swap p P.threads) (Equiv.refl Kind))
  · intro b
    rw [left_start hfreed]
    simp only [Tasks.start, write_task]
    by_cases hb : b = task
    · simp [hb]
    · simp [hb, and_assoc]
  · rintro ⟨q, k⟩
    have hsame : (P.start p args task attr info failed args.attr).1.owns (q, k) =
        (update (update P.pc p .user) P.threads (.started info) q).owns
          (P.heap.write task (.task (some P.threads))) k := rfl
    rw [hsame]
    by_cases hqt : q = P.threads
    · subst q
      simp only [update_self, Equiv.prodCongr_apply, Prod.map_apply, Equiv.swap_apply_right, Equiv.refl_apply]
      cases k with
      | task => simp [Pc.owns, Pc.task]
      | attr => simp [Pc.owns, Pc.attr]
      | info => simp [Pc.owns, Pc.info, hinfo]
      | name => simp [Tasks.owns, hpc, Pc.owns, Pc.info, Heap.info, write_task, hni]
    · rw [update_of_ne hqt]
      by_cases hqp : q = p
      · subst q
        have hnone : P.owns (P.threads, k) = none := by
          rw [owns_at hidle]
          exact Pc.owns_user k
        simp only [update_self, Equiv.prodCongr_apply, Prod.map_apply, Equiv.swap_apply_left, Equiv.refl_apply]
        rw [update_of_ne (by simp [hp]), update_of_ne (by simp [hp]), hnone]
        exact Pc.owns_user k
      · have hother := hm.owns_other (changed_start hpc) hqp k
        simp only [Tasks.owns, Tasks.jump, update_of_ne hqp] at hother
        simp only [update_of_ne hqp, Equiv.prodCongr_apply, Prod.map_apply, Equiv.swap_apply_of_ne_of_ne hqp hqt,
          Equiv.refl_apply]
        rw [update_of_ne (by simp [hqp]), update_of_ne (by simp [hqp])]
        exact hother

theorem agrees_start (hm : Mem tr P) (hpc : P.pc p = .named args task attr info failed) (q : Nat) :
    ((P.start p args task attr info failed args.attr).1.pc q).Agrees
      (P.start p args task attr info failed args.attr).1.heap
      (tr ++ [.started p task attr P.threads args.attr args failed]) q := by
  have hag := hm.agrees p
  rw [hpc] at hag
  obtain ⟨-, i, hi, hfor⟩ := hag
  have htask : P.owns (p, .task) = some task := owns_at hpc .task
  by_cases hqt : q = P.threads
  · subst q
    simp only [Tasks.start, update_self]
    refine ⟨i, args, failed, ⟨p, task, attr, args.attr, by simp⟩, ?_, ?_⟩
    · rwa [write_task, if_neg]
      exact hm.owns_ne (owns_at hpc .info) htask (by simp)
    · apply hfor.frame
      intro n hn
      rw [write_task, if_neg]
      refine hm.owns_ne (k := .name) ?_ htask (by simp)
      simp [Tasks.owns, hpc, Pc.owns, Pc.info, Heap.info_eq hi, hn]
  · have hag : (P.start p args task attr info failed args.attr).1.pc q =
        ({ P with heap := P.heap.write task (.task (some P.threads)) }.jump p .user).pc q := update_of_ne hqt ..
    rw [hag]
    by_cases hqp : q = p
    · subst q
      simp [Tasks.jump, Pc.Agrees]
    · exact hm.agrees_other (changed_start hpc) hqp

theorem start (hm : Mem tr P) (hpc : P.pc p = .named args task attr info failed) (hidle : P.pc P.threads = .user) :
    Mem (tr ++ [.started p task attr P.threads args.attr args failed])
      (P.start p args task attr info failed args.attr).1 := by
  have hag := hm.agrees p
  rw [hpc] at hag
  obtain ⟨⟨ht, ha⟩, -⟩ := hag
  have htask : P.owns (p, .task) = some task := owns_at hpc .task
  have hfreed : task ∉ tr.filterMap Event.freed := by
    intro hmem
    rw [hm.gone task hmem] at ht
    cases ht
  have hother {b : Nat} (hb : b ≠ task) : (P.start p args task attr info failed args.attr).1.heap b = P.heap b := by
    simp only [Tasks.start, write_task, if_neg hb]
  constructor
  · intro b hb
    apply hm.fresh b
    by_cases hbt : b = task
    · simp [hbt, ht]
    · rwa [hother hbt] at hb
  · intro b hb
    simp only [List.filterMap_append, List.mem_append] at hb
    rcases hb with (hb | hb) | hb | hb
    · exact hm.past b (.inl hb)
    · cases List.mem_singleton.mp hb
      exact hm.fresh task (by simp [ht])
    · exact hm.past b (.inr hb)
    · cases hb
  · exact hm.owned_start hpc hidle hfreed
  · intro b
    simp only [List.filterMap_append, List.mem_append]
    by_cases hb : b = task
    · subst b
      simp [hfreed, Event.handle, Event.freed, Tasks.start, write_task]
    · have hgiven := hm.given b
      simpa [hother hb, hb, Ne.symm hb, Event.handle, Event.freed] using hgiven
  · intro b hb
    rw [List.filterMap_append] at hb
    have hold : b ∈ tr.filterMap Event.freed := by simpa [Event.freed] using hb
    rw [hother]
    · exact hm.gone b hold
    · rintro rfl
      exact hfreed hold
  · intro b hb
    simp only [List.filterMap_append, List.mem_append] at hb
    rcases hb with hb | hb
    · rw [hother]
      · exact hm.lost b hb
      · rintro rfl
        exact hm.owns_not_left htask (.inr hb)
    · cases List.mem_singleton.mp hb
      rw [hother (hm.owns_ne (owns_at hpc .attr) htask (by simp))]
      exact .inr ⟨_, ha⟩
  · exact hm.agrees_start hpc

end Start

theorem delete {b thread : Nat} (hm : Mem tr P) (hb : P.heap b = some (.task (some thread))) :
    Mem (tr ++ [.deleted p (some b)]) { P with heap := update P.heap b none } := by
  have hgiven := (hm.given b).mpr ⟨thread, hb⟩
  have hother {q k u} (hu : P.owns (q, k) = some u) : update P.heap b none u = P.heap u := by
    apply update_of_ne
    rintro rfl
    exact hm.owns_not_left hu (.inl hgiven)
  have hhandle : (tr ++ [Event.deleted p (some b)]).filterMap Event.handle = tr.filterMap Event.handle := by
    simp [Event.handle]
  have hlost : (tr ++ [Event.deleted p (some b)]).filterMap Event.lost = tr.filterMap Event.lost := by
    simp [Event.lost]
  have hfreed : (tr ++ [Event.deleted p (some b)]).filterMap Event.freed = tr.filterMap Event.freed ++ [b] := by
    simp [Event.freed]
  have hnot : b ∉ tr.filterMap Event.lost := by
    intro hmem
    rcases hm.lost b hmem with hcell | ⟨a, hcell⟩
    · cases hb.symm.trans hcell
    · cases hb.symm.trans hcell
  constructor
  · intro u hu
    apply hm.fresh u
    intro hnone
    apply hu
    by_cases hub : u = b
    · subst u
      exact update_self ..
    · exact (update_of_ne hub ..).trans hnone
  · intro u hu
    rw [hhandle, hfreed, List.mem_append, List.mem_singleton] at hu
    rcases hu with hu | hu | rfl
    · exact hm.past u (.inl hu)
    · exact hm.past u (.inr hu)
    · exact hm.past u (.inl hgiven.1)
  · apply hm.owned.congr
    · intro u
      simp only [Left, hhandle, hlost, hfreed, List.mem_append, List.mem_singleton]
      by_cases hub : u = b
      · subst u
        simp [hgiven]
      · simp [hub]
    · rintro ⟨q, k⟩
      apply Pc.owns_frame
      intro k' u hu
      exact hother (q := q) (k := k') hu
  · intro u
    rw [hhandle, hfreed, List.mem_append, List.mem_singleton]
    by_cases hub : u = b
    · subst u
      simp
    · simp only [hub, or_false, update_of_ne hub]
      exact hm.given u
  · intro u hu
    rw [hfreed, List.mem_append, List.mem_singleton] at hu
    rcases hu with hu | rfl
    · have hub : u ≠ b := by
        rintro rfl
        exact hgiven.2 hu
      exact (update_of_ne hub ..).trans (hm.gone u hu)
    · exact update_self ..
  · intro u hu
    rw [hlost] at hu
    have hub : u ≠ b := by
      rintro rfl
      exact hnot hu
    simpa only [update_of_ne hub] using hm.lost u hu
  · intro q
    apply (hm.agrees q).frame (List.subset_append_left ..)
    intro k u hu
    exact hother (q := q) (k := k) hu

theorem name {args : Args} {task attr info : Nat} {s : List UInt8} (hm : Mem tr P)
    (hpc : P.pc p = .informed args task attr info) (hs : args.name = some s) :
    Mem (tr ++ []) (({ P with heap := P.heap.write info (.info { args.info with name := some P.next }) }.malloc
      (.name s)).jump p (.named args task attr info false)) := by
  have hag := hm.agrees p
  rw [hpc] at hag
  obtain ⟨⟨ht, ha⟩, hi⟩ := hag
  have hinfo : P.owns (p, .info) = some info := owns_at hpc .info
  have hne {k : Kind} {b : Nat} (hb : P.owns (p, k) = some b) (hk : k ≠ .info) : b ≠ info := hm.owns_ne hb hinfo hk
  apply hm.malloc _ (k := .name)
  · rw [owns_at hpc]
    simp [Pc.owns, Pc.info, Heap.info_eq hi, Args.info]
  · simp
  · intro b hb
    have hbi : b = info := by
      by_contra hbi
      exact hb (update_of_ne hbi ..)
    subst b
    exact ⟨⟨.info, hinfo⟩, by simp [Heap.write], by simp [Heap.write]⟩
  · intro k
    rw [owns_at hpc]
    cases k with
    | name => simp [Pc.owns, Pc.info, Heap.info, Heap.write, update_of_ne (hm.ne_next hi)]
    | _ => rfl
  · refine ⟨⟨?_, ?_⟩, { args.info with name := some P.next }, ?_, rfl, rfl, ?_, ?_⟩
    · rw [Heap.write, Heap.write, update_of_ne (hm.ne_next ht), update_of_ne (hne (owns_at hpc .task) (by simp)), ht]
    · rw [Heap.write, Heap.write, update_of_ne (hm.ne_next ha), update_of_ne (hne (owns_at hpc .attr) (by simp)), ha]
    · rw [Heap.write, Heap.write, update_of_ne (hm.ne_next hi), update_self]
    · intro n hn
      cases hn
      exact ⟨s, hs, update_self ..⟩
    · intro hn
      cases hn

theorem refuse {args : Args} {task attr info : Nat} {failed : Bool} (hm : Mem tr P)
    (hpc : P.pc p = .named args task attr info failed) :
    Mem (tr ++ []) ({ P with heap := update P.heap attr none }.jump p (.refused task info)) := by
  have hag := hm.agrees p
  rw [hpc] at hag
  obtain ⟨⟨ht, ha⟩, i, hi, hfor⟩ := hag
  have hattr : P.owns (p, .attr) = some attr := owns_at hpc .attr
  have hinfo : P.owns (p, .info) = some info := owns_at hpc .info
  have hname : P.owns (p, .name) = i.name := by
    rw [owns_at hpc]
    simp [Pc.owns, Pc.info, Heap.info_eq hi]
  have hread : (update P.heap attr none) info = some (.info i) :=
    (update_of_ne (hm.owns_ne hinfo hattr (by simp)) ..).trans hi
  apply hm.free (k := .attr) hattr (by simp) rfl rfl
  · simp
  · intro k b hb
    cases k with
    | name => simpa [Pc.owns, Pc.info, Heap.info_eq hread] using hname.symm.trans hb
    | _ =>
        rw [owns_at hpc] at hb
        cases hb
        rfl
  · intro k hk
    cases k with
    | name => simpa [Pc.owns, Pc.info, Heap.info_eq hread] using hname.symm.trans hk
    | attr => rfl
    | _ =>
        rw [owns_at hpc] at hk
        cases hk
  · refine ⟨?_, i, args, failed, hread, hfor.frame ?_⟩
    · exact (update_of_ne (hm.owns_ne (owns_at hpc .task) hattr (by simp)) ..).trans ht
    · intro n hn
      exact update_of_ne (hm.owns_ne (hname.trans hn) hattr (by simp)) ..

theorem move (hm : Mem tr P) (hidle : ∀ q, P.threads ≤ q → P.pc q = .user) (hmove : Move exe P p P' ev) :
    Mem (tr ++ ev) P' := by
  have hag := hm.agrees p
  cases hmove with
  | noTask => exact hm.silent rfl rfl rfl
  | task args hpc hp =>
      apply hm.new hpc (k := .task) rfl (by simp)
      · intro k
        cases k <;> rfl
      · exact update_self ..
  | @attr args task hpc =>
      rw [hpc] at hag
      apply hm.new hpc (k := .attr) rfl (by simp)
      · intro k
        cases k <;> rfl
      · exact ⟨(update_of_ne (hm.ne_next hag) ..).trans hag, update_self ..⟩
  | @noAttr args task hpc =>
      rw [hpc] at hag
      have hown : ∀ k b, P.owns (p, k) = some b → b = task := by
        intro k b hb
        rw [owns_at hpc] at hb
        cases k <;> cases hb
        rfl
      apply hm.drop P.heap rfl rfl (fun b hb => absurd rfl hb) (fun b thread hb => hb)
      · intro b hb
        cases List.mem_singleton.mp hb
        exact ⟨⟨.task, owns_at hpc .task⟩, hag⟩
      · intro k
        right
        cases k <;> rfl
      · intro k b hb
        cases hown k b hb
        simp [Pc.owns_user, Event.lost]
      · trivial
  | @info args task attr hpc =>
      rw [hpc] at hag
      obtain ⟨ht, ha⟩ := hag
      apply hm.new hpc (k := .info) rfl (by simp)
      · intro k
        cases k with
        | name => simp [Pc.owns, Pc.info, Heap.info, Heap.write, Args.info]
        | _ => rfl
      · exact ⟨⟨(update_of_ne (hm.ne_next ht) ..).trans ht, (update_of_ne (hm.ne_next ha) ..).trans ha⟩, update_self ..⟩
  | @noInfo args task attr hpc =>
      rw [hpc] at hag
      apply hm.free (k := .attr) (owns_at hpc .attr) (by simp) rfl rfl
      · intro t ht
        cases List.mem_singleton.mp ht
        exact ⟨owns_at hpc .task, hag.1⟩
      · intro k b hb
        rw [owns_at hpc] at hb
        cases k <;> cases hb <;> simp [Pc.owns_user, Event.lost]
      · intro k hk
        exact Pc.owns_user ..
      · trivial
  | name hpc hs => exact hm.name hpc hs
  | @noName args task attr info failed hpc hs =>
      rw [hpc] at hag
      obtain ⟨hblocks, hi⟩ := hag
      apply hm.jump rfl rfl rfl
      · intro k
        rw [owns_at hpc]
        cases k <;> rfl
      · refine ⟨hblocks, args.info, hi, rfl, rfl, ?_, fun _ => hs⟩
        intro n hn
        cases hn
  | start hpc => exact hm.start hpc (hidle _ (Nat.le_refl _))
  | refuse hpc => exact hm.refuse hpc
  | @unname task info i hpc hi =>
      rw [hpc] at hag
      refine hm.unname hpc rfl hi rfl rfl rfl ?_
      have hne : task ≠ info := hm.owns_ne (owns_at hpc .task) (owns_at hpc .info) (by simp)
      have hname : i.name ≠ some task := by
        intro heq
        refine hm.owns_ne (k := .name) (b := task) ?_ (owns_at hpc .task) (by simp) rfl
        rw [owns_at hpc]
        simp [Pc.owns, Pc.info, Heap.info_eq hi, heq]
      refine ⟨?_, { i with name := none }, ?_, rfl⟩
      · rw [Heap.unname, if_neg hne, if_neg hname, hag.1]
      · rw [Heap.unname, if_pos rfl]
  | @uninfo task info hpc =>
      rw [hpc] at hag
      obtain ⟨ht, i, hi, hname⟩ := hag
      apply hm.free (k := .info) (owns_at hpc .info) (by simp) rfl rfl
      · intro t ht'
        cases List.mem_singleton.mp ht'
        exact ⟨owns_at hpc .task, ht⟩
      · intro k b hb
        rw [owns_at hpc] at hb
        cases k with
        | name => simp [Pc.owns, Pc.info, Heap.info_eq hi, hname] at hb
        | _ => cases hb <;> simp [Pc.owns_user, Event.lost]
      · intro k hk
        exact Pc.owns_user ..
      · trivial
  | @copy arg i hpc hi =>
      rw [hpc] at hag
      obtain ⟨j, args, failed, hs, hj, hfor⟩ := hag
      cases hi.symm.trans hj
      apply hm.jump rfl rfl rfl
      · intro k
        rw [owns_at hpc]
        cases k <;> rfl
      · exact ⟨args, failed, hs.mono (List.subset_append_left ..), hi, hfor⟩
  | @title arg i hpc =>
      rw [hpc] at hag
      obtain ⟨args, failed, hs, hi, hfor⟩ := hag
      apply hm.jump rfl rfl rfl
      · intro k
        rw [owns_at hpc]
        cases k <;> rfl
      · exact ⟨args, failed, hs.mono (List.subset_append_left ..), hi, hfor⟩
  | @freeName arg i hpc hi =>
      rw [hpc] at hag
      obtain ⟨args, failed, hs, -, hfor⟩ := hag
      refine hm.unname hpc rfl hi rfl rfl rfl ?_
      refine ⟨args, failed, hs.mono (List.subset_append_left ..), ?_, hfor.startRoutine, hfor.arg⟩
      rw [Heap.unname, if_pos rfl]
  | @freeInfo arg i hpc =>
      rw [hpc] at hag
      obtain ⟨args, failed, -, hi, -⟩ := hag
      apply hm.free (k := .info) (owns_at hpc .info) (by simp) rfl rfl
      · simp [Event.lost]
      · intro k b hb
        rw [owns_at hpc] at hb
        cases k with
        | name => simp [Pc.owns, Pc.info, Heap.info_eq hi] at hb
        | info => rfl
        | _ => cases hb
      · intro k hk
        exact Pc.owns_user ..
      · trivial
  | noDelete => exact hm.silent rfl rfl rfl
  | delete hb => exact hm.delete hb

end Mem

end Moves

end Pc02.Thread

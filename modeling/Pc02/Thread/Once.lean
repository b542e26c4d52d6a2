import Mathlib.Data.List.Nodup
import Mathlib.Data.List.Perm.Subperm
import Pc02.Thread.Handover

/-!
# Every thread runs its routine once

Each thread that is started goes through `start_routine_wrapper` and runs the routine it was started for.
-/

namespace Pc02.Thread

open Function Machines

section Once

variable {exe : List UInt8} {tr ev : List Event} {P P' : Tasks} {p : Nat}

def Pc.begins : Pc → Bool
  | .started _ | .copied .. | .titled .. | .freed .. => true
  | _ => false

/-- The name is the one that the thread was given, unless it could not be copied. -/
def GivenName (exe : List UInt8) (tr : List Event) (child : Nat) (comm : List UInt8) : Prop :=
  ∃ args failed, Spawned tr child args failed ∧ comm = osSetprocparam exe (args.given failed)

/-- The thread has its name. -/
def Titled (exe : List UInt8) (tr : List Event) (child : Nat) (i : ThreadInfo) : Prop :=
  ∃ args failed, Spawned tr child args failed ∧ (i.startRoutine = args.startRoutine ∧ i.arg = args.arg) ∧
    Event.titled child (osSetprocparam exe (args.given failed)) ∈ tr

/-- The thread that runs the routine got its name before. -/
def Named (exe : List UInt8) (tr : List Event) (child r a : Nat) : Prop :=
  ∃ args failed, Spawned tr child args failed ∧ (r = args.startRoutine ∧ a = args.arg) ∧
    List.Sublist [.titled child (osSetprocparam exe (args.given failed)), .runs child r a] tr

structure Once (exe : List UInt8) (tr : List Event) (P : Tasks) : Prop where
  idle : ∀ q, P.threads ≤ q → P.pc q = .user
  below : ∀ x ∈ tr.filterMap Event.spawned, x.1 < P.threads
  ids : ((tr.filterMap Event.spawned).map Prod.fst).Nodup
  ran : (tr.filterMap Event.ran).Nodup
  ran_spawned : tr.filterMap Event.ran ⊆ tr.filterMap Event.spawned
  done : ∀ x ∈ tr.filterMap Event.ran, (P.pc x.1).begins = false
  waits : ∀ x ∈ tr.filterMap Event.spawned, x ∉ tr.filterMap Event.ran → (P.pc x.1).begins = true
  titles : ∀ child comm, Event.titled child comm ∈ tr → GivenName exe tr child comm
  titled : ∀ q arg i, P.pc q = .titled arg i ∨ P.pc q = .freed arg i → Titled exe tr q i
  named : ∀ child r a, Event.runs child r a ∈ tr → Named exe tr child r a
  faultless : ∀ q, Event.fault q ∉ tr

theorem Spawned.mem {child : Nat} {args : Args} {failed : Bool} (hs : Spawned tr child args failed) :
    (child, args.startRoutine, args.arg) ∈ tr.filterMap Event.spawned := by
  obtain ⟨p, task, attr, a, hmem⟩ := hs
  exact List.mem_filterMap.mpr ⟨_, hmem, rfl⟩

theorem GivenName.mono {child : Nat} {comm : List UInt8} (hn : GivenName exe tr child comm) :
    GivenName exe (tr ++ ev) child comm := by
  obtain ⟨args, failed, hs, hcomm⟩ := hn
  exact ⟨args, failed, hs.mono (List.subset_append_left ..), hcomm⟩

theorem Titled.mono {child : Nat} {i : ThreadInfo} (ht : Titled exe tr child i) : Titled exe (tr ++ ev) child i := by
  obtain ⟨args, failed, hs, hi, hmem⟩ := ht
  exact ⟨args, failed, hs.mono (List.subset_append_left ..), hi, List.mem_append_left ev hmem⟩

theorem Named.mono {child r a : Nat} (hn : Named exe tr child r a) : Named exe (tr ++ ev) child r a := by
  obtain ⟨args, failed, hs, hra, hsub⟩ := hn
  exact ⟨args, failed, hs.mono (List.subset_append_left ..), hra, hsub.trans (List.sublist_append_left ..)⟩

theorem not_mem_of_ran_nil (hran : ev.filterMap Event.ran = []) (child r a : Nat) : Event.runs child r a ∉ ev := by
  intro hmem
  have hnone := List.filterMap_eq_nil_iff.mp hran _ hmem
  simp [Event.ran] at hnone

namespace Once

theorem keep (ho : Once exe tr P) (hthreads : P'.threads = P.threads) (hidle : ∀ q, P.threads ≤ q → P'.pc q = .user)
    (hbegins : ∀ q, (P'.pc q).begins = (P.pc q).begins) (hspawned : ev.filterMap Event.spawned = [])
    (hran : ev.filterMap Event.ran = []) (hfault : ∀ q, Event.fault q ∉ ev)
    (htitles : ∀ child comm, Event.titled child comm ∈ ev → GivenName exe tr child comm)
    (htitled : ∀ q arg i, P'.pc q = .titled arg i ∨ P'.pc q = .freed arg i → Titled exe (tr ++ ev) q i) :
    Once exe (tr ++ ev) P' := by
  have hs : (tr ++ ev).filterMap Event.spawned = tr.filterMap Event.spawned := by simp [hspawned]
  have hr : (tr ++ ev).filterMap Event.ran = tr.filterMap Event.ran := by simp [hran]
  constructor
  · rwa [hthreads]
  · rw [hs, hthreads]
    exact ho.below
  · rw [hs]
    exact ho.ids
  · rw [hr]
    exact ho.ran
  · rw [hr, hs]
    exact ho.ran_spawned
  · intro x hx
    rw [hbegins]
    exact ho.done x (hr ▸ hx)
  · intro x hx hnot
    rw [hbegins]
    exact ho.waits x (hs ▸ hx) (hr ▸ hnot)
  · intro child comm hmem
    rcases List.mem_append.mp hmem with hold | hnew
    · exact (ho.titles child comm hold).mono
    · exact (htitles child comm hnew).mono
  · exact htitled
  · intro child r a hmem
    have hold := (List.mem_append.mp hmem).resolve_right (not_mem_of_ran_nil hran child r a)
    exact (ho.named child r a hold).mono
  · intro q hmem
    rcases List.mem_append.mp hmem with hold | hnew
    · exact ho.faultless q hold
    · exact hfault q hnew

theorem jump {pc' : Pc} {h' : Heap} {n : Nat} (ho : Once exe tr P) (hp : P.pc p ≠ .user ∨ p < P.threads)
    (hbegins : pc'.begins = (P.pc p).begins) (hspawned : ev.filterMap Event.spawned = [])
    (hran : ev.filterMap Event.ran = []) (hfault : ∀ q, Event.fault q ∉ ev)
    (htitles : ∀ child comm, Event.titled child comm ∈ ev → GivenName exe tr child comm)
    (htitled : ∀ arg i, pc' = .titled arg i ∨ pc' = .freed arg i → Titled exe (tr ++ ev) p i) :
    Once exe (tr ++ ev) ({ P with heap := h', next := n }.jump p pc') := by
  refine ho.keep rfl ?_ ?_ hspawned hran hfault htitles ?_
  · intro q hq
    have hqp : q ≠ p := by
      rintro rfl
      rcases hp with hne | hlt
      · exact hne (ho.idle q hq)
      · omega
    exact (update_of_ne hqp ..).trans (ho.idle q hq)
  · intro q
    by_cases hqp : q = p
    · subst q
      simpa [Tasks.jump] using hbegins
    · simp [Tasks.jump, hqp]
  · intro q arg i hq
    by_cases hqp : q = p
    · subst q
      exact htitled arg i (by simpa [Tasks.jump] using hq)
    · exact (ho.titled q arg i (by simpa [Tasks.jump, hqp] using hq)).mono

theorem start {args : Args} {task attr info : Nat} {failed : Bool} {a : Attr} (ho : Once exe tr P)
    (hpc : P.pc p = .named args task attr info failed) :
    Once exe (tr ++ [.started p task attr P.threads a args failed]) (P.start p args task attr info failed a).1 := by
  have hs : (tr ++ [Event.started p task attr P.threads a args failed]).filterMap Event.spawned =
      tr.filterMap Event.spawned ++ [(P.threads, args.startRoutine, args.arg)] := by simp [Event.spawned]
  have hr : (tr ++ [Event.started p task attr P.threads a args failed]).filterMap Event.ran =
      tr.filterMap Event.ran := by simp [Event.ran]
  have hp : p < P.threads := by
    by_contra hle
    rw [ho.idle p (by omega)] at hpc
    cases hpc
  have hkeep : ∀ x ∈ tr.filterMap Event.spawned,
      ((P.start p args task attr info failed a).1.pc x.1).begins = (P.pc x.1).begins := by
    intro x hx
    have hne : x.1 ≠ P.threads := by
      have hlt := ho.below x hx
      omega
    simp only [Tasks.start, update_of_ne hne]
    by_cases hxp : x.1 = p
    · simp [hxp, hpc, Pc.begins]
    · rw [update_of_ne hxp]
  constructor
  · intro q hq
    simp only [Tasks.start] at hq ⊢
    rw [update_of_ne (by omega), update_of_ne (by omega)]
    exact ho.idle q (by omega)
  · intro x hx
    rw [hs, List.mem_append, List.mem_singleton] at hx
    rcases hx with hx | rfl
    · exact Nat.lt_succ_of_lt (ho.below x hx)
    · exact Nat.lt_succ_self _
  · rw [hs, List.map_append, List.nodup_append]
    refine ⟨ho.ids, by simp, ?_⟩
    intro c hc d hd
    obtain ⟨x, hx, rfl⟩ := List.mem_map.mp hc
    have hlt := ho.below x hx
    simp only [List.map_cons, List.map_nil, List.mem_singleton] at hd
    omega
  · rw [hr]
    exact ho.ran
  · rw [hr, hs]
    exact List.Subset.trans ho.ran_spawned (List.subset_append_left ..)
  · intro x hx
    rw [hr] at hx
    rw [hkeep x (ho.ran_spawned hx)]
    exact ho.done x hx
  · intro x hx hnot
    rw [hs, List.mem_append, List.mem_singleton] at hx
    rw [hr] at hnot
    rcases hx with hx | rfl
    · rw [hkeep x hx]
      exact ho.waits x hx hnot
    · simp [Tasks.start, Pc.begins]
  · intro child comm hmem
    exact (ho.titles child comm (by simpa using hmem)).mono
  · intro q arg i hq
    simp only [Tasks.start] at hq
    by_cases hqt : q = P.threads
    · simp [hqt] at hq
    · by_cases hqp : q = p
      · rw [update_of_ne hqt, hqp] at hq
        simp at hq
      · rw [update_of_ne hqt, update_of_ne hqp] at hq
        exact (ho.titled q arg i hq).mono
  · intro child r b hmem
    exact (ho.named child r b (by simpa using hmem)).mono
  · intro q hmem
    exact ho.faultless q (by simpa using hmem)

theorem runs {arg : Nat} {i : ThreadInfo} {h' : Heap} (ho : Once exe tr P) (hpc : P.pc p = .freed arg i)
    (hspawned : (p, i.startRoutine, i.arg) ∈ tr.filterMap Event.spawned) :
    Once exe (tr ++ [.runs p i.startRoutine i.arg]) ({ P with heap := h' }.jump p .user) := by
  have hs : (tr ++ [Event.runs p i.startRoutine i.arg]).filterMap Event.spawned = tr.filterMap Event.spawned := by
    simp [Event.spawned]
  have hr : (tr ++ [Event.runs p i.startRoutine i.arg]).filterMap Event.ran =
      tr.filterMap Event.ran ++ [(p, i.startRoutine, i.arg)] := by simp [Event.ran]
  have hnew : ∀ x ∈ tr.filterMap Event.ran, x.1 ≠ p := by
    intro x hx hxp
    have hdone := ho.done x hx
    rw [hxp, hpc] at hdone
    cases hdone
  have hpcs : ∀ q, q ≠ p → ({ P with heap := h' }.jump p .user).pc q = P.pc q := fun q hq => update_of_ne hq ..
  constructor
  · intro q hq
    by_cases hqp : q = p
    · subst q
      exact update_self ..
    · exact (hpcs q hqp).trans (ho.idle q hq)
  · rw [hs]
    exact ho.below
  · rw [hs]
    exact ho.ids
  · rw [hr, List.nodup_append]
    refine ⟨ho.ran, by simp, ?_⟩
    intro x hx y hy
    cases List.mem_singleton.mp hy
    rintro rfl
    exact hnew _ hx rfl
  · intro x hx
    rw [hr, List.mem_append, List.mem_singleton] at hx
    rw [hs]
    rcases hx with hx | rfl
    · exact ho.ran_spawned hx
    · exact hspawned
  · intro x hx
    rw [hr, List.mem_append, List.mem_singleton] at hx
    rcases hx with hx | rfl
    · rw [hpcs x.1 (hnew x hx)]
      exact ho.done x hx
    · simp [Tasks.jump, Pc.begins]
  · intro x hx hnot
    rw [hs] at hx
    rw [hr, List.mem_append, List.mem_singleton, not_or] at hnot
    -- a thread was started once, with one routine
    have hxp : x.1 ≠ p := by
      intro hxp
      exact hnot.2 (List.inj_on_of_nodup_map ho.ids hx hspawned hxp)
    rw [hpcs x.1 hxp]
    exact ho.waits x hx hnot.1
  · intro child comm hmem
    exact (ho.titles child comm (by simpa using hmem)).mono
  · intro q arg' i' hq
    by_cases hqp : q = p
    · simp [Tasks.jump, hqp] at hq
    · rw [hpcs q hqp] at hq
      exact (ho.titled q arg' i' hq).mono
  · intro child r a hmem
    rcases List.mem_append.mp hmem with hold | hnow
    · exact (ho.named child r a hold).mono
    · cases List.mem_singleton.mp hnow
      -- the thread got its name before it freed the block
      obtain ⟨args, failed, hsp, hra, htitle⟩ := ho.titled p arg i (.inr hpc)
      exact ⟨args, failed, hsp.mono (List.subset_append_left ..), hra,
        (List.singleton_sublist.mpr htitle).append (List.Sublist.refl [Event.runs p i.startRoutine i.arg])⟩
  · intro q hmem
    exact ho.faultless q (by simpa using hmem)

theorem move (hm : Mem tr P) (ho : Once exe tr P) (hmove : Move exe P p P' ev) : Once exe (tr ++ ev) P' := by
  have hag := hm.agrees p
  cases hmove with
  | noTask =>
      exact ho.keep rfl ho.idle (fun _ => rfl) rfl rfl (by simp) (by simp) fun q arg i hq => (ho.titled q arg i hq).mono
  | task args hpc hp => exact ho.jump (.inr hp) (by simp [hpc, Pc.begins]) rfl rfl (by simp) (by simp) (by simp)
  | attr hpc => exact ho.jump (by simp [hpc]) (by simp [hpc, Pc.begins]) rfl rfl (by simp) (by simp) (by simp)
  | noAttr hpc => exact ho.jump (by simp [hpc]) (by simp [hpc, Pc.begins]) rfl rfl (by simp) (by simp) (by simp)
  | info hpc => exact ho.jump (by simp [hpc]) (by simp [hpc, Pc.begins]) rfl rfl (by simp) (by simp) (by simp)
  | noInfo hpc => exact ho.jump (by simp [hpc]) (by simp [hpc, Pc.begins]) rfl rfl (by simp) (by simp) (by simp)
  | name hpc hs => exact ho.jump (by simp [hpc]) (by simp [hpc, Pc.begins]) rfl rfl (by simp) (by simp) (by simp)
  | noName hpc => exact ho.jump (by simp [hpc]) (by simp [hpc, Pc.begins]) rfl rfl (by simp) (by simp) (by simp)
  | start hpc => exact ho.start hpc
  | refuse hpc => exact ho.jump (by simp [hpc]) (by simp [hpc, Pc.begins]) rfl rfl (by simp) (by simp) (by simp)
  | unname hpc hi => exact ho.jump (by simp [hpc]) (by simp [hpc, Pc.begins]) rfl rfl (by simp) (by simp) (by simp)
  | uninfo hpc => exact ho.jump (by simp [hpc]) (by simp [hpc, Pc.begins]) rfl rfl (by simp) (by simp) (by simp)
  | copy hpc hi => exact ho.jump (by simp [hpc]) (by simp [hpc, Pc.begins]) rfl rfl (by simp) (by simp) (by simp)
  | @title arg i hpc =>
      rw [hpc] at hag
      obtain ⟨args, failed, hs, -, hfor⟩ := hag
      have hname : i.name.bind P.heap.name = args.given failed := by
        cases hname : i.name with
        | none => exact (hfor.noName hname).symm
        | some n =>
            obtain ⟨s, hs, hn⟩ := hfor.name n hname
            simp [hs, Heap.name, hn]
      rw [hname]
      apply ho.jump (by simp [hpc]) (by simp [hpc, Pc.begins]) rfl rfl (by simp)
      · intro child comm hmem
        cases List.mem_singleton.mp hmem
        exact ⟨args, failed, hs, rfl⟩
      · intro arg' i' hpc'
        obtain ⟨rfl, rfl⟩ : arg = arg' ∧ i = i' := by simpa using hpc'
        exact ⟨args, failed, hs.mono (List.subset_append_left ..), ⟨hfor.startRoutine, hfor.arg⟩, by simp⟩
  | @freeName arg i hpc hi =>
      apply ho.jump (by simp [hpc]) (by simp [hpc, Pc.begins]) rfl rfl (by simp) (by simp)
      intro arg' i' hpc'
      obtain ⟨rfl, rfl⟩ : arg = arg' ∧ i = i' := by simpa using hpc'
      exact (ho.titled p arg i (.inl hpc)).mono
  | @freeInfo arg i hpc =>
      rw [hpc] at hag
      obtain ⟨args, failed, hs, -, hroutine, harg⟩ := hag
      exact ho.runs hpc (by simpa only [hroutine, harg] using hs.mem)
  | noDelete =>
      exact ho.keep rfl ho.idle (fun _ => rfl) rfl rfl (by simp) (by simp) fun q arg i hq => (ho.titled q arg i hq).mono
  | delete hb =>
      exact ho.keep rfl ho.idle (fun _ => rfl) rfl rfl (by simp) (by simp) fun q arg i hq => (ho.titled q arg i hq).mono

end Once

theorem mem_init (threads : Nat) : Mem [] (.init threads) where
  fresh _ hb := absurd rfl hb
  past := by simp
  owned := by
    constructor
    · intro b
      simp [Tasks.init, Tasks.owns, Pc.owns_user]
    · intro o o' b ho
      simp [Tasks.init, Tasks.owns, Pc.owns_user] at ho
  given := by simp [Tasks.init]
  gone := by simp
  lost := by simp
  agrees _ := trivial

theorem once_init (threads : Nat) : Once exe [] (.init threads) where
  idle _ _ := rfl
  below := by simp
  ids := by simp
  ran := by simp
  ran_spawned := by simp
  done := by simp
  waits := by simp
  titles := by simp
  titled := by simp [Tasks.init]
  named := by simp
  faultless := by simp

theorem steps_inv {threads : Nat} (hsteps : Steps (tasks exe threads) Tasks.Disciplined (tasks exe threads).init tr P) :
    Mem tr P ∧ Once exe tr P := by
  apply hsteps.trace_invariant (I := fun tr P => Mem tr P ∧ Once exe tr P)
  · exact ⟨mem_init threads, once_init threads⟩
  · rintro tr P a P' ev ⟨hm, ho⟩ hd hstep
    obtain ⟨p, hmove⟩ := step_cases hm hd hstep
    exact ⟨hm.move ho.idle hmove, ho.move hm hmove⟩

/-- Whatever the threads that create tasks and the new ones do, and whichever calls fail: no block is used
that is not allocated, and a thread runs the routine it was started for, once, after it got the name it was
given, or the default one if the name could not be copied.
When none of them is on the way, every thread that was started has run its routine, and the blocks are the
handles that were not deleted, those of the calls that failed, and the attributes of the threads started. -/
theorem tasks_run_once {threads : Nat}
    (hsteps : Steps (tasks exe threads) Tasks.Disciplined (tasks exe threads).init tr P) :
    (∀ p, Event.fault p ∉ tr) ∧ ((tr.filterMap Event.spawned).map Prod.fst).Nodup ∧
    List.Subperm (tr.filterMap Event.ran) (tr.filterMap Event.spawned) ∧
    (∀ child comm, Event.titled child comm ∈ tr → ∃ args failed, Spawned tr child args failed ∧
      comm = osSetprocparam exe (args.given failed)) ∧
    (∀ child r a, Event.runs child r a ∈ tr → Named exe tr child r a) ∧
    (P.Quiet → (tr.filterMap Event.ran).Perm (tr.filterMap Event.spawned) ∧ ∀ b, P.heap b ≠ none ↔ Left tr b) := by
  obtain ⟨hm, ho⟩ := steps_inv hsteps
  have hsub : List.Subperm (tr.filterMap Event.ran) (tr.filterMap Event.spawned) :=
    List.subperm_of_subset ho.ran ho.ran_spawned
  refine ⟨ho.faultless, ho.ids, hsub, ho.titles, ho.named, ?_⟩
  intro hquiet
  constructor
  · apply hsub.antisymm
    apply List.subperm_of_subset (List.Nodup.of_map _ ho.ids)
    intro x hx
    by_contra hnot
    have hwaits := ho.waits x hx hnot
    rw [hquiet] at hwaits
    cases hwaits
  · intro b
    constructor
    · intro hb
      by_contra hleft
      obtain ⟨⟨p, k⟩, hown⟩ := (hm.owned.used_iff b).mp ⟨hb, hleft⟩
      rw [Tasks.owns, hquiet, Pc.owns_user] at hown
      cases hown
    · exact hm.left_ne_none

theorem quiet_of_below (ho : Once exe tr P) (hbelow : ∀ p < P.threads, P.pc p = .user) : P.Quiet := by
  intro p
  by_cases hp : p < P.threads
  · exact hbelow p hp
  · exact ho.idle p (by omega)

end Once

/-- "rd0", with a routine 7 and its argument 40. -/
def reader : Args := ⟨some [0x72, 0x64, 0x30], 7, 40, 0, 10, false⟩

/-- The first thread starts one task and fails to start a second one while the new thread begins; then
it deletes the handle. -/
def startOne : List Action :=
  [.create 0 reader true, .attr 0 none, .go 0 true, .go 0 true, .go 0 true, .go 1 true,
    .create 0 reader true, .attr 0 none, .go 1 true, .go 0 true, .go 1 true, .go 0 true, .go 0 false,
    .go 0 true, .go 1 true, .go 0 true, .del 0 (some 0)]

theorem tasks_run_once_refused : ∃ tr P, Steps (tasks [] 1) Tasks.Disciplined (tasks [] 1).init tr P ∧ P.Quiet ∧
    tr.filterMap Event.spawned = [(1, 7, 40)] ∧ (tr.filterMap Event.ran).Perm [(1, 7, 40)] ∧
    List.Sublist [.titled 1 [0x72, 0x64, 0x30], .runs 1 7 40] tr ∧
    (∀ b, P.heap b ≠ none ↔ Left tr b) ∧ P.heap 1 ≠ none ∧ P.heap 4 ≠ none := by
  obtain ⟨P, tr, hsteps, htest⟩ := exists_steps_of_exec (m := tasks [] 1) (s := (tasks [] 1).init) startOne
    (p := fun r => r.2 = [.started 0 0 1 1 reader.attr reader false, .titled 1 [0x72, 0x64, 0x30], .runs 1 7 40,
        .failed 0 (some 4), .deleted 0 (some 0)] ∧
      (∀ q < r.1.threads, r.1.pc q = .user) ∧ r.1.heap 1 ≠ none ∧ r.1.heap 4 ≠ none)
    (show ((tasks [] 1).exec Tasks.Disciplined _ _).any _ = true by decide +kernel)
  obtain ⟨htr, hbelow, hattr, hlost⟩ := of_decide_eq_true htest
  dsimp only at htr
  have hquiet : P.Quiet := quiet_of_below (steps_inv hsteps).2 hbelow
  obtain ⟨-, -, -, -, hnamed, hend⟩ := tasks_run_once hsteps
  have hspawned : tr.filterMap Event.spawned = [(1, 7, 40)] := by rw [htr]; rfl
  obtain ⟨args, failed, ⟨p, task, attr, a, hmem⟩, -, hsub⟩ := hnamed 1 7 40 (by simp [htr])
  obtain ⟨-, -, -, -, rfl, rfl⟩ :
      p = 0 ∧ task = 0 ∧ attr = 1 ∧ a = reader.attr ∧ args = reader ∧ failed = false := by
    simpa [htr] using hmem
  obtain ⟨hperm, hheap⟩ := hend hquiet
  exact ⟨tr, P, hsteps, hquiet, hspawned, hspawned ▸ hperm, hsub, hheap, hattr, hlost⟩

end Pc02.Thread

import Pc02.Lib.Links

/-!
# Circular lists

Circular doubly linked lists with a sentinel, over links that are shared by all of them. A node is on a
ring only through the links of its neighbours, so each operation is stated with the nodes it touches,
and a family of rings that have no node in common is changed in one or two of its members.
-/

namespace Pc02.Lib

/-- The two fields of `struct list_links`, for every node there is; `none` is the null pointer. -/
@[ext]
structure Links (A : Type*) where
  next : A → Option A
  prev : A → Option A

variable {A : Type*} {h h' : Links A} {l a b p n : A} {xs ys us vs zs : List A}

namespace Links

variable [DecidableEq A]

def setNext (h : Links A) (a : A) (v : Option A) : Links A := { h with next := Function.update h.next a v }

def setPrev (h : Links A) (a : A) (v : Option A) : Links A := { h with prev := Function.update h.prev a v }

def listInit (h : Links A) (list : A) : Links A := (h.setPrev list (some list)).setNext list (some list)

def listAppend (h : Links A) (list newp : A) : Option (Links A) :=
  let h := h.setPrev newp (h.prev list)
  let h := h.setNext newp (some list)
  (h.prev list).map fun last => (h.setNext last (some newp)).setPrev list (some newp)

def listInsbefore (h : Links A) (list newp : A) : Option (Links A) := h.listAppend list newp

def listAppendAll (h : Links A) (list : A) (newps : List A) : Option (Links A) :=
  newps.foldlM (fun (h : Links A) newp => h.listAppend list newp) h

/-- The links of the node itself stay as they are, pointing into the list. -/
def listUnlink (h : Links A) (list : A) : Option (Links A) :=
  (h.next list).bind fun lnext => (h.prev list).map fun lprev =>
    (h.setPrev lnext (some lprev)).setNext lprev (some lnext)

def listUnlinkIp (h : Links A) (list : A) : Option (Links A) :=
  (h.listUnlink list).map fun h => (h.setNext list (some list)).setPrev list (some list)

def listFirst (h : Links A) (list : A) : Option A := h.next list

def listNext (h : Links A) (list : A) : Option A := h.next list

def listIsempty (h : Links A) (list : A) : Bool := h.next list = some list

@[simp]
theorem setNext_next (h : Links A) (v : Option A) : (h.setNext a v).next = Function.update h.next a v := rfl

@[simp]
theorem setNext_prev (h : Links A) (v : Option A) : (h.setNext a v).prev = h.prev := rfl

@[simp]
theorem setPrev_next (h : Links A) (v : Option A) : (h.setPrev a v).next = h.next := rfl

@[simp]
theorem setPrev_prev (h : Links A) (v : Option A) : (h.setPrev a v).prev = Function.update h.prev a v := rfl

end Links

def Links.SelfLinked (h : Links A) (a : A) : Prop := h.next a = some a ∧ h.prev a = some a

instance [DecidableEq A] (h : Links A) (a : A) : Decidable (h.SelfLinked a) :=
  inferInstanceAs (Decidable (h.next a = some a ∧ h.prev a = some a))

def AgreesOutside (zs : List A) (h' h : Links A) : Prop := ∀ b, b ∉ zs → h'.next b = h.next b ∧ h'.prev b = h.prev b

theorem AgreesOutside.mono (hagree : AgreesOutside us h' h) (hsub : us ⊆ vs) : AgreesOutside vs h' h :=
  fun b hb => hagree b fun hmem => hb (hsub hmem)

/-- From `l` the nodes `xs` are linked in this order and back to `l`, in both directions. -/
structure Ring (h : Links A) (l : A) (xs : List A) : Prop where
  forward : Path h.next (l :: (xs ++ [l]))
  backward : Path h.prev (l :: (xs ++ [l])).reverse
  distinct : (l :: xs).Nodup

theorem ring_nil_iff : Ring h l [] ↔ h.SelfLinked l := by
  constructor
  · intro hring
    exact ⟨(path_cons_cons.mp hring.forward).1, (path_cons_cons.mp hring.backward).1⟩
  · rintro ⟨hnext, hprev⟩
    exact ⟨path_cons_cons.mpr ⟨hnext, path_singleton⟩, path_cons_cons.mpr ⟨hprev, path_singleton⟩,
      List.nodup_singleton l⟩

namespace Ring

theorem of_agrees (hring : Ring h l xs) (hagree : AgreesOutside zs h' h) (hout : ∀ b ∈ l :: xs, b ∉ zs) :
    Ring h' l xs where
  forward := by
    apply hring.forward.congr
    intro b hb
    rw [← List.cons_append, List.dropLast_concat] at hb
    exact (hagree b (hout b hb)).1
  backward := by
    apply hring.backward.congr
    intro b hb
    have hmem : b = l ∨ b ∈ xs ∨ b = l := by simpa using List.dropLast_subset _ hb
    have hnode : b ∈ l :: xs := by
      rw [List.mem_cons]
      exact hmem.elim Or.inl Or.symm
    exact (hagree b (hout b hnode)).2
  distinct := hring.distinct

end Ring

theorem reverse_cons_cons : (us ++ p :: n :: vs).reverse = vs.reverse ++ n :: p :: us.reverse := by simp

theorem reverse_cons_cons_cons : (us ++ p :: a :: n :: vs).reverse = vs.reverse ++ n :: a :: p :: us.reverse := by
  simp

theorem subset_middle : l :: (xs ++ ys) ⊆ l :: (xs ++ a :: ys) :=
  (((List.sublist_cons_self a ys).append_left xs).cons_cons l).subset

theorem nodup_middle (hnodup : (l :: (xs ++ a :: ys)).Nodup) : a ∉ l :: (xs ++ ys) ∧ (l :: (xs ++ ys)).Nodup := by
  rw [← List.cons_append, List.nodup_middle] at hnodup
  exact List.nodup_cons.mp hnodup

section

variable [DecidableEq A]

theorem filter_ne_of_notMem (ha : a ∉ xs) : xs.filter (· ≠ a) = xs := by
  rw [List.filter_eq_self]
  intro b hb
  rw [decide_eq_true_eq]
  rintro rfl
  exact ha hb

theorem filter_ne_middle (ha : a ∉ xs ++ ys) : (xs ++ a :: ys).filter (· ≠ a) = xs ++ ys := by
  rw [List.mem_append, not_or] at ha
  rw [List.filter_append, List.filter_cons_of_neg (by simp), filter_ne_of_notMem ha.1, filter_ne_of_notMem ha.2]

end

/-- The place between `xs` and `ys` on a ring: `p` is the node before it and `n` the one behind it. -/
structure Gap (l : A) (xs ys us : List A) (p n : A) (vs : List A) : Prop where
  before : l :: xs = us ++ [p]
  after : ys ++ [l] = n :: vs

theorem Gap.eq_last (g : Gap l xs ys us p n vs) (zs : List A) (hlast : l :: xs = zs ++ [a]) : p = a := by
  have heq := g.before.symm.trans hlast
  simpa using (List.append_inj' heq rfl).2

theorem exists_gap (l : A) (xs ys : List A) : ∃ us p vs, Gap l xs ys us p (ys.headD l) vs := by
  obtain ⟨us, p, hbefore⟩ := List.eq_nil_or_concat (l :: xs) |>.resolve_left (List.cons_ne_nil _ _)
  cases ys with
  | nil => exact ⟨us, p, [], ⟨by simpa using hbefore, rfl⟩⟩
  | cons n ys => exact ⟨us, p, ys ++ [l], ⟨by simpa using hbefore, rfl⟩⟩

theorem exists_gap_after (ha : a ∈ l :: xs) : ∃ before after us n vs, xs = before ++ after ∧
    Gap l before after us a n vs := by
  rcases List.mem_cons.mp ha with rfl | ha
  · obtain ⟨us, p, vs, g⟩ := exists_gap a [] xs
    obtain rfl : p = a := g.eq_last [] rfl
    exact ⟨[], xs, us, _, vs, rfl, g⟩
  · obtain ⟨before, after, rfl⟩ := List.append_of_mem ha
    obtain ⟨us, p, vs, g⟩ := exists_gap l (before ++ [a]) after
    obtain rfl : p = a := g.eq_last (l :: before) rfl
    exact ⟨before ++ [p], after, us, _, vs, by simp, g⟩

theorem exists_gap_before (hb : b ∈ l :: xs) : ∃ before after us p vs, xs = before ++ after ∧
    Gap l before after us p b vs := by
  rcases List.mem_cons.mp hb with rfl | hb
  · obtain ⟨us, p, vs, g⟩ := exists_gap b xs []
    exact ⟨xs, [], us, p, vs, by simp, g⟩
  · obtain ⟨before, after, rfl⟩ := List.append_of_mem hb
    obtain ⟨us, p, vs, g⟩ := exists_gap l before (b :: after)
    exact ⟨before, b :: after, us, p, vs, rfl, g⟩

namespace Gap

theorem forward_eq (g : Gap l xs ys us p n vs) : l :: (xs ++ ys ++ [l]) = us ++ p :: n :: vs := by
  rw [List.append_assoc, g.after, ← List.cons_append, g.before, List.append_assoc]
  rfl

theorem forward_cons_eq (g : Gap l xs ys us p n vs) :
    l :: (xs ++ a :: ys ++ [l]) = us ++ p :: a :: n :: vs := by
  rw [List.append_assoc, List.cons_append, g.after, ← List.cons_append, g.before, List.append_assoc]
  rfl

theorem mem_nodes (g : Gap l xs ys us p n vs) (hb : b ∈ us ∨ b = p ∨ b = n ∨ b ∈ vs) : b ∈ l :: (xs ++ ys) := by
  have hmem : b ∈ l :: (xs ++ ys ++ [l]) := by
    rw [g.forward_eq]
    simpa using hb
  rw [← List.cons_append, List.mem_append, List.mem_singleton] at hmem
  rcases hmem with hmem | rfl
  · exact hmem
  · exact List.mem_cons_self

theorem dropLast_after (g : Gap l xs ys us p n vs) : (n :: vs).dropLast = ys := by
  rw [← g.after, List.dropLast_concat]

theorem dropLast_before (g : Gap l xs ys us p n vs) : (p :: us.reverse).dropLast = xs.reverse := by
  have hreverse : p :: us.reverse = xs.reverse ++ [l] := by
    rw [← List.reverse_cons, g.before, List.reverse_append]
    rfl
  rw [hreverse, List.dropLast_concat]

theorem p_notMem (g : Gap l xs ys us p n vs) (hnodup : (l :: (xs ++ ys)).Nodup) :
    p ∉ us ∧ p ∉ (n :: vs).dropLast := by
  rw [← List.cons_append, g.before, List.append_assoc, List.nodup_append] at hnodup
  rw [g.dropLast_after]
  refine ⟨fun hmem => hnodup.2.2 p hmem p (by simp) rfl, ?_⟩
  exact (List.nodup_cons.mp hnodup.2.1).1

theorem n_notMem (g : Gap l xs ys us p n vs) (hnodup : (l :: (xs ++ ys)).Nodup) :
    n ∉ vs.reverse ∧ n ∉ (p :: us.reverse).dropLast := by
  have hswap : (xs ++ n :: vs).Nodup := by
    rw [← g.after, ← List.append_assoc]
    exact (List.perm_append_singleton l (xs ++ ys)).nodup_iff.mpr hnodup
  rw [List.nodup_append] at hswap
  rw [g.dropLast_before, List.mem_reverse, List.mem_reverse]
  refine ⟨(List.nodup_cons.mp hswap.2.1).1, ?_⟩
  intro hmem
  exact hswap.2.2 n hmem n List.mem_cons_self rfl

end Gap

namespace Ring

theorem next_gap (hring : Ring h l (xs ++ ys)) (g : Gap l xs ys us p n vs) : h.next p = some n := by
  have hpath := hring.forward
  rw [g.forward_eq] at hpath
  exact (path_cons_cons.mp (path_append_cons.mp hpath).2).1

theorem prev_gap (hring : Ring h l (xs ++ ys)) (g : Gap l xs ys us p n vs) : h.prev n = some p := by
  have hpath := hring.backward
  rw [g.forward_eq, reverse_cons_cons] at hpath
  exact (path_cons_cons.mp (path_append_cons.mp hpath).2).1

theorem next_gap_cons (hring : Ring h l (xs ++ a :: ys)) (g : Gap l xs ys us p n vs) : h.next a = some n := by
  have hpath := hring.forward
  rw [g.forward_cons_eq] at hpath
  exact (path_cons_cons.mp (path_append_cons.mp hpath).2.tail).1

theorem prev_gap_cons (hring : Ring h l (xs ++ a :: ys)) (g : Gap l xs ys us p n vs) : h.prev a = some p := by
  have hpath := hring.backward
  rw [g.forward_cons_eq, reverse_cons_cons_cons] at hpath
  exact (path_cons_cons.mp (path_append_cons.mp hpath).2.tail).1

theorem first (hring : Ring h l xs) : h.next l = some (xs.headD l) := by
  obtain ⟨us, p, vs, g⟩ := exists_gap l [] xs
  obtain rfl : p = l := g.eq_last [] rfl
  exact hring.next_gap g

theorem not_selfLinked (hring : Ring h l xs) (ha : a ∈ xs) : ¬ h.SelfLinked a := by
  rintro ⟨hnext, -⟩
  obtain ⟨before, after, rfl⟩ := List.append_of_mem ha
  obtain ⟨us, p, vs, g⟩ := exists_gap l before after
  rw [hring.next_gap_cons g] at hnext
  apply (nodup_middle hring.distinct).1
  exact g.mem_nodes (.inr (.inr (.inl (Option.some.inj hnext).symm)))

section

variable [DecidableEq A]

/-- `list_insbefore` puts a node in between; before the sentinel it goes to the end. -/
theorem insbefore (hring : Ring h l (xs ++ ys)) (ha : a ∉ l :: (xs ++ ys)) :
    ∃ h', h.listInsbefore (ys.headD l) a = some h' ∧ Ring h' l (xs ++ a :: ys) ∧
      AgreesOutside (a :: l :: (xs ++ ys)) h' h := by
  obtain ⟨us, p, vs, g⟩ := exists_gap l xs ys
  generalize ys.headD l = n at g
  obtain ⟨hpus, hpys⟩ := g.p_notMem hring.distinct
  obtain ⟨hnvs, hnxs⟩ := g.n_notMem hring.distinct
  have hne : ∀ b, b ∈ us ∨ b = p ∨ b = n ∨ b ∈ vs → a ≠ b := by
    rintro b hb rfl
    exact ha (g.mem_nodes hb)
  have hprev : h.prev n = some p := hring.prev_gap g
  have hn : n ≠ a := (hne n (by simp)).symm
  refine ⟨(((h.setPrev a (some p)).setNext a (some n)).setNext p (some a)).setPrev n (some a), ?_, ⟨?_, ?_, ?_⟩, ?_⟩
  · simp [Links.listInsbefore, Links.listAppend, hn, hprev]
  · rw [g.forward_cons_eq]
    have hpath := hring.forward
    rw [g.forward_eq] at hpath
    refine hpath.insert hpus hpys (hne p (by simp)) ?_ ?_
    · exact fun hmem => hne a (.inl hmem) rfl
    · intro hmem
      rw [g.dropLast_after] at hmem
      exact ha (by simp [hmem])
  · rw [g.forward_cons_eq, reverse_cons_cons_cons]
    have hpath := hring.backward
    rw [g.forward_eq, reverse_cons_cons] at hpath
    refine hpath.insert hnvs hnxs hn.symm ?_ ?_
    · intro hmem
      exact hne a (.inr (.inr (.inr (List.mem_reverse.mp hmem)))) rfl
    · intro hmem
      rw [g.dropLast_before, List.mem_reverse] at hmem
      exact ha (by simp [hmem])
  · rw [← List.cons_append]
    exact List.nodup_middle.mpr (List.nodup_cons.mpr ⟨ha, hring.distinct⟩)
  · intro b hb
    rw [List.mem_cons, not_or] at hb
    have hbp : b ≠ p := by
      rintro rfl
      exact hb.2 (g.mem_nodes (by simp))
    have hbn : b ≠ n := by
      rintro rfl
      exact hb.2 (g.mem_nodes (by simp))
    simp [hb.1, hbp, hbn]

/-- `list_unlink` takes a node out and leaves its links dangling. -/
theorem unlink (hring : Ring h l (xs ++ a :: ys)) :
    ∃ h', h.listUnlink a = some h' ∧ Ring h' l (xs ++ ys) ∧ AgreesOutside (l :: (xs ++ ys)) h' h := by
  obtain ⟨us, p, vs, g⟩ := exists_gap l xs ys
  generalize ys.headD l = n at g
  have hdistinct : (l :: (xs ++ ys)).Nodup := (nodup_middle hring.distinct).2
  obtain ⟨hpus, hpys⟩ := g.p_notMem hdistinct
  obtain ⟨hnvs, hnxs⟩ := g.n_notMem hdistinct
  refine ⟨(h.setPrev n (some p)).setNext p (some n), ?_, ⟨?_, ?_, hdistinct⟩, ?_⟩
  · simp [Links.listUnlink, hring.next_gap_cons g, hring.prev_gap_cons g]
  · rw [g.forward_eq]
    have hpath := hring.forward
    rw [g.forward_cons_eq] at hpath
    exact hpath.remove hpus hpys
  · rw [g.forward_eq, reverse_cons_cons]
    have hpath := hring.backward
    rw [g.forward_cons_eq, reverse_cons_cons_cons] at hpath
    exact hpath.remove hnvs hnxs
  · intro b hb
    have hbp : b ≠ p := by
      rintro rfl
      exact hb (g.mem_nodes (by simp))
    have hbn : b ≠ n := by
      rintro rfl
      exact hb (g.mem_nodes (by simp))
    simp [hbp, hbn]

theorem init (h : Links A) (l : A) : Ring (h.listInit l) l [] := by
  rw [ring_nil_iff]
  simp [Links.SelfLinked, Links.listInit]

/-- `list_unlink_ip` takes a node out and makes a ring of it. -/
theorem unlinkIp (hring : Ring h l (xs ++ a :: ys)) :
    ∃ h', h.listUnlinkIp a = some h' ∧ Ring h' l (xs ++ ys) ∧ Ring h' a [] ∧
      AgreesOutside (a :: l :: (xs ++ ys)) h' h := by
  obtain ⟨h₁, hunlink, hring₁, hagree₁⟩ := hring.unlink
  have ha : a ∉ l :: (xs ++ ys) := (nodup_middle hring.distinct).1
  have hagree : AgreesOutside [a] ((h₁.setNext a (some a)).setPrev a (some a)) h₁ := by
    intro b hb
    simp [List.ne_of_not_mem_cons hb]
  refine ⟨(h₁.setNext a (some a)).setPrev a (some a), by simp [Links.listUnlinkIp, hunlink], ?_, ?_, ?_⟩
  · apply hring₁.of_agrees hagree
    rintro b hb hba
    exact ha (List.mem_singleton.mp hba ▸ hb)
  · rw [ring_nil_iff]
    simp [Links.SelfLinked]
  · intro b hb
    rw [List.mem_cons, not_or] at hb
    obtain ⟨hnext, hprev⟩ := hagree b (by simpa using hb.1)
    exact ⟨hnext.trans (hagree₁ b hb.2).1, hprev.trans (hagree₁ b hb.2).2⟩

theorem unlinkIp_selfLinked (hself : h.SelfLinked a) : h.listUnlinkIp a = some h := by
  obtain ⟨hnext, hprev⟩ := hself
  rw [Links.listUnlinkIp, Links.listUnlink, hnext, hprev]
  apply congrArg some
  ext b : 2
  · simp [← hnext]
  · simp [← hprev]

end

theorem next_iff_prev (hring : Ring h l xs) (ha : a ∈ l :: xs) (hb : b ∈ l :: xs) :
    h.next a = some b ↔ h.prev b = some a := by
  constructor
  · intro hnext
    obtain ⟨before, after, us, n, vs, rfl, g⟩ := exists_gap_after ha
    obtain rfl : n = b := Option.some.inj ((hring.next_gap g).symm.trans hnext)
    exact hring.prev_gap g
  · intro hprev
    obtain ⟨before, after, us, p, vs, rfl, g⟩ := exists_gap_before hb
    obtain rfl : p = a := Option.some.inj ((hring.prev_gap g).symm.trans hprev)
    exact hring.next_gap g

end Ring

abbrev Family (A : Type*) := A → List A → Prop

namespace Family

def put (L : Family A) (l : A) (xs : List A) : Family A := fun l' xs' => l' = l ∧ xs' = xs ∨ l' ≠ l ∧ L l' xs'

def drop (L : Family A) (a : A) : Family A := fun l' xs' => l' ≠ a ∧ L l' xs'

def Off (L : Family A) (a : A) : Prop := ∀ l xs, L l xs → a ∈ l :: xs → l = a

def Free (L : Family A) (a : A) : Prop := ∀ l xs, L l xs → a ∉ l :: xs

variable {L : Family A}

theorem Free.off (ha : L.Free a) : L.Off a := fun l xs hl hmem => absurd hmem (ha l xs hl)

theorem Free.put (ha : L.Free a) (hout : a ∉ l :: xs) : (L.put l xs).Free a := by
  rintro l' xs' (⟨rfl, rfl⟩ | ⟨-, hl'⟩)
  · exact hout
  · exact ha l' xs' hl'

theorem Off.put (ha : L.Off a) (hout : a ∉ l :: xs) : (L.put l xs).Off a := by
  rintro l' xs' (⟨rfl, rfl⟩ | ⟨-, hl'⟩) hmem
  · exact absurd hmem hout
  · exact ha l' xs' hl' hmem

end Family

/-- Each sequence is linked as a ring, and a node is on one ring at most. -/
structure Rings (h : Links A) (L : Family A) : Prop where
  ring : ∀ l xs, L l xs → Ring h l xs
  apart : ∀ l xs l' xs' b, L l xs → L l' xs' → b ∈ l :: xs → b ∈ l' :: xs' → l = l' ∧ xs = xs'

namespace Rings

variable {L L' : Family A}

theorem mono (hrings : Rings h L) (hsub : ∀ l xs, L' l xs → L l xs) : Rings h L' where
  ring l xs hl := hrings.ring l xs (hsub l xs hl)
  apart l xs l' xs' b hl hl' := hrings.apart l xs l' xs' b (hsub l xs hl) (hsub l' xs' hl')

theorem drop (hrings : Rings h L) (a : A) : Rings h (L.drop a) := hrings.mono fun _ _ hl => hl.2

/-- A ring is put into a family that has none of its nodes, except on the ring it replaces. -/
theorem put (hrings : Rings h L) (hring : Ring h' l xs)
    (hsame : ∀ l' xs', L l' xs' → l' ≠ l → Ring h' l' xs' ∧ ∀ b ∈ l :: xs, b ∉ l' :: xs') :
    Rings h' (L.put l xs) where
  ring := by
    rintro l' xs' (⟨rfl, rfl⟩ | ⟨hne, hl'⟩)
    · exact hring
    · exact (hsame l' xs' hl' hne).1
  apart := by
    rintro l₁ xs₁ l₂ xs₂ b (⟨rfl, rfl⟩ | ⟨hne₁, hl₁⟩) (⟨rfl, rfl⟩ | ⟨hne₂, hl₂⟩) hb₁ hb₂
    · exact ⟨rfl, rfl⟩
    · exact absurd hb₂ ((hsame l₂ xs₂ hl₂ hne₂).2 b hb₁)
    · exact absurd hb₁ ((hsame l₁ xs₁ hl₁ hne₁).2 b hb₂)
    · exact hrings.apart l₁ xs₁ l₂ xs₂ b hl₁ hl₂ hb₁ hb₂

theorem off (hrings : Rings h L) (ha : L a []) : L.Off a := by
  intro l xs hl hmem
  exact (hrings.apart l xs a [] a hl ha hmem List.mem_cons_self).1

theorem away (hrings : Rings h L) (hl : L l zs) {l' : A} {xs' : List A} (hl' : L l' xs') (hne : l' ≠ l) :
    ∀ b ∈ l' :: xs', b ∉ l :: zs :=
  fun b hb hmem => hne (hrings.apart l' xs' l zs b hl' hl hb hmem).1

theorem free_put (hrings : Rings h L) (hl : L l (xs ++ a :: ys)) : (L.put l (xs ++ ys)).Free a := by
  rintro l' xs' (⟨rfl, rfl⟩ | ⟨hne, hl'⟩) hmem
  · exact (nodup_middle (hrings.ring l' _ hl).distinct).1 hmem
  · exact hrings.away hl hl' hne a hmem (by simp)

theorem put_filter [DecidableEq A] (hrings : Rings h L) (hl : L l (xs ++ a :: ys)) {l' : A} {zs : List A}
    (hl' : L l' zs) : (L.put l (xs ++ ys)) l' (zs.filter (· ≠ a)) := by
  by_cases hne : l' = l
  · subst hne
    obtain ⟨-, rfl⟩ := hrings.apart l' zs l' _ l' hl' hl List.mem_cons_self List.mem_cons_self
    have hout := (nodup_middle (hrings.ring _ _ hl).distinct).1
    exact .inl ⟨rfl, filter_ne_middle fun hmem => hout (List.mem_cons_of_mem _ hmem)⟩
  · refine .inr ⟨hne, ?_⟩
    rwa [filter_ne_of_notMem]
    intro hmem
    exact hrings.away hl hl' hne a (List.mem_cons_of_mem _ hmem) (by simp)

theorem shrink (hrings : Rings h L) (hl : L l zs) (hagree : AgreesOutside (l :: zs) h' h) (hring : Ring h' l xs)
    (hsub : l :: xs ⊆ l :: zs) : Rings h' (L.put l xs) := by
  apply hrings.put hring
  intro l' xs' hl' hne
  have hout := hrings.away hl hl' hne
  exact ⟨(hrings.ring l' xs' hl').of_agrees hagree hout, fun b hb hb' => hout b hb' (hsub hb)⟩

theorem join (hrings : Rings h L) (hl : L l zs) (ha : L.Off a) (hagree : AgreesOutside (a :: l :: zs) h' h)
    (hring : Ring h' l xs) (hsub : l :: xs ⊆ a :: l :: zs) : Rings h' ((L.drop a).put l xs) := by
  apply (hrings.drop a).put hring
  rintro l' xs' ⟨hne, hl'⟩ hl'l
  have hout : ∀ b ∈ l' :: xs', b ∉ a :: l :: zs := by
    intro b hb hmem
    rcases List.mem_cons.mp hmem with rfl | hmem
    · exact hne (ha l' xs' hl' hb)
    · exact hrings.away hl hl' hl'l b hb hmem
  exact ⟨(hrings.ring l' xs' hl').of_agrees hagree hout, fun b hb hb' => hout b hb' (hsub hb)⟩

section

variable [DecidableEq A]

theorem init (hrings : Rings h L) (hl : L.Off l) : Rings (h.listInit l) (L.put l []) := by
  apply hrings.put (.init h l)
  intro l' xs' hl' hne
  have hout : l ∉ l' :: xs' := fun hmem => hne (hl l' xs' hl' hmem)
  have hagree : AgreesOutside [l] (h.listInit l) h := by
    intro b hb
    simp [Links.listInit, List.ne_of_not_mem_cons hb]
  refine ⟨(hrings.ring l' xs' hl').of_agrees hagree ?_, ?_⟩
  · rintro b hb hbl
    exact hout (List.mem_singleton.mp hbl ▸ hb)
  · rintro b hbl hb
    exact hout (List.mem_singleton.mp hbl ▸ hb)

theorem insbefore (hrings : Rings h L) (hl : L l (xs ++ ys)) (ha : L.Off a) (hal : a ≠ l) :
    ∃ h', h.listInsbefore (ys.headD l) a = some h' ∧ Rings h' ((L.drop a).put l (xs ++ a :: ys)) := by
  have hout : a ∉ l :: (xs ++ ys) := fun hmem => hal (ha l _ hl hmem).symm
  obtain ⟨h', hins, hring, hagree⟩ := (hrings.ring l _ hl).insbefore hout
  refine ⟨h', hins, hrings.join hl ha hagree hring ?_⟩
  intro b hb
  simp only [List.mem_cons, List.mem_append] at hb ⊢
  tauto

theorem append (hrings : Rings h L) (hl : L l xs) (ha : L.Off a) (hal : a ≠ l) :
    ∃ h', h.listAppend l a = some h' ∧ Rings h' ((L.drop a).put l (xs ++ [a])) := by
  rw [← List.append_nil xs] at hl
  exact hrings.insbefore hl ha hal

theorem appendAll {as : List A} (hrings : Rings h L) (xs : List A) (hl : L l xs) (has : as.Nodup)
    (hout : ∀ a ∈ as, L.Free a) :
    ∃ h', h.listAppendAll l as = some h' ∧ Rings h' (L.put l (xs ++ as)) := by
  induction as generalizing h xs L with
  | nil =>
      refine ⟨h, rfl, hrings.mono ?_⟩
      rintro l' xs' (⟨rfl, rfl⟩ | ⟨-, hl'⟩)
      · rwa [List.append_nil]
      · exact hl'
  | cons a as ih =>
      obtain ⟨haas, has⟩ := List.nodup_cons.mp has
      have ha := hout a List.mem_cons_self
      have hal : a ≠ l := List.ne_of_not_mem_cons (ha l xs hl)
      obtain ⟨h₁, happend, hrings₁⟩ := hrings.append hl ha.off hal
      have hput : Rings h₁ (L.put l (xs ++ [a])) := by
        apply hrings₁.mono
        rintro l' xs' (⟨rfl, rfl⟩ | ⟨hne, hl'⟩)
        · exact .inl ⟨rfl, rfl⟩
        · exact .inr ⟨hne, (List.ne_of_not_mem_cons (ha l' xs' hl')).symm, hl'⟩
      have hrest : ∀ a' ∈ as, (L.put l (xs ++ [a])).Free a' := by
        intro a' ha'
        have hold := hout a' (List.mem_cons_of_mem a ha')
        have hne : a' ≠ a := by
          rintro rfl
          exact haas ha'
        apply hold.put
        have hxs := hold l xs hl
        simpa [hne] using hxs
      obtain ⟨h', hfold, hrings'⟩ := ih hput _ (.inl ⟨rfl, rfl⟩) has hrest
      rw [Links.listAppendAll] at hfold
      refine ⟨h', by simp [Links.listAppendAll, happend, hfold], hrings'.mono ?_⟩
      rintro l' xs' (⟨rfl, rfl⟩ | ⟨hne, hl'⟩)
      · exact .inl ⟨rfl, by simp⟩
      · exact .inr ⟨hne, .inr ⟨hne, hl'⟩⟩

theorem unlink (hrings : Rings h L) (hl : L l (xs ++ a :: ys)) :
    ∃ h', h.listUnlink a = some h' ∧ Rings h' (L.put l (xs ++ ys)) := by
  obtain ⟨h', hunlink, hring, hagree⟩ := (hrings.ring l _ hl).unlink
  have hsub : l :: (xs ++ ys) ⊆ l :: (xs ++ a :: ys) := subset_middle
  exact ⟨h', hunlink, hrings.shrink hl (hagree.mono hsub) hring hsub⟩

theorem unlinkIp (hrings : Rings h L) (hl : L l (xs ++ a :: ys)) :
    ∃ h', h.listUnlinkIp a = some h' ∧ Rings h' ((L.put l (xs ++ ys)).put a []) := by
  obtain ⟨h', hunlink, hring, hself, hagree⟩ := (hrings.ring l _ hl).unlinkIp
  have hsub : l :: (xs ++ ys) ⊆ l :: (xs ++ a :: ys) := subset_middle
  have ha : a ∈ l :: (xs ++ a :: ys) := by simp
  have hrest : Rings h' (L.put l (xs ++ ys)) :=
    hrings.shrink hl (hagree.mono (List.cons_subset.mpr ⟨ha, hsub⟩)) hring hsub
  refine ⟨h', hunlink, hrest.put hself ?_⟩
  intro l' xs' hl' hne
  refine ⟨hrest.ring l' xs' hl', ?_⟩
  rintro b hb hmem
  obtain rfl : b = a := List.mem_singleton.mp hb
  exact hrings.free_put hl l' xs' hl' hmem

end

end Rings

end Pc02.Lib

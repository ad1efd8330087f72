import Ustack.Buckets

/-!
# Rings of pointers

Nodes with a pointer to the next node and one to the node before, as a list threaded
through its elements has them. `Link` is two nodes that point at each other, a `Path` is a
list of nodes each linked to the one after it, and a `Ring` is a path that leaves a head and
comes back to it.

Every operation on such lists is made of one: to link one node to another (`join`), which
overwrites the pointer forward of the first and the pointer back of the second. A path whose
nodes before the last are not the first, and whose nodes after the first are not the second,
does not notice (`Path.join_of_notMem`), and two paths are joined to one (`Path.join`).
Taking a node out of a ring, putting one in and splicing two rings are cases of these.
-/

variable {α : Type*}

/-- **The pointers** of every node. -/
structure Pointers (α : Type*) where
  /-- The pointer forward. -/
  next : α → α
  /-- The pointer back. -/
  prev : α → α

namespace Pointers

/-- The nodes point at each other. -/
def Link (p : Pointers α) (a b : α) : Prop := p.next a = b ∧ p.prev b = a

/-- Each node is linked to the one after it. -/
def Path (p : Pointers α) (l : List α) : Prop := l.IsChain p.Link

/-- **The ring at a head**, through a list of nodes. -/
def Ring (p : Pointers α) (head : α) (xs : List α) : Prop := p.Path (head :: (xs ++ [head]))

/-- The pointers read the other way. -/
def swap (p : Pointers α) : Pointers α := ⟨p.prev, p.next⟩

/-- A list that meets no node twice, but may end where it began. -/
structure Simple (l : List α) : Prop where
  /-- No node is left twice. -/
  left : l.dropLast.Nodup
  /-- No node is entered twice. -/
  entered : l.tail.Nodup

section Paths

variable {p q : Pointers α} {a b c d head : α} {l l₁ l₂ xs : List α}

theorem simple_of_nodup (h : l.Nodup) : Simple l :=
  ⟨h.sublist l.dropLast_sublist, h.sublist l.tail_sublist⟩

/-- A ring that meets no node twice. -/
theorem simple_ring (h : (head :: xs).Nodup) : Simple (head :: (xs ++ [head])) := by
  refine ⟨?_, ?_⟩
  · rwa [← List.cons_append, List.dropLast_concat]
  · show (xs ++ [head]).Nodup
    exact (List.perm_append_singleton head xs).nodup_iff.mpr h

/-- A path of pointers that read the same. -/
theorem Path.congr (h : p.Path l) (hnext : ∀ x ∈ l, q.next x = p.next x)
    (hprev : ∀ x ∈ l, q.prev x = p.prev x) : q.Path l := by
  induction l with
  | nil => exact .nil
  | cons x l ih =>
    cases l with
    | nil => exact .singleton x
    | cons y l =>
      obtain ⟨hlink, hrest⟩ := List.isChain_cons_cons.mp h
      refine List.isChain_cons_cons.mpr ⟨⟨?_, ?_⟩, ih hrest (fun z hz => ?_) (fun z hz => ?_)⟩
      · exact (hnext x List.mem_cons_self).trans hlink.1
      · exact (hprev y (List.mem_cons_of_mem x List.mem_cons_self)).trans hlink.2
      · exact hnext z (List.mem_cons_of_mem x hz)
      · exact hprev z (List.mem_cons_of_mem x hz)

/-- The first part of a path. -/
theorem Path.left (h : p.Path (l₁ ++ l₂)) : p.Path l₁ := (List.isChain_append.mp h).1

/-- The rest of a path. -/
theorem Path.right (h : p.Path (l₁ ++ l₂)) : p.Path l₂ := (List.isChain_append.mp h).2.1

/-- A path without its first node. -/
theorem Path.tail (h : p.Path (a :: l)) : p.Path l := Path.right (show p.Path ([a] ++ l) from h)

/-- The start of a path is left for the next node. -/
theorem Path.start_eq (h : p.Path (a :: b :: l)) : p.next a = b :=
  (List.isChain_cons_cons.mp h).1.1

/-- A path through a node leaves it for the next one. -/
theorem Path.next_eq (h : p.Path (l₁ ++ a :: b :: l₂)) : p.next a = b := h.right.start_eq

/-- A path through a node enters it from the one before. -/
theorem Path.prev_eq (h : p.Path (l₁ ++ a :: b :: l₂)) : p.prev b = a :=
  (List.isChain_cons_cons.mp h.right).1.2

/-- A path read the other way. -/
theorem Path.swap (h : p.Path l) : p.swap.Path l.reverse := by
  refine List.isChain_reverse.mpr (h.imp fun x y hlink => ?_)
  exact ⟨hlink.2, hlink.1⟩

theorem Ring.swap (h : p.Ring head xs) : p.swap.Ring head xs.reverse := by
  have hrev : (head :: (xs ++ [head])).reverse = head :: (xs.reverse ++ [head]) := by
    rw [List.reverse_cons, List.reverse_append, List.reverse_singleton]
    rfl
  have hswap := Path.swap h
  rwa [hrev] at hswap

/-- The first node of a ring, or its head. -/
theorem Ring.next_eq (h : p.Ring head xs) : p.next head = xs.headD head := by
  cases xs with
  | nil => exact Path.start_eq h
  | cons x xs => exact Path.start_eq h

/-- The last node of a ring, or its head. -/
theorem Ring.prev_eq (h : p.Ring head xs) : p.prev head = xs.getLastD head := by
  have hfirst : p.swap.next head = xs.reverse.headD head := h.swap.next_eq
  rw [List.headD_eq_head?_getD, List.head?_reverse] at hfirst
  rw [List.getLastD_eq_getLast?]
  exact hfirst

/-- The node after one of a ring, or the head. -/
theorem Ring.next_eq_of_append (h : p.Ring head (l₁ ++ a :: l₂)) : p.next a = l₂.headD head := by
  have hall : p.Path ((head :: l₁) ++ a :: (l₂ ++ [head])) := by
    have hall : p.Path (head :: ((l₁ ++ a :: l₂) ++ [head])) := h
    rwa [List.append_assoc] at hall
  cases l₂ with
  | nil => exact hall.next_eq
  | cons b l₂ => exact hall.next_eq

/-- The neighbours of a node are in its ring. -/
theorem Ring.neighbours (h : p.Ring head xs) (ha : a ∈ xs) :
    p.prev a ∈ head :: xs ∧ p.next a ∈ head :: xs := by
  obtain ⟨l₁, l₂, rfl⟩ := List.append_of_mem ha
  obtain ⟨pre, c, hpre⟩ : ∃ pre c, head :: l₁ = pre ++ [c] :=
    ⟨_, _, (List.dropLast_append_getLast (List.cons_ne_nil head l₁)).symm⟩
  have hprev : p.prev a = c := by
    have hall : p.Path ((head :: l₁) ++ a :: (l₂ ++ [head])) := by
      have hall : p.Path (head :: ((l₁ ++ a :: l₂) ++ [head])) := h
      rwa [List.append_assoc] at hall
    rw [hpre, List.append_assoc] at hall
    exact hall.prev_eq
  rw [hprev, h.next_eq_of_append]
  constructor
  · have hc : c ∈ head :: l₁ := hpre ▸ List.mem_append_right pre (List.mem_singleton_self c)
    exact List.mem_append_left (a :: l₂) hc
  · cases l₂ with
    | nil => exact List.mem_cons_self
    | cons d l₂ =>
      exact List.mem_cons_of_mem head
        (List.mem_append_right l₁ (List.mem_cons_of_mem a List.mem_cons_self))

/-- What a walk along the pointers meets up to a node, at most so many. -/
def walk (p : Pointers α) [DecidableEq α] (stop : α) : ℕ → α → Option (List α)
  | 0, _ => none
  | fuel + 1, pos =>
    if pos = stop then some [] else (walk p stop fuel (p.next pos)).map (pos :: ·)

/-- **A walk round a ring meets its nodes** and ends. -/
theorem Ring.walk_eq [DecidableEq α] (h : p.Ring head xs) (hhead : head ∉ xs) {fuel : ℕ}
    (hfuel : xs.length < fuel) : p.walk head fuel (p.next head) = some xs := by
  have key : ∀ (a : α) (ys : List α) (fuel : ℕ), p.Path (a :: (ys ++ [head])) → head ∉ ys →
      ys.length < fuel → p.walk head fuel (p.next a) = some ys := by
    intro a ys
    induction ys generalizing a with
    | nil =>
      intro fuel hpath _ hfuel
      obtain ⟨fuel, rfl⟩ := Nat.exists_eq_succ_of_ne_zero hfuel.ne'
      rw [walk, if_pos hpath.start_eq]
    | cons y ys ih =>
      intro fuel hpath hnot hfuel
      obtain ⟨fuel, rfl⟩ := Nat.exists_eq_succ_of_ne_zero (Nat.ne_zero_of_lt hfuel)
      obtain ⟨hlink, hrest⟩ := List.isChain_cons_cons.mp hpath
      have hy : y ≠ head := fun he => hnot (he ▸ List.mem_cons_self)
      rw [hlink.1, walk, if_neg hy, ih y fuel hrest (fun hmem => hnot (List.mem_cons_of_mem y hmem))
        (Nat.lt_of_succ_lt_succ hfuel)]
      rfl
  exact key head xs fuel h hhead hfuel

end Paths

/-! ## Linking two nodes -/

variable [DecidableEq α]

/-- **Link one node to another.** -/
def join (p : Pointers α) (a b : α) : Pointers α :=
  ⟨Function.update p.next a b, Function.update p.prev b a⟩

theorem next_join (p : Pointers α) (a b x : α) :
    (p.join a b).next x = if x = a then b else p.next x := Function.update_apply p.next a b x

theorem prev_join (p : Pointers α) (a b x : α) :
    (p.join a b).prev x = if x = b then a else p.prev x := Function.update_apply p.prev b a x

section Join

variable {p : Pointers α} {a b c d head other : α} {l l₁ l₂ xs ys : List α}

theorem link_join (p : Pointers α) (c d : α) : (p.join c d).Link c d := by
  rw [Link, next_join, prev_join, if_pos rfl, if_pos rfl]
  exact ⟨rfl, rfl⟩

/-- Another link is left alone. -/
theorem Link.join (h : p.Link a b) (ha : a ≠ c) (hb : b ≠ d) : (p.join c d).Link a b := by
  rw [Link, next_join, prev_join, if_neg ha, if_neg hb]
  exact h

/-- **A path does not notice** a link from none of the nodes it leaves to none of those it
enters. -/
theorem Path.join_of_notMem (h : p.Path l) (hc : c ∉ l.dropLast) (hd : d ∉ l.tail) :
    (p.join c d).Path l := by
  induction l with
  | nil => exact .nil
  | cons x l ih =>
    cases l with
    | nil => exact .singleton x
    | cons y l =>
      obtain ⟨hlink, hrest⟩ := List.isChain_cons_cons.mp h
      rw [List.dropLast_cons_cons, List.mem_cons, not_or] at hc
      have hd' : d ≠ y ∧ d ∉ l := not_or.mp (fun hmem => hd (List.mem_cons.mpr hmem))
      exact List.isChain_cons_cons.mpr
        ⟨hlink.join (Ne.symm hc.1) (Ne.symm hd'.1), ih hrest hc.2 hd'.2⟩

/-- **Two paths are joined** by linking the end of one to the start of the other. -/
theorem Path.join (h₁ : p.Path (l₁ ++ [c])) (h₂ : p.Path (d :: l₂))
    (hs : Simple ((l₁ ++ [c]) ++ d :: l₂)) :
    (p.join c d).Path ((l₁ ++ [c]) ++ d :: l₂) := by
  have hleft : (l₁ ++ [c] ++ (d :: l₂).dropLast).Nodup := by
    have h := hs.left
    rwa [List.dropLast_append_of_ne_nil (List.cons_ne_nil d l₂)] at h
  have hentered : ((l₁ ++ [c]).tail ++ d :: l₂).Nodup := by
    have h := hs.entered
    rwa [List.tail_append_of_ne_nil (by simp)] at h
  have hcmem : c ∈ l₁ ++ [c] := List.mem_append_right l₁ (List.mem_singleton_self c)
  obtain ⟨hnodup₁, -, hdisj₁⟩ := List.nodup_append.mp hleft
  obtain ⟨-, hnodup₂, hdisj₂⟩ := List.nodup_append.mp hentered
  refine List.isChain_append.mpr ⟨h₁.join_of_notMem ?_ ?_, h₂.join_of_notMem ?_ ?_, ?_⟩
  · rw [List.dropLast_concat]
    exact fun hmem => (List.nodup_append.mp hnodup₁).2.2 c hmem c (List.mem_singleton_self c) rfl
  · exact fun hmem => hdisj₂ d hmem d List.mem_cons_self rfl
  · exact fun hmem => hdisj₁ c hcmem c hmem rfl
  · exact (List.nodup_cons.mp hnodup₂).1
  · intro x hx y hy
    rw [List.getLast?_concat, Option.mem_some_iff] at hx
    rw [List.head?_cons, Option.mem_some_iff] at hy
    rw [← hx, ← hy]
    exact link_join p c d

/-! ## Rings -/

/-- A head linked to itself. -/
theorem ring_join_self (p : Pointers α) (head : α) : (p.join head head).Ring head [] :=
  List.isChain_cons_cons.mpr ⟨link_join p head head, .singleton head⟩

/-- A ring that a new link does not leave and does not enter. -/
theorem Ring.join_of_notMem (h : p.Ring head xs) (hc : c ∉ head :: xs) (hd : d ∉ head :: xs) :
    (p.join c d).Ring head xs := by
  refine Path.join_of_notMem h ?_ ?_
  · rwa [← List.cons_append, List.dropLast_concat]
  · show d ∉ xs ++ [head]
    rwa [(List.perm_append_singleton head xs).mem_iff]

omit [DecidableEq α] in
/-- The nodes of a ring before one, and those after it. -/
theorem ring_append (head : α) (l₁ l₂ : List α) :
    head :: ((l₁ ++ l₂) ++ [head]) = (head :: l₁) ++ (l₂ ++ [head]) := by
  rw [List.cons_append, List.append_assoc]

/-- **Taking a node out**: what was before it is linked to what was behind it. -/
theorem Ring.remove (h : p.Ring head (l₁ ++ a :: l₂)) (hn : (head :: (l₁ ++ a :: l₂)).Nodup) :
    (p.join (p.prev a) (p.next a)).Ring head (l₁ ++ l₂) := by
  obtain ⟨pre, c, hpre⟩ : ∃ pre c, head :: l₁ = pre ++ [c] :=
    ⟨_, _, (List.dropLast_append_getLast (List.cons_ne_nil head l₁)).symm⟩
  obtain ⟨d, post, hpost⟩ : ∃ d post, l₂ ++ [head] = d :: post :=
    List.exists_cons_of_ne_nil (by simp)
  have hpath : p.Path (pre ++ c :: a :: d :: post) := by
    have hall : p.Path (head :: ((l₁ ++ a :: l₂) ++ [head])) := h
    rwa [ring_append, hpre, List.cons_append, hpost, List.append_assoc] at hall
  have hprev : p.prev a = c := hpath.prev_eq
  have hnext : p.next a = d := by
    have hcut : p.Path ((pre ++ [c]) ++ a :: d :: post) := by rwa [List.append_assoc]
    exact hcut.next_eq
  have hbefore : p.Path (pre ++ [c]) := by
    have hcut : p.Path ((pre ++ [c]) ++ a :: d :: post) := by rwa [List.append_assoc]
    exact hcut.left
  have hbehind : p.Path (d :: post) := hpath.right.tail.tail
  have hrest : (head :: (l₁ ++ l₂)).Nodup := by
    refine hn.sublist (List.Sublist.cons_cons head ?_)
    exact (List.Sublist.refl l₁).append (List.sublist_cons_self a l₂)
  have hsimple := simple_ring hrest
  rw [ring_append, hpre, hpost] at hsimple
  have hjoin := hbefore.join hbehind hsimple
  rw [← hpre, ← hpost, ← ring_append] at hjoin
  rwa [hprev, hnext]

/-- **Putting a node in**: it is linked to what is behind it, and what is before it to it. -/
theorem Ring.insert (h : p.Ring head (l₁ ++ l₂)) (hn : (head :: (l₁ ++ l₂)).Nodup)
    (ha : a ∉ head :: (l₁ ++ l₂)) (hc : l₁.getLastD head = c) (hd : l₂.headD head = d) :
    ((p.join a d).join c a).Ring head (l₁ ++ a :: l₂) := by
  obtain ⟨pre, hpre⟩ : ∃ pre, head :: l₁ = pre ++ [c] := by
    refine ⟨(head :: l₁).dropLast, (List.dropLast_append_getLast? c ?_).symm⟩
    rw [← hc, List.getLast?_cons, List.getLastD_eq_getLast?]
    exact Option.mem_some_self _
  obtain ⟨post, hpost⟩ : ∃ post, l₂ ++ [head] = d :: post := by
    cases l₂ with
    | nil => exact ⟨[], by rw [← hd]; rfl⟩
    | cons x l₂ => exact ⟨l₂ ++ [head], by rw [← hd]; rfl⟩
  have hall : p.Path ((pre ++ [c]) ++ d :: post) := by
    have hall : p.Path (head :: ((l₁ ++ l₂) ++ [head])) := h
    rwa [ring_append, hpre, hpost] at hall
  have hbefore : p.Path (pre ++ [c]) := hall.left
  have hbehind : p.Path (d :: post) := hall.right
  have hnew : (head :: (l₁ ++ a :: l₂)).Nodup := by
    have hperm : (head :: (l₁ ++ a :: l₂)).Perm (a :: head :: (l₁ ++ l₂)) :=
      (List.perm_middle.cons head).trans (List.Perm.swap a head _)
    exact hperm.nodup_iff.mpr (List.nodup_cons.mpr ⟨ha, hn⟩)
  have hsimple : Simple ((pre ++ [c]) ++ a :: d :: post) := by
    have hs := simple_ring hnew
    rwa [ring_append, hpre, List.cons_append, hpost] at hs
  have htarget : (head :: l₁) ++ a :: (l₂ ++ [head]) = head :: ((l₁ ++ a :: l₂) ++ [head]) := by
    rw [ring_append]
    rfl
  have hamem : a ∉ (pre ++ [c]) ∧ a ∉ d :: post := by
    rw [← hpre, ← hpost]
    refine ⟨fun hmem => ha ?_, fun hmem => ha ?_⟩
    · rcases List.mem_cons.mp hmem with he | hmem
      · exact List.mem_cons.mpr (Or.inl he)
      · exact List.mem_cons_of_mem head (List.mem_append_left l₂ hmem)
    · rcases List.mem_append.mp hmem with hmem | hmem
      · exact List.mem_cons_of_mem head (List.mem_append_right l₁ hmem)
      · exact List.mem_cons.mpr (Or.inl (List.mem_singleton.mp hmem))
  -- first the link forward, which what is before the node does not notice
  have hforward : (p.join a d).Path (a :: d :: post) := by
    have halone : p.Path ([] ++ [a]) := .singleton a
    refine halone.join hbehind (simple_of_nodup ?_)
    have htail := hsimple.entered
    rw [List.tail_append_of_ne_nil (by simp)] at htail
    exact (List.nodup_append.mp htail).2.1
  have hkept : (p.join a d).Path (pre ++ [c]) := by
    refine hbefore.join_of_notMem (fun hmem => hamem.1 (List.dropLast_subset _ hmem))
      (fun hmem => ?_)
    have htail := hsimple.entered
    rw [List.tail_append_of_ne_nil (by simp)] at htail
    exact (List.nodup_append.mp htail).2.2 d hmem d
      (List.mem_cons_of_mem a List.mem_cons_self) rfl
  have hjoin := hkept.join hforward hsimple
  rw [← hpre, ← hpost, htarget] at hjoin
  exact hjoin

/-- **Splicing**: the nodes of another ring are put behind those of a ring. -/
theorem Ring.splice (h : p.Ring head xs) (h' : p.Ring other ys) (hys : ys ≠ [])
    (hn : (head :: (xs ++ ys)).Nodup) :
    ((p.join (p.prev head) (p.next other)).join (p.prev other) head).Ring head (xs ++ ys) := by
  obtain ⟨y, rest, rfl⟩ := List.exists_cons_of_ne_nil hys
  obtain ⟨pre, c, hpre⟩ : ∃ pre c, head :: xs = pre ++ [c] :=
    ⟨_, _, (List.dropLast_append_getLast (List.cons_ne_nil head xs)).symm⟩
  obtain ⟨pre', z, hpre'⟩ : ∃ pre z, y :: rest = pre ++ [z] :=
    ⟨_, _, (List.dropLast_append_getLast hys).symm⟩
  have hprev : p.prev head = c := by
    have hall : p.Path ((pre ++ [c]) ++ [head]) := by
      rw [← hpre]
      exact h
    rw [List.append_assoc] at hall
    exact hall.prev_eq
  have hnext : p.next other = y := Path.start_eq h'
  have hlast : p.prev other = z := by
    have hall : p.Path (other :: (pre' ++ [z]) ++ [other]) := by
      rw [← hpre']
      exact h'
    rw [List.cons_append, List.append_assoc, ← List.cons_append] at hall
    exact hall.prev_eq
  have hbefore : p.Path (pre ++ [c]) := by
    have hall : p.Path ((head :: xs) ++ [head]) := h
    rw [← hpre]
    exact hall.left
  have hmiddle : p.Path (y :: rest) := (Path.tail h').left
  have hsimple : Simple ((pre ++ [c]) ++ y :: rest) := by
    rw [← hpre]
    exact simple_of_nodup hn
  have hjoined := hbefore.join hmiddle hsimple
  rw [hprev, hnext, hlast]
  rw [hpre', ← List.append_assoc] at hjoined
  have hsimple' : Simple (((pre ++ [c]) ++ pre') ++ [z] ++ [head]) := by
    have hs := simple_ring hn
    rwa [← List.cons_append, ← List.cons_append, hpre, hpre', ← List.append_assoc] at hs
  have hjoin := hjoined.join (.singleton head) hsimple'
  rw [List.append_assoc (pre ++ [c]), ← hpre', ← hpre] at hjoin
  exact hjoin

end Join

/-! ## Tables of rings -/

omit [DecidableEq α]

/-- No node is in a list twice, in two lists, or a head. -/
structure Apart (head : ℕ → α) (n : ℕ) (t : ℕ → List α) : Prop where
  /-- No node is in a list twice. -/
  nodup : ∀ i < n, (head i :: t i).Nodup
  /-- No node is in two lists. -/
  disjoint : ∀ i < n, ∀ j < n, i ≠ j → (head i :: t i).Disjoint (head j :: t j)

/-- **A table of rings** at `n` heads, no node in two of them. -/
structure Rings (p : Pointers α) (head : ℕ → α) (n : ℕ) (t : ℕ → List α) : Prop extends
    Apart head n t where
  /-- A ring at each head. -/
  ring : ∀ i < n, p.Ring (head i) (t i)

section Tables

variable {p q : Pointers α} {head : ℕ → α} {n i j : ℕ} {t t' : ℕ → List α} {x : α}
  {ys : List α}

theorem Rings.congr (h : p.Rings head n t) (ht : ∀ i < n, t' i = t i) : p.Rings head n t' where
  ring i hi := by
    rw [ht i hi]
    exact h.ring i hi
  nodup i hi := by
    rw [ht i hi]
    exact h.nodup i hi
  disjoint i hi j hj hij := by
    rw [ht i hi, ht j hj]
    exact h.disjoint i hi j hj hij

/-- One list replaced. -/
theorem Apart.update (h : Apart head n t) (hnodup : (head i :: ys).Nodup)
    (hdisj : ∀ j < n, j ≠ i → (head i :: ys).Disjoint (head j :: t j)) :
    Apart head n (Function.update t i ys) where
  nodup j hj := by
    by_cases hji : j = i
    · rw [hji, Function.update_self]
      exact hnodup
    · rw [Function.update_of_ne hji]
      exact h.nodup j hj
  disjoint j hj k hk hjk := by
    by_cases hji : j = i
    · have hki : k ≠ i := fun he => hjk (hji.trans he.symm)
      rw [hji, Function.update_self, Function.update_of_ne hki]
      exact hdisj k hk hki
    · rw [Function.update_of_ne hji]
      by_cases hki : k = i
      · rw [hki, Function.update_self]
        exact (hdisj j hj hji).symm
      · rw [Function.update_of_ne hki]
        exact h.disjoint j hj k hk hjk

/-- One ring replaced, the others as they were. -/
theorem Apart.rings_update (h : Apart head n t) (hring : q.Ring (head i) ys)
    (hother : ∀ j < n, j ≠ i → q.Ring (head j) (t j)) (hnodup : (head i :: ys).Nodup)
    (hdisj : ∀ j < n, j ≠ i → (head i :: ys).Disjoint (head j :: t j)) :
    q.Rings head n (Function.update t i ys) where
  toApart := h.update hnodup hdisj
  ring j hj := by
    by_cases hji : j = i
    · rw [hji, Function.update_self]
      exact hring
    · rw [Function.update_of_ne hji]
      exact hother j hj hji

/-- A node of one ring is in no other. -/
theorem Rings.notMem (h : p.Rings head n t) (hi : i < n) (hj : j < n) (hij : j ≠ i)
    (hx : x ∈ head i :: t i) : x ∉ head j :: t j :=
  fun hmem => h.disjoint i hi j hj hij.symm hx hmem

/-- The node that the head of a ring points at is in the ring. -/
theorem Rings.next_mem (h : p.Rings head n t) (hi : i < n) :
    p.next (head i) ∈ head i :: t i := by
  rw [(h.ring i hi).next_eq]
  cases t i with
  | nil => exact List.mem_cons_self
  | cons y ys => exact List.mem_cons_of_mem _ List.mem_cons_self

/-- The node that the head of a ring points back at is in the ring. -/
theorem Rings.prev_mem (h : p.Rings head n t) (hi : i < n) :
    p.prev (head i) ∈ head i :: t i := by
  rw [(h.ring i hi).prev_eq, List.getLastD_eq_getLast?]
  cases hlast : (t i).getLast? with
  | none => exact List.mem_cons_self
  | some y => exact List.mem_cons_of_mem _ (List.mem_of_getLast? hlast)

variable [DecidableEq α]

/-- **A node is put between two of a ring.** -/
theorem Rings.insert (h : p.Rings head n t) (hi : i < n) {l₁ l₂ : List α} {c d : α}
    (ht : t i = l₁ ++ l₂) (hx : ∀ j < n, x ∉ head j :: t j) (hc : l₁.getLastD (head i) = c)
    (hd : l₂.headD (head i) = d) :
    ((p.join x d).join c x).Rings head n (Function.update t i (l₁ ++ x :: l₂)) := by
  have hcmem : c ∈ head i :: t i := by
    rw [← hc, ht, List.getLastD_eq_getLast?]
    cases hlast : l₁.getLast? with
    | none => exact List.mem_cons_self
    | some y =>
      exact List.mem_cons_of_mem _ (List.mem_append_left l₂ (List.mem_of_getLast? hlast))
  have hdmem : d ∈ head i :: t i := by
    rw [← hd, ht]
    cases l₂ with
    | nil => exact List.mem_cons_self
    | cons y l₂ =>
      exact List.mem_cons_of_mem _ (List.mem_append_right l₁ List.mem_cons_self)
  have hperm : (head i :: (l₁ ++ x :: l₂)).Perm (x :: head i :: t i) := by
    rw [ht]
    exact (List.perm_middle.cons (head i)).trans (List.Perm.swap x (head i) _)
  refine h.rings_update (Ring.insert ?_ ?_ ?_ hc hd) (fun j hj hji => ?_) ?_
    (fun j hj hji => ?_)
  · rw [← ht]
    exact h.ring i hi
  · rw [← ht]
    exact h.nodup i hi
  · rw [← ht]
    exact hx i hi
  · exact ((h.ring j hj).join_of_notMem (hx j hj) (h.notMem hi hj hji hdmem)).join_of_notMem
      (h.notMem hi hj hji hcmem) (hx j hj)
  · exact hperm.nodup_iff.mpr (List.nodup_cons.mpr ⟨hx i hi, h.nodup i hi⟩)
  · intro y hy hyj
    rcases List.mem_cons.mp (hperm.mem_iff.mp hy) with rfl | hy
    · exact hx j hj hyj
    · exact h.notMem hi hj hji hy hyj

/-- **A node is put in front.** -/
theorem Rings.add (h : p.Rings head n t) (hi : i < n) (hx : ∀ j < n, x ∉ head j :: t j) :
    ((p.join x (p.next (head i))).join (head i) x).Rings head n (bucketAdd t i x) :=
  h.insert hi (List.nil_append (t i)).symm hx rfl (h.ring i hi).next_eq.symm

/-- **A node is put at the end.** -/
theorem Rings.addTail (h : p.Rings head n t) (hi : i < n) (hx : ∀ j < n, x ∉ head j :: t j) :
    ((p.join x (head i)).join (p.prev (head i)) x).Rings head n
      (Function.update t i (t i ++ [x])) :=
  h.insert hi (List.append_nil (t i)).symm hx (h.ring i hi).prev_eq.symm rfl

/-- **A node is taken out.** -/
theorem Rings.del (h : p.Rings head n t) (hi : i < n) (hx : x ∈ t i) :
    (p.join (p.prev x) (p.next x)).Rings head n (bucketDel t x) := by
  obtain ⟨l₁, l₂, ht⟩ := List.append_of_mem hx
  have hnodup := h.nodup i hi
  have hring := h.ring i hi
  rw [ht] at hnodup hring
  have hsub : (head i :: (l₁ ++ l₂)).Sublist (head i :: t i) := by
    rw [ht]
    exact List.Sublist.cons_cons _
      ((List.Sublist.refl l₁).append (List.sublist_cons_self x l₂))
  have hmem := (h.ring i hi).neighbours hx
  have hupdate : (p.join (p.prev x) (p.next x)).Rings head n
      (Function.update t i (l₁ ++ l₂)) := by
    refine h.rings_update (hring.remove hnodup) (fun j hj hji => ?_)
      ((h.nodup i hi).sublist hsub) (fun j hj hji y hy hyj => ?_)
    · exact (h.ring j hj).join_of_notMem (h.notMem hi hj hji hmem.1) (h.notMem hi hj hji hmem.2)
    · exact h.notMem hi hj hji (hsub.subset hy) hyj
  refine hupdate.congr (fun j hj => ?_)
  show (t j).erase x = _
  by_cases hji : j = i
  · have hx₁ : x ∉ l₁ := fun hx₁ =>
      (List.nodup_append.mp (List.nodup_cons.mp hnodup).2).2.2 x hx₁ x List.mem_cons_self rfl
    rw [hji, Function.update_self, ht, List.erase_append_right _ hx₁, List.erase_cons_head]
  · rw [Function.update_of_ne hji]
    exact List.erase_of_not_mem (fun hxj =>
      h.notMem hi hj hji (List.mem_cons_of_mem _ hx) (List.mem_cons_of_mem _ hxj))

/-- **The nodes of one ring are put behind those of another**, and the head they leave is
linked to itself. -/
theorem Rings.splice (h : p.Rings head n t) (hi : i < n) (hj : j < n) (hij : i ≠ j)
    (hne : t i ≠ []) :
    (((p.join (p.prev (head j)) (p.next (head i))).join (p.prev (head i)) (head j)).join
      (head i) (head i)).Rings head n
      (Function.update (Function.update t i []) j (t j ++ t i)) := by
  have hhead : ∀ k < n, k ≠ i → head i ∉ head k :: t k := fun k hk hki =>
    h.notMem hi hk hki List.mem_cons_self
  have hboth : (head j :: (t j ++ t i)).Nodup := by
    rw [← List.cons_append]
    refine List.nodup_append.mpr ⟨h.nodup j hj, (List.nodup_cons.mp (h.nodup i hi)).2,
      fun y hy z hz hyz => ?_⟩
    exact h.notMem hi hj hij.symm (List.mem_cons_of_mem _ hz) (hyz ▸ hy)
  have hheadj : head i ∉ head j :: (t j ++ t i) := by
    rw [← List.cons_append]
    intro hmem
    rcases List.mem_append.mp hmem with hmem | hmem
    · exact hhead j hj hij.symm hmem
    · exact (List.nodup_cons.mp (h.nodup i hi)).1 hmem
  have hempty : Apart head n (Function.update t i []) := by
    refine h.update (List.nodup_singleton _) (fun k hk hki y hy => ?_)
    rw [List.mem_singleton.mp hy]
    exact hhead k hk hki
  refine hempty.rings_update ?_ (fun k hk hkj => ?_) hboth (fun k hk hkj y hy hyk => ?_)
  · have hspliced := (h.ring j hj).splice (h.ring i hi) hne hboth
    exact hspliced.join_of_notMem hheadj hheadj
  · by_cases hki : k = i
    · rw [hki, Function.update_self]
      exact ring_join_self _ (head i)
    · rw [Function.update_of_ne hki]
      have hfirst := (h.ring k hk).join_of_notMem (h.notMem hj hk hkj (h.prev_mem hj))
        (h.notMem hi hk hki (h.next_mem hi))
      have hsecond := hfirst.join_of_notMem (h.notMem hi hk hki (h.prev_mem hi))
        (h.notMem hj hk hkj List.mem_cons_self)
      exact hsecond.join_of_notMem (hhead k hk hki) (hhead k hk hki)
  · by_cases hki : k = i
    · rw [hki, Function.update_self] at hyk
      exact hheadj (List.mem_singleton.mp hyk ▸ hy)
    · rw [Function.update_of_ne hki] at hyk
      rw [← List.cons_append] at hy
      rcases List.mem_append.mp hy with hy | hy
      · exact h.notMem hj hk hkj hy hyk
      · exact h.notMem hi hk hki (List.mem_cons_of_mem _ hy) hyk

end Tables

end Pointers

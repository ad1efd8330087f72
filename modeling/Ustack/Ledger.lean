import Mathlib.Tactic

/-!
# Ledgers

A ledger says what is in each of a family of lists. Moving items from one list to
another keeps every item in exactly one list (`Ledger.Exclusive.move`).

For the order of items, some of the lists are read one after the other, as one line
(`List.flatMap` over the lists, the front of the line first). Taking items off the front
of a list and putting them at the end of the list before it leaves the line as it is
(`Ledger.flatMap_pass`); items that leave the line, or join it without counting, leave a
part of it in its order (`Ledger.filterMap_sublist`).
-/

variable {ι α β : Type*}

/-- What is in each list. -/
abbrev Ledger (ι α : Type*) := ι → List α

namespace Ledger

/-- **Every item is in exactly one list, once.** -/
structure Exclusive (items : Set α) (c : Ledger ι α) : Prop where
  /-- A list does not repeat an item. -/
  nodup : ∀ x, (c x).Nodup
  /-- Two lists do not share an item. -/
  unique : ∀ {x y p}, p ∈ c x → p ∈ c y → x = y
  /-- The items are those in the lists. -/
  covers : ∀ p, p ∈ items ↔ ∃ x, p ∈ c x

/-- **Items go from one list to another**, in any order. -/
structure Move (c c' : Ledger ι α) (x y : ι) (moved : List α) : Prop where
  /-- It is another list. -/
  ne : x ≠ y
  /-- They are taken from the first. -/
  taken : (c x).Perm (moved ++ c' x)
  /-- They are put in the second. -/
  given : (c' y).Perm (c y ++ moved)
  /-- The other lists are as they were. -/
  other : ∀ z, z ≠ x → z ≠ y → c' z = c z

variable {items : Set α} {c c' : Ledger ι α} {x y z : ι} {moved : List α} {p : α}

theorem Exclusive.existsUnique (h : c.Exclusive items) (hp : p ∈ items) : ∃! x, p ∈ c x := by
  obtain ⟨x, hx⟩ := (h.covers p).mp hp
  exact ⟨x, hx, fun _ hy => h.unique hy hx⟩

/-- Nothing moves. -/
theorem Move.of_eq (hc : c' = c) (h : x ≠ y) : Move c c' x y [] :=
  hc ▸ ⟨h, .refl _, by rw [List.append_nil], fun _ _ _ => rfl⟩

namespace Move

theorem mem_moved (h : Move c c' x y moved) (hp : p ∈ moved) : p ∈ c x :=
  h.taken.mem_iff.mpr (List.mem_append_left _ hp)

/-- The receiving list holds what it held and what moved. -/
theorem mem_given (h : Move c c' x y moved) : p ∈ c' y ↔ p ∈ c y ∨ p ∈ moved := by
  rw [h.given.mem_iff, List.mem_append]

/-- Every other list holds only what it held. -/
theorem mem_of_ne (h : Move c c' x y moved) (hz : z ≠ y) (hp : p ∈ c' z) : p ∈ c z := by
  by_cases hx : z = x
  · rw [hx] at hp ⊢
    exact h.taken.mem_iff.mpr (List.mem_append_right _ hp)
  · rwa [h.other z hx hz] at hp

/-- What moved is in the receiving list and in no other. -/
theorem eq_of_mem_moved (h : Move c c' x y moved) (he : c.Exclusive items) (hp : p ∈ moved)
    (hz : p ∈ c' z) : z = y := by
  by_contra hne
  obtain rfl := he.unique (h.mem_of_ne hne hz) (h.mem_moved hp)
  have hnodup := h.taken.nodup_iff.mp (he.nodup z)
  exact List.disjoint_of_nodup_append hnodup hp hz

end Move

/-- **A move keeps every item in exactly one list.** -/
theorem Exclusive.move (h : c.Exclusive items) (hm : Move c c' x y moved) :
    c'.Exclusive items where
  nodup z := by
    by_cases hy : z = y
    · rw [hy, hm.given.nodup_iff]
      refine (h.nodup y).append (hm.taken.nodup_iff.mp (h.nodup x)).of_append_left ?_
      exact fun p hp hmoved => hm.ne (h.unique (hm.mem_moved hmoved) hp)
    · by_cases hx : z = x
      · rw [hx]
        exact (hm.taken.nodup_iff.mp (h.nodup x)).of_append_right
      · rw [hm.other z hx hy]
        exact h.nodup z
  unique {z w p} hz hw := by
    by_cases hmoved : p ∈ moved
    · rw [hm.eq_of_mem_moved h hmoved hz, hm.eq_of_mem_moved h hmoved hw]
    · have hback : ∀ {z}, p ∈ c' z → p ∈ c z := fun {z} hp => by
        by_cases hy : z = y
        · rw [hy] at hp ⊢
          exact (hm.mem_given.mp hp).resolve_right hmoved
        · exact hm.mem_of_ne hy hp
      exact h.unique (hback hz) (hback hw)
  covers p := by
    rw [h.covers]
    constructor
    · rintro ⟨z, hz⟩
      by_cases hx : z = x
      · rw [hx, hm.taken.mem_iff, List.mem_append] at hz
        exact hz.elim (fun hp => ⟨y, hm.mem_given.mpr (Or.inr hp)⟩) (fun hp => ⟨x, hp⟩)
      · by_cases hy : z = y
        · exact ⟨y, hm.mem_given.mpr (Or.inl (hy ▸ hz))⟩
        · exact ⟨z, by rwa [hm.other z hx hy]⟩
    · rintro ⟨z, hz⟩
      by_cases hy : z = y
      · rw [hy] at hz
        exact (hm.mem_given.mp hz).elim (fun hp => ⟨y, hp⟩) (fun hp => ⟨x, hm.mem_moved hp⟩)
      · exact ⟨z, hm.mem_of_ne hy hz⟩

/-! ## Lists in a line -/

/-- **Passing on**: from the front of one list to the end of the one before it. -/
theorem flatMap_pass {before after : List ι} (hx : c x = moved ++ c' x)
    (hy : c' y = c y ++ moved) (hbefore : ∀ z ∈ before, c' z = c z)
    (hafter : ∀ z ∈ after, c' z = c z) :
    (before ++ y :: x :: after).flatMap c' = (before ++ y :: x :: after).flatMap c := by
  simp only [List.flatMap_append, List.flatMap_cons, hy, hx, List.append_assoc,
    List.flatMap_congr hbefore, List.flatMap_congr hafter]

/-- **A line whose lists keep a part of what counts in them keeps a part of it.** -/
theorem filterMap_sublist (f : α → Option β) (line : List ι)
    (h : ∀ x ∈ line, ((c' x).filterMap f).Sublist ((c x).filterMap f)) :
    ((line.flatMap c').filterMap f).Sublist ((line.flatMap c).filterMap f) := by
  induction line with
  | nil => exact List.Sublist.refl _
  | cons x line ih =>
    rw [List.flatMap_cons, List.flatMap_cons, List.filterMap_append, List.filterMap_append]
    exact (h x List.mem_cons_self).append (ih (fun z hz => h z (List.mem_cons_of_mem _ hz)))

end Ledger

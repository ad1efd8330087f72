import Mathlib.Tactic
import Mathlib.Data.List.Basic
import Mathlib.Data.List.Perm.Basic

/-!
# Tables of lists

A hash table with chaining, a timer wheel or a set of per-key queues is an array
of lists. An element is put into one list, chosen by the caller, and taken out
by unlinking it, without saying from which list. `linked` flattens the first `n`
lists of such a table, and the lemmas say what the operations do to it: adding
puts one more element there, and unlinking an element linked once takes exactly
that one out.
-/

variable {α : Type*}

/-- Everything linked in the first `n` lists of a table. -/
def linked (n : ℕ) (t : ℕ → List α) : List α := (List.range n).flatMap t

/-- Add an element at the front of list `i`. -/
def bucketAdd (t : ℕ → List α) (i : ℕ) (x : α) : ℕ → List α :=
  Function.update t i (x :: t i)

/-- Unlink an element from whichever list holds it. -/
def bucketDel [DecidableEq α] (t : ℕ → List α) (x : α) : ℕ → List α :=
  fun i => (t i).erase x

theorem mem_linked {n : ℕ} {t : ℕ → List α} {x : α} :
    x ∈ linked n t ↔ ∃ i < n, x ∈ t i := by
  simp only [linked, List.mem_flatMap, List.mem_range]

theorem linked_succ (n : ℕ) (t : ℕ → List α) :
    linked (n + 1) t = linked n t ++ t n := by
  rw [linked, List.range_succ, List.flatMap_append, linked, List.flatMap_singleton]

theorem linked_congr {n : ℕ} {t t' : ℕ → List α} (h : ∀ i < n, t i = t' i) :
    linked n t = linked n t' :=
  List.flatMap_congr (fun i hi => h i (List.mem_range.mp hi))

/-- What is linked once is in one list. -/
theorem eq_of_mem_linked {n i j : ℕ} {t : ℕ → List α} {x : α} (h : (linked n t).Nodup)
    (hi : i < n) (hj : j < n) (hxi : x ∈ t i) (hxj : x ∈ t j) : i = j := by
  obtain ⟨-, hpair⟩ := List.nodup_flatMap.mp h
  have hsymm : Std.Symm (Function.onFun List.Disjoint t) := ⟨fun _ _ hd => hd.symm⟩
  by_contra hne
  exact hpair.forall (List.mem_range.mpr hi) (List.mem_range.mpr hj) hne hxi hxj

@[simp] theorem linked_nil (n : ℕ) : linked n (fun _ => ([] : List α)) = [] := by
  simp [linked]

/-- Adding to a list past the first `n` is not seen. -/
theorem linked_bucketAdd_of_le {n i : ℕ} (h : n ≤ i) (t : ℕ → List α) (x : α) :
    linked n (bucketAdd t i x) = linked n t :=
  linked_congr (fun _ hj => Function.update_of_ne (by omega) _ _)

/-- **Adding adds one element.** -/
theorem linked_bucketAdd {n i : ℕ} (h : i < n) (t : ℕ → List α) (x : α) :
    (linked n (bucketAdd t i x)).Perm (x :: linked n t) := by
  induction n with
  | zero => omega
  | succ n ih =>
    rw [linked_succ, linked_succ]
    rcases Nat.lt_succ_iff_lt_or_eq.mp h with hlt | rfl
    · rw [show bucketAdd t i x n = t n from Function.update_of_ne (by omega) _ _]
      exact (ih hlt).append_right (t n)
    · rw [linked_bucketAdd_of_le le_rfl,
        show bucketAdd t i x i = x :: t i from Function.update_self _ _ _]
      exact List.perm_middle

theorem mem_bucketAdd_self (t : ℕ → List α) (i : ℕ) (x : α) : x ∈ bucketAdd t i x i := by
  rw [bucketAdd, Function.update_self]
  exact List.mem_cons_self

theorem mem_bucketAdd_of_mem {t : ℕ → List α} {i j : ℕ} {x y : α} (h : y ∈ t j) :
    y ∈ bucketAdd t i x j := by
  unfold bucketAdd
  by_cases hj : j = i
  · rw [hj, Function.update_self]
    exact List.mem_cons_of_mem x (hj ▸ h)
  · rwa [Function.update_of_ne hj]

/-- Adding one element does not add another. -/
theorem mem_bucketAdd_of_ne {t : ℕ → List α} {i j : ℕ} {x y : α} (h : y ≠ x) :
    y ∈ bucketAdd t i x j ↔ y ∈ t j := by
  unfold bucketAdd
  by_cases hj : j = i
  · rw [hj, Function.update_self, List.mem_cons]
    exact or_iff_right h
  · rw [Function.update_of_ne hj]

variable [DecidableEq α]

/-- Unlinking one element does not unlink another. -/
theorem mem_bucketDel_of_ne {t : ℕ → List α} {j : ℕ} {x y : α} (h : y ≠ x) :
    y ∈ bucketDel t x j ↔ y ∈ t j := List.mem_erase_of_ne h

/-- Unlinking what is not linked changes nothing. -/
theorem linked_bucketDel_of_notMem {n : ℕ} {t : ℕ → List α} {x : α}
    (h : x ∉ linked n t) : linked n (bucketDel t x) = linked n t :=
  linked_congr (fun i hi =>
    List.erase_of_not_mem (fun hx => h (mem_linked.mpr ⟨i, hi, hx⟩)))

/-- **Unlinking takes one element out**, where nothing is linked twice. -/
theorem linked_bucketDel {n : ℕ} {t : ℕ → List α} {x : α}
    (h : (linked n t).Nodup) : linked n (bucketDel t x) = (linked n t).erase x := by
  induction n with
  | zero => rfl
  | succ n ih =>
    rw [linked_succ] at h ⊢
    rw [linked_succ]
    by_cases hx : x ∈ linked n t
    · have hxn : x ∉ t n := (List.disjoint_of_nodup_append h) hx
      rw [ih h.of_append_left, List.erase_append_left _ hx,
        show bucketDel t x n = t n from List.erase_of_not_mem hxn]
    · rw [linked_bucketDel_of_notMem hx, List.erase_append_right _ hx]
      rfl

/-! ## Chaining -/

/-- **A table chains a list**: each list of the table has the elements with its key, in
order. -/
def Chains (key : α → ℕ) (t : ℕ → List α) (l : List α) : Prop :=
  ∀ i, t i = l.filter (fun x => key x = i)

section Chains

variable {key : α → ℕ} {t : ℕ → List α} {l l' : List α} {P : α → Bool} {i : ℕ}

omit [DecidableEq α] in
/-- **A search in one list of the table is a search in all**, for what has the key of that
list. -/
theorem Chains.find?_eq (h : Chains key t l) (hP : ∀ x ∈ l, P x = true → key x = i) :
    (t i).find? P = l.find? P := by
  rw [h i, List.find?_filter]
  refine List.find?_congr (fun x hx => ?_)
  by_cases hPx : P x = true
  · rw [hPx, decide_eq_true (hP x hx hPx)]
    rfl
  · rw [Bool.not_eq_true] at hPx
    rw [hPx]
    exact decide_eq_false (fun hboth => Bool.false_ne_true hboth.2)

omit [DecidableEq α] in
/-- An element is put in front. -/
theorem Chains.bucketAdd (h : Chains key t l) (x : α) :
    Chains key (bucketAdd t (key x) x) (x :: l) := by
  intro i
  show Function.update t (key x) (x :: t (key x)) i = _
  by_cases hi : i = key x
  · rw [hi, Function.update_self, h (key x), List.filter_cons, if_pos (decide_eq_true rfl)]
  · rw [Function.update_of_ne hi, h i, List.filter_cons,
      if_neg (fun he => hi (of_decide_eq_true he).symm)]

/-- An element is taken out. -/
theorem Chains.bucketDel (h : Chains key t l) (hn : l.Nodup) (x : α) :
    Chains key (bucketDel t x) (l.erase x) := by
  intro i
  show (t i).erase x = _
  rw [h i, (hn.filter _).erase_eq_filter, hn.erase_eq_filter, List.filter_comm]

omit [DecidableEq α] in
/-- A search for what only one element is does not depend on the order. -/
theorem find?_eq_of_perm (h : l.Perm l') (hone : ∀ x ∈ l, ∀ y ∈ l, P x = true → P y = true → x = y) :
    l.find? P = l'.find? P := by
  cases hl : l.find? P with
  | none =>
    refine (List.find?_eq_none.mpr (fun x hx => ?_)).symm
    exact List.find?_eq_none.mp hl x (h.mem_iff.mpr hx)
  | some x =>
    have hx := List.mem_of_find?_eq_some hl
    have hPx := List.find?_some hl
    cases hl' : l'.find? P with
    | none => exact absurd hPx (List.find?_eq_none.mp hl' x (h.mem_iff.mp hx))
    | some y =>
      have hy := h.mem_iff.mpr (List.mem_of_find?_eq_some hl')
      rw [hone x hx y hy hPx (List.find?_some hl')]

end Chains

/-! ## Walking a list while its elements are unlinked -/

/-- The element after one in a list, none at the end. -/
def listNext : List α → α → Option α
  | [], _ => none
  | y :: l, x => if y = x then l.head? else listNext l x

variable {σ : Type*}

/-- The loop of `list_for_each_entry_safe`: at `pos`, with the element after it
already fetched. The body is free to unlink `pos`. -/
def forEachSafeLoop (list : σ → List α) (body : σ → α → σ) :
    ℕ → σ → Option α → Option α → σ
  | 0, s, _, _ => s
  | _ + 1, s, none, _ => s
  | fuel + 1, s, some pos, n =>
    let s := body s pos
    forEachSafeLoop list body fuel s n (n.bind (listNext (list s)))

/-- Walk a list that is part of a state, with a body that may unlink the element
it is given. -/
def forEachSafe (list : σ → List α) (body : σ → α → σ) (s : σ) : σ :=
  let pos := (list s).head?
  forEachSafeLoop list body (list s).length s pos (pos.bind (listNext (list s)))

/-- **The walk meets each element once**: where the body unlinks exactly the
element it is given, the walk is the fold over the list as it was at the start,
and keeps what the body keeps. -/
theorem forEachSafe_eq_foldl {list : σ → List α} {body : σ → α → σ} {P : σ → Prop}
    (hP : ∀ s x, P s → x ∈ list s → P (body s x))
    (hbody : ∀ s x, P s → x ∈ list s → list (body s x) = (list s).erase x)
    {s : σ} (hs : P s) :
    forEachSafe list body s = (list s).foldl body s ∧ P (forEachSafe list body s) := by
  have key : ∀ (l : List α) (s : σ), P s → list s = l →
      forEachSafeLoop list body l.length s l.head? (l.head?.bind (listNext l))
          = l.foldl body s
        ∧ P (l.foldl body s) := by
    intro l
    induction l with
    | nil => exact fun s hs _ => ⟨rfl, hs⟩
    | cons x rest ih =>
      intro s hs hl
      have hx : x ∈ list s := hl ▸ List.mem_cons_self
      have hrest : list (body s x) = rest := by
        rw [hbody s x hs hx, hl, List.erase_cons_head]
      have hnext : listNext (x :: rest) x = rest.head? := if_pos rfl
      obtain ⟨he, hp⟩ := ih (body s x) (hP s x hs hx) hrest
      refine ⟨?_, hp⟩
      rw [List.foldl_cons, ← he]
      show forEachSafeLoop list body rest.length (body s x) (listNext (x :: rest) x)
        ((listNext (x :: rest) x).bind (listNext (list (body s x)))) = _
      rw [hnext, hrest]
  obtain ⟨he, hp⟩ := key (list s) s hs rfl
  have hwalk : forEachSafe list body s = (list s).foldl body s := he
  exact ⟨hwalk, by rw [hwalk]; exact hp⟩

/-- **The walk empties the list** whose elements its body unlinks. -/
theorem list_forEachSafe {list : σ → List α} {body : σ → α → σ} {P : σ → Prop}
    (hP : ∀ s x, P s → x ∈ list s → P (body s x))
    (hbody : ∀ s x, P s → x ∈ list s → list (body s x) = (list s).erase x)
    {s : σ} (hs : P s) : list (forEachSafe list body s) = [] := by
  rw [(forEachSafe_eq_foldl hP hbody hs).1]
  generalize hl : list s = l
  induction l generalizing s with
  | nil => exact hl
  | cons x rest ih =>
    have hx : x ∈ list s := hl ▸ List.mem_cons_self
    refine ih (hP s x hs hx) ?_
    rw [hbody s x hs hx, hl, List.erase_cons_head]

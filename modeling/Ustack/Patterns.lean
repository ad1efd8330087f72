import Mathlib.Data.List.Forall2

/-!
# Waiting for a pattern

A machine that waits for the first of a list of conditions, then for the second, and
so on, one condition an input at most. It has seen all of them when the list embeds in
its inputs, order kept and each input used once: waiting greedily misses nothing.
-/

variable {α : Type*}

/-- The conditions still waited for after an input. -/
def awaitStep (x : α) : List (α → Bool) → List (α → Bool)
  | [] => []
  | p :: ps => if p x then ps else p :: ps

/-- The conditions still waited for after a list of inputs. -/
def await (ps : List (α → Bool)) (l : List α) : List (α → Bool) :=
  l.foldl (fun ps x => awaitStep x ps) ps

/-- **A pattern occurs in a list**: it is met by some of the elements, in order. -/
abbrev Occurs (ps : List (α → Bool)) (l : List α) : Prop :=
  List.SublistForall₂ (fun p x => p x = true) ps l

variable {p : α → Bool} {ps : List (α → Bool)} {x : α} {l : List α}

@[simp] theorem await_nil (l : List α) : await [] l = [] := by
  induction l with
  | nil => rfl
  | cons x l ih => exact ih

@[simp] theorem await_cons_nil : await (p :: ps) [] = p :: ps := rfl

theorem await_cons (ps : List (α → Bool)) (x : α) (l : List α) :
    await ps (x :: l) = await (awaitStep x ps) l := rfl

/-- A pattern with its first condition dropped occurs where the pattern does. -/
theorem occurs_tail (h : Occurs (p :: ps) l) : Occurs ps l := by
  induction l with
  | nil => cases h
  | cons x l ih =>
    cases h with
    | cons _ h => exact h.cons_right
    | cons_right h => exact (ih h).cons_right

/-- Dropping the first element, if it meets the first condition, drops that too. -/
theorem occurs_cons_of_true (hx : p x = true) : Occurs (p :: ps) (x :: l) ↔ Occurs ps l := by
  refine ⟨fun h => ?_, fun h => h.cons hx⟩
  cases h with
  | cons _ h => exact h
  | cons_right h => exact occurs_tail h

/-- An element that does not meet the first condition is not used for it. -/
theorem occurs_cons_of_false (hx : p x = false) :
    Occurs (p :: ps) (x :: l) ↔ Occurs (p :: ps) l := by
  refine ⟨fun h => ?_, fun h => h.cons_right⟩
  cases h with
  | cons hp _ => exact absurd (hx.symm.trans hp) Bool.false_ne_true
  | cons_right h => exact h

/-- **A machine that waits greedily has seen the pattern when it occurs.** -/
theorem await_eq_nil_iff (ps : List (α → Bool)) (l : List α) :
    await ps l = [] ↔ Occurs ps l := by
  induction l generalizing ps with
  | nil =>
    cases ps with
    | nil => simp [List.SublistForall₂.nil]
    | cons p ps => exact ⟨fun h => absurd h (by simp), fun h => by cases h⟩
  | cons x l ih =>
    cases ps with
    | nil => simp [List.SublistForall₂.nil]
    | cons p ps =>
      rw [await_cons, ih, awaitStep]
      by_cases hx : p x = true
      · rw [if_pos hx, occurs_cons_of_true hx]
      · rw [if_neg hx, occurs_cons_of_false (by simpa using hx)]

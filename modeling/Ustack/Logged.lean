import Mathlib.Tactic

/-!
# Computations that log what they touch

A value together with the list of what was touched on the way to it. Computations compose
as in any writer monad, and a property of everything touched goes through the composition
step by step (`Logged.all_bind`), with the value of what was computed so far.
-/

universe u

/-- **A value, and what was touched on the way to it.** -/
structure Logged (ι α : Type*) where
  /-- The value. -/
  value : α
  /-- What was touched, in order. -/
  log : List ι

namespace Logged

variable {ι : Type*} {α β : Type u}

instance : Monad (Logged ι) where
  pure a := ⟨a, []⟩
  bind x f := ⟨(f x.value).value, x.log ++ (f x.value).log⟩

@[simp]
theorem value_pure (a : α) : (pure a : Logged ι α).value = a := rfl

@[simp]
theorem value_bind (x : Logged ι α) (f : α → Logged ι β) :
    (x >>= f).value = (f x.value).value := rfl

@[simp]
theorem value_ite (c : Prop) {dec : Decidable c} (x y : Logged ι α) :
    (if c then x else y).value = if c then x.value else y.value := by
  split <;> rfl

/-- Everything touched has a property. -/
def All (P : ι → Prop) (x : Logged ι α) : Prop := ∀ i ∈ x.log, P i

variable {P : ι → Prop}

@[simp]
theorem all_pure (a : α) : (pure a : Logged ι α).All P ↔ True :=
  ⟨fun _ => trivial, fun _ _ hi => absurd hi List.not_mem_nil⟩

/-- **One computation after another.** -/
@[simp]
theorem all_bind (x : Logged ι α) (f : α → Logged ι β) :
    (x >>= f).All P ↔ x.All P ∧ (f x.value).All P :=
  List.forall_mem_append

@[simp]
theorem all_ite (c : Prop) {dec : Decidable c} (x y : Logged ι α) :
    (if c then x else y).All P ↔ if c then x.All P else y.All P := by
  split <;> rfl

end Logged

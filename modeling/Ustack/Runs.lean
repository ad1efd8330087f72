import Mathlib.Tactic

/-!
# Runs of a labelled transition system

A system has initial states and labelled steps; a run is the list of the labels
it took. The labels carry whatever the environment decides at a step, so a
property of every run is a property under every environment.

`System.invariant` is the one induction every safety result rests on: what
holds initially and survives each step holds in every reachable state.
-/

variable {σ ι : Type*}

/-- **A labelled transition system.** -/
structure System (σ ι : Type*) where
  /-- The initial states. -/
  init : σ → Prop
  /-- The steps, with what the environment chose. -/
  step : σ → ι → σ → Prop

namespace System

/-- `S.Run s ls t`: the system gets from `s` to `t` by steps labelled `ls`. -/
inductive Run (S : System σ ι) (s : σ) : List ι → σ → Prop
  | nil : Run S s [] s
  | snoc {ls : List ι} {t u : σ} {l : ι} :
      Run S s ls t → S.step t l u → Run S s (ls ++ [l]) u

/-- The states some run from an initial state ends in. -/
def Reachable (S : System σ ι) (t : σ) : Prop :=
  ∃ s ls, S.init s ∧ S.Run s ls t

variable {S : System σ ι}

theorem Run.single {s t : σ} {l : ι} (h : S.step s l t) : S.Run s [l] t :=
  Run.snoc Run.nil h

theorem Run.append {s t u : σ} {ls ms : List ι} (h : S.Run s ls t)
    (h' : S.Run t ms u) : S.Run s (ls ++ ms) u := by
  induction h' with
  | nil => rwa [List.append_nil]
  | snoc _ hstep ih => rw [← List.append_assoc]; exact ih.snoc hstep

theorem Reachable.of_init {s : σ} (h : S.init s) : S.Reachable s :=
  ⟨s, [], h, Run.nil⟩

theorem Reachable.step {s t : σ} {l : ι} (h : S.Reachable s) (h' : S.step s l t) :
    S.Reachable t := by
  obtain ⟨s₀, ls, hi, hr⟩ := h
  exact ⟨s₀, ls ++ [l], hi, hr.snoc h'⟩

/-- What every step keeps, every run keeps. -/
theorem Run.invariant {P : σ → Prop}
    (hstep : ∀ s l t, P s → S.step s l t → P t)
    {s t : σ} {ls : List ι} (h : S.Run s ls t) (hs : P s) : P t := by
  induction h with
  | nil => exact hs
  | snoc _ hst ih => exact hstep _ _ _ ih hst

/-- **What holds initially and survives each step holds always.** -/
theorem invariant {P : σ → Prop} (hinit : ∀ s, S.init s → P s)
    (hstep : ∀ s l t, P s → S.step s l t → P t) {t : σ} (h : S.Reachable t) :
    P t := by
  obtain ⟨s, ls, hi, hr⟩ := h
  exact hr.invariant hstep (hinit s hi)

/-- What holds initially and survives each step from a reachable state holds always. -/
theorem invariant_of_reachable {P : σ → Prop} (hinit : ∀ s, S.init s → P s)
    (hstep : ∀ s l t, S.Reachable s → P s → S.step s l t → P t) {t : σ} (h : S.Reachable t) :
    P t := by
  have hboth := S.invariant (P := fun s => S.Reachable s ∧ P s)
    (fun s hs => ⟨.of_init hs, hinit s hs⟩)
    (fun s l t ⟨hr, hp⟩ hst => ⟨hr.step hst, hstep s l t hr hp hst⟩) h
  exact hboth.2

/-- **A simulation**: where every step of one system is a step of another one, or none, so is
every run. -/
theorem Reachable.simulate {τ κ : Type*} {T : System τ κ} {R : σ → τ → Prop}
    (hinit : ∀ s, S.init s → ∃ t, T.init t ∧ R s t)
    (hstep : ∀ s l s' t, T.Reachable t → R s t → S.step s l s' →
      R s' t ∨ ∃ k t', T.step t k t' ∧ R s' t')
    {s : σ} (h : S.Reachable s) : ∃ t, T.Reachable t ∧ R s t := by
  refine System.invariant (P := fun s => ∃ t, T.Reachable t ∧ R s t) (fun s hs => ?_)
    (fun s l s' ⟨t, ht, hR⟩ hst => ?_) h
  · obtain ⟨t, ht, hR⟩ := hinit s hs
    exact ⟨t, .of_init ht, hR⟩
  · obtain hR' | ⟨k, t', hst', hR'⟩ := hstep s l s' t ht hR hst
    · exact ⟨t, ht, hR'⟩
    · exact ⟨t', ht.step hst', hR'⟩

/-- The system that only takes steps meeting a condition. -/
def restrict (S : System σ ι) (C : σ → ι → Prop) : System σ ι where
  init := S.init
  step s l t := C s l ∧ S.step s l t

theorem Run.of_restrict {C : σ → ι → Prop} {s t : σ} {ls : List ι}
    (h : (S.restrict C).Run s ls t) : S.Run s ls t := by
  induction h with
  | nil => exact Run.nil
  | snoc _ hst ih => exact ih.snoc hst.2

theorem Reachable.of_restrict {C : σ → ι → Prop} {t : σ} (h : (S.restrict C).Reachable t) :
    S.Reachable t := by
  obtain ⟨s, ls, hi, hr⟩ := h
  exact ⟨s, ls, hi, hr.of_restrict⟩

end System

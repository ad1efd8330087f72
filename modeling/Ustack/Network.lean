import Ustack.Runs

/-!
# Hosts and a wire

A network of hosts that put messages on a wire and take messages from it. What is on the wire
stays there, and a host may take any of it at any time: messages are delayed, reordered,
received by several hosts or more than once, and what nobody takes is lost.

The rule of such a network is that each host may rely on what all hosts guarantee
(`Protocol.invariant`): if every host keeps its own invariant and puts only good messages on
the wire, as long as the messages it takes are good, then in every run every message is good
and every host keeps its invariant.
-/

/-- **The hosts of a network**: what each starts as, does on its own, and does with a message. -/
structure Protocol (ι σ μ α : Type*) where
  /-- What a host starts as. -/
  init : ι → σ → Prop
  /-- What it does on its own, and the messages it sends. -/
  act : ι → σ → α → σ → List μ → Prop
  /-- What it does with a message, and the messages it sends. -/
  receive : ι → σ → μ → σ → List μ → Prop

/-- The hosts, and what has been sent. -/
structure NetworkState (ι σ μ : Type*) where
  /-- The hosts. -/
  host : ι → σ
  /-- What is on the wire. -/
  wire : List μ

/-- What happens next in a network. -/
inductive NetworkLabel (ι μ α : Type*)
  /-- A host does something on its own. -/
  | act (i : ι) (a : α)
  /-- A host takes a message. -/
  | receive (i : ι) (m : μ)

namespace Protocol

variable {ι σ μ α : Type*} [DecidableEq ι]

/-- A host goes on, and its messages are on the wire. -/
def next (s : NetworkState ι σ μ) (i : ι) (t : σ) (out : List μ) : NetworkState ι σ μ where
  host := Function.update s.host i t
  wire := s.wire ++ out

/-- **A network in any order of steps.** -/
def system (P : Protocol ι σ μ α) : System (NetworkState ι σ μ) (NetworkLabel ι μ α) where
  init s := (∀ i, P.init i (s.host i)) ∧ s.wire = []
  step s l s' :=
    match l with
    | .act i a => ∃ t out, P.act i (s.host i) a t out ∧ s' = next s i t out
    | .receive i m => m ∈ s.wire ∧ ∃ t out, P.receive i (s.host i) m t out ∧ s' = next s i t out

variable {P : Protocol ι σ μ α} {s : NetworkState ι σ μ} {i : ι} {t : σ} {out : List μ}

/-- A host may do something on its own. -/
theorem reachable_act (h : P.system.Reachable s) {a : α} (hact : P.act i (s.host i) a t out) :
    P.system.Reachable (next s i t out) :=
  h.step (l := .act i a) ⟨t, out, hact, rfl⟩

/-- A host may take a message. -/
theorem reachable_receive (h : P.system.Reachable s) {m : μ} (hm : m ∈ s.wire)
    (hreceive : P.receive i (s.host i) m t out) : P.system.Reachable (next s i t out) :=
  h.step (l := .receive i m) ⟨hm, t, out, hreceive, rfl⟩

/-- **What the hosts guarantee one another.** -/
structure Guarantees (P : Protocol ι σ μ α) (H : ι → σ → Prop) (M : μ → Prop) : Prop where
  /-- It holds at the start. -/
  init : ∀ i t, P.init i t → H i t
  /-- What a host does on its own keeps it. -/
  act : ∀ i t a t' out, H i t → P.act i t a t' out → H i t' ∧ ∀ m ∈ out, M m
  /-- What it does with a good message keeps it. -/
  receive : ∀ i t m t' out, H i t → M m → P.receive i t m t' out → H i t' ∧ ∀ m ∈ out, M m

/-- **What the hosts guarantee one another holds in every run.** -/
theorem Guarantees.invariant {P : Protocol ι σ μ α} {H : ι → σ → Prop} {M : μ → Prop}
    (hg : P.Guarantees H M) {s : NetworkState ι σ μ} (h : P.system.Reachable s) :
    (∀ i, H i (s.host i)) ∧ ∀ m ∈ s.wire, M m := by
  refine System.invariant (P := fun s : NetworkState ι σ μ =>
    (∀ i, H i (s.host i)) ∧ ∀ m ∈ s.wire, M m) ?_ ?_ h
  · rintro s ⟨hinit, hwire⟩
    refine ⟨fun i => hg.init i _ (hinit i), ?_⟩
    rw [hwire]
    exact fun m hm => absurd hm List.not_mem_nil
  · rintro s l s' ⟨hhost, hwire⟩ hst
    -- one host goes on
    have hnext : ∀ i t out, (H i t ∧ ∀ m ∈ out, M m) →
        (∀ j, H j ((next s i t out).host j)) ∧ ∀ m ∈ (next s i t out).wire, M m := by
      rintro i t out ⟨ht, hout⟩
      refine ⟨fun j => ?_, fun m hm => (List.mem_append.mp hm).elim (hwire m) (hout m)⟩
      show H j (Function.update s.host i t j)
      by_cases hj : j = i
      · rw [hj, Function.update_self]
        exact ht
      · rw [Function.update_of_ne hj]
        exact hhost j
    cases l with
    | act i a =>
      obtain ⟨t, out, hact, rfl⟩ := hst
      exact hnext i t out (hg.act i _ a t out (hhost i) hact)
    | receive i m =>
      obtain ⟨hm, t, out, hreceive, rfl⟩ := hst
      exact hnext i t out (hg.receive i _ m t out (hhost i) (hwire m hm) hreceive)

end Protocol

import Mathlib.Data.Nat.Notation
import Mathlib.Data.Option.Basic
import Mathlib.Logic.Relation

/-!
# Runs of a step function

A machine is a partial function `f` that makes one step. `Leads f a b` says that steps of `f` lead
from `a` to `b`; as `f` is a function, a machine in `a` cannot but arrive at `b`. Steps that can be
computed are taken together (`Leads.of_iter`), rounds of a loop are taken together
(`Leads.rounds`), and a machine that simulates each step arrives at a simulating state
(`Leads.simulate`). What no step changes is the same at the end (`Leads.keeps`).
-/

universe u v

variable {α : Type u} {β : Type v}

/-- Steps of `f` lead from the first state to the second. -/
def Leads (f : α → Option α) : α → α → Prop := Relation.ReflTransGen fun a b => f a = some b

/-- `n` steps. -/
def stepIter (f : α → Option α) : ℕ → α → Option α
  | 0, a => some a
  | n + 1, a => (f a).bind (stepIter f n)

namespace Leads

variable {f : α → Option α} {g : β → Option β} {a b c : α}

/-- No step at all leads back to the start. -/
lemma refl (f : α → Option α) (a : α) : Leads f a a := Relation.ReflTransGen.refl

/-- What leads on from where one has come is reached from the start. -/
lemma trans (h : Leads f a b) (h' : Leads f b c) : Leads f a c := Relation.ReflTransGen.trans h h'

/-- One step leads to its result. -/
lemma single (h : f a = some b) : Leads f a b := Relation.ReflTransGen.single h

/-- A step and the run from its result are a run. -/
lemma head (h : f a = some b) (h' : Leads f b c) : Leads f a c := (single h).trans h'

/-- Steps that have been computed, a given number of them, lead to their result. -/
lemma of_iter {n : ℕ} (h : stepIter f n a = some b) : Leads f a b := by
  induction n generalizing a with
  | zero =>
    obtain rfl := Option.some.inj h
    exact refl f a
  | succ n ih =>
    obtain ⟨a₁, hstep, hrest⟩ := Option.bind_eq_some_iff.1 h
    exact head hstep (ih hrest)

/-- The loop rule: if each round keeps the invariant, so do `n` rounds. -/
theorem rounds {I : ℕ → α → Prop} {n : ℕ}
    (hround : ∀ i < n, ∀ a, I i a → ∃ b, Leads f a b ∧ I (i + 1) b) (ha : I 0 a) :
    ∃ b, Leads f a b ∧ I n b := by
  induction n with
  | zero => exact ⟨a, refl f a, ha⟩
  | succ n ih =>
    obtain ⟨b, hab, hb⟩ := ih fun i hi => hround i (Nat.lt_succ_of_lt hi)
    obtain ⟨c, hbc, hc⟩ := hround n (Nat.lt_succ_self n) b hb
    exact ⟨c, hab.trans hbc, hc⟩

/-- The simulation rule: a machine that answers each step by steps of its own ends in a related
state. -/
theorem simulate {R : α → β → Prop} {t : β}
    (hR : ∀ a b t, R a t → f a = some b → ∃ t', Leads g t t' ∧ R b t') (h : Leads f a b)
    (ht : R a t) : ∃ t', Leads g t t' ∧ R b t' := by
  induction h with
  | refl => exact ⟨t, refl g t, ht⟩
  | tail _ hstep ih =>
    obtain ⟨t₁, hlead, hrel⟩ := ih
    obtain ⟨t', hlead', hrel'⟩ := hR _ _ t₁ hrel hstep
    exact ⟨t', hlead.trans hlead', hrel'⟩

/-- What each step keeps, a run keeps, however many steps it has. -/
lemma keeps {v : α → β} (hv : ∀ {x y}, f x = some y → v y = v x) (h : Leads f a b) :
    v b = v a := by
  induction h with
  | refl => rfl
  | tail _ hstep ih => exact (hv hstep).trans ih

end Leads

import Mathlib.Data.Nat.Notation
import Mathlib.Logic.Basic

/-!
# Runs of a labelled transition relation

`Run step c tr c'` says that `c'` is reached from `c` by the steps recorded in `tr`, each entry
being the configuration a step starts in and the label of the step. Besides the usual invariant
rule there is a rule for a property that is *not* invariant: if one step keeps the property exactly
when it meets a condition, then the property holds all along a run exactly when every step of the
run meets the condition (`Run.forall_iff`).
-/

universe u v w

/-- `Run step c tr c'`: the steps `tr` lead from `c` to `c'`. -/
inductive Run {κ : Type u} {ι : Type v} (step : κ → ι → κ → Prop) :
    κ → List (κ × ι) → κ → Prop where
  | refl (c : κ) : Run step c [] c
  | head {c c' c'' : κ} {a : ι} {tr : List (κ × ι)} (h : step c a c') (t : Run step c' tr c'') :
      Run step c ((c, a) :: tr) c''

namespace Run

variable {κ : Type u} {ι : Type v} {step : κ → ι → κ → Prop} {c c' c'' : κ}
  {tr tr' : List (κ × ι)}

/-- The first step of a run whose labels are known. -/
lemma uncons {a : ι} {as : List ι} (h : Run step c tr c') (htr : tr.map Prod.snd = a :: as) :
    ∃ c₁ tr₁, step c a c₁ ∧ Run step c₁ tr₁ c' ∧ tr₁.map Prod.snd = as := by
  cases h with
  | refl => exact absurd htr (List.cons_ne_nil _ _).symm
  | @head c c₁ c₂ x tr₁ hx t =>
    obtain ⟨rfl, rfl⟩ := List.cons.inj htr
    exact ⟨c₁, tr₁, hx, t, rfl⟩

/-- What every step says of its label holds of all labels. -/
lemma forall_labels {Q : ι → Prop} (hQ : ∀ c a c', step c a c' → Q a) (h : Run step c tr c') :
    ∀ a ∈ tr.map Prod.snd, Q a := by
  induction h with
  | refl c => simp
  | head hstep _ ih => exact List.forall_mem_cons.2 ⟨hQ _ _ _ hstep, ih⟩

/-- A run whose labels come from other labels is a run with those. -/
lemma relabel {ι' : Type w} {S : κ → ι' → κ → Prop} {f : ι' → ι}
    (hstep : ∀ c x c', step c (f x) c' → S c x c') {xs : List ι'}
    (h : Run step c tr c') (htr : tr.map Prod.snd = xs.map f) :
    ∃ tr', tr'.map Prod.snd = xs ∧ Run S c tr' c' := by
  induction xs generalizing c tr with
  | nil =>
    obtain rfl := List.map_eq_nil_iff.1 htr
    cases h
    exact ⟨[], rfl, .refl _⟩
  | cons x xs ih =>
    obtain ⟨c₁, tr₁, hx, hrun, htr₁⟩ := h.uncons htr
    obtain ⟨tr', htr', hrun'⟩ := ih hrun htr₁
    exact ⟨(c, x) :: tr', congrArg (x :: ·) htr', .head (hstep c x c₁ hx) hrun'⟩

/-- The property `P` holds in every configuration of the run, the last one included. -/
def Throughout (P : κ → Prop) (tr : List (κ × ι)) (last : κ) : Prop :=
  (∀ e ∈ tr, P e.1) ∧ P last

/-- Runs compose: a run from the last state of another goes on with it. -/
lemma trans (h : Run step c tr c') (t : Run step c' tr' c'') : Run step c (tr ++ tr') c'' := by
  induction h with
  | refl c => exact t
  | head hstep _ ih => exact .head hstep (ih t)

/-- The invariant rule: what every step preserves holds throughout a run. -/
theorem invariant {I : κ → Prop} (hI : ∀ c a c', I c → step c a c' → I c')
    (h : Run step c tr c') (hc : I c) : Throughout I tr c' := by
  induction h with
  | refl c => exact ⟨by simp, hc⟩
  | head hstep _ ih =>
    obtain ⟨htr, hlast⟩ := ih (hI _ _ _ hc hstep)
    exact ⟨List.forall_mem_cons.2 ⟨hc, htr⟩, hlast⟩

/-- The invariant rule for steps that meet a condition. -/
theorem invariant_of_forall {I : κ → Prop} {C : κ → ι → Prop}
    (hI : ∀ c a c', I c → C c a → step c a c' → I c')
    (h : Run step c tr c') (hC : ∀ e ∈ tr, C e.1 e.2) (hc : I c) : Throughout I tr c' := by
  induction h with
  | refl c => exact ⟨by simp, hc⟩
  | head hstep _ ih =>
    rw [List.forall_mem_cons] at hC
    obtain ⟨htr, hlast⟩ := ih hC.2 (hI _ _ _ hc hC.1 hstep)
    exact ⟨List.forall_mem_cons.2 ⟨hc, htr⟩, hlast⟩

/-- The invariant rule for an invariant about the log of a run, where `log c a` is what the step `a`
out of `c` enters. -/
theorem logged {β : Type w} {log : κ → ι → List β} {I : List β → κ → Prop}
    (hI : ∀ l c a c', I l c → step c a c' → I (l ++ log c a) c')
    (h : Run step c tr c') {l : List β} (hc : I l c) :
    I (l ++ tr.flatMap fun e => log e.1 e.2) c' := by
  induction h generalizing l with
  | refl c =>
    rw [List.flatMap_nil, List.append_nil]
    exact hc
  | head hstep _ ih =>
    have htail := ih (hI _ _ _ _ hc hstep)
    rwa [List.append_assoc] at htail

/-- What holds throughout a run holds in its first configuration. -/
lemma Throughout.first {P : κ → Prop} (h : Run step c tr c') (hP : Throughout P tr c') : P c := by
  cases h with
  | refl => exact hP.2
  | head => exact hP.1 _ (List.mem_cons_self ..)

/-- The exact-condition rule: if, under the invariant `I`, a step out of a `P`-configuration keeps
`P` exactly when it meets `C`, then `P` holds throughout a run exactly when all steps meet `C`. -/
theorem forall_iff {I P : κ → Prop} {C : κ → ι → Prop}
    (hI : ∀ c a c', I c → step c a c' → I c')
    (hP : ∀ c a c', I c → P c → step c a c' → (P c' ↔ C c a))
    (h : Run step c tr c') (hIc : I c) (hPc : P c) :
    Throughout P tr c' ↔ ∀ e ∈ tr, C e.1 e.2 := by
  induction h with
  | refl c => simp [Throughout, hPc]
  | @head c c₁ c₂ a tr hstep hrun ih =>
    have hI₁ : I c₁ := hI c a c₁ hIc hstep
    have hiff : P c₁ ↔ C c a := hP c a c₁ hIc hPc hstep
    rw [List.forall_mem_cons]
    constructor
    · intro hall
      have htail : Throughout P tr c₂ := ⟨(List.forall_mem_cons.1 hall.1).2, hall.2⟩
      have hP₁ : P c₁ := htail.first hrun
      exact ⟨hiff.1 hP₁, (ih hI₁ hP₁).1 htail⟩
    · rintro ⟨hC, htail⟩
      obtain ⟨htr, hlast⟩ := (ih hI₁ (hiff.2 hC)).2 htail
      exact ⟨List.forall_mem_cons.2 ⟨hPc, htr⟩, hlast⟩

/-! ## Deterministic steps -/

/-- Perform the given steps one after the other. -/
def follow (f : ι → κ → Option κ) : List ι → κ → Option κ
  | [], c => some c
  | a :: as, c => (f a c).bind (follow f as)

/-- Following a function step by step gives a run of its relation, with the labels in order. -/
theorem of_follow {f : ι → κ → Option κ} {as : List ι} (h : follow f as c = some c') :
    ∃ tr, tr.map Prod.snd = as ∧ Run (fun c a c' => f a c = some c') c tr c' := by
  induction as generalizing c with
  | nil =>
    obtain rfl := Option.some.inj h
    exact ⟨[], rfl, .refl _⟩
  | cons a as ih =>
    obtain ⟨c₁, hstep, hrest⟩ := Option.bind_eq_some_iff.1 h
    obtain ⟨tr, htr, hrun⟩ := ih hrest
    exact ⟨(c, a) :: tr, congrArg (a :: ·) htr, .head hstep hrun⟩

end Run

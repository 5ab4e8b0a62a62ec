import Mathlib.Data.Nat.Notation
import Mathlib.Logic.Basic
import Mathlib.Data.Option.Basic

/-!
# Programs over a set of operations

A program is a tree of operations: each node performs one operation of a signature and continues
with the answer it gets. A *handler* says what one operation does to a state, and `Prog.run`
executes a program under a handler. Keeping the tree apart from the handler pays three times. An
invariant of the single operations is an invariant of every program (`Prog.run_invariant`); a
relation kept by the single operations is kept by every program (`Prog.run_simulates`); and the same
tree can be run with the steps of another party in between (`Prog.interrupt`), or with each
operation split into smaller ones (`Prog.expand`).

Operations may fail (`none`), which ends the run.
-/

universe u v w x y

/-- Programs with operations `Op`, where the operation `o` is answered by an element of `Res o`. -/
inductive Prog (Op : Type u) (Res : Op → Type v) (α : Type w) : Type (max u v w) where
  | done (a : α) : Prog Op Res α
  | node (o : Op) (k : Res o → Prog Op Res α) : Prog Op Res α

namespace Prog

variable {Op : Type u} {Res : Op → Type v} {α β : Type w} {σ τ : Type x}

/-- What one operation does: its answer and the next state, or failure. -/
abbrev Handler (Op : Type u) (Res : Op → Type v) (σ : Type x) : Type (max u v x) :=
  (o : Op) → σ → Option (Res o × σ)

/-- Sequencing of programs. -/
protected def bind (p : Prog Op Res α) (f : α → Prog Op Res β) : Prog Op Res β :=
  match p with
  | .done a => f a
  | .node o k => .node o fun r => (k r).bind f

instance : Monad (Prog Op Res) where
  pure := .done
  bind := Prog.bind

@[simp] lemma pure_eq_done (a : α) : (pure a : Prog Op Res α) = .done a := rfl

@[simp] lemma done_bind (a : α) (f : α → Prog Op Res β) :
    ((Prog.done a : Prog Op Res α) >>= f) = f a := rfl

@[simp] lemma node_bind (o : Op) (k : Res o → Prog Op Res α) (f : α → Prog Op Res β) :
    (Prog.node o k >>= f) = .node o fun r => k r >>= f := rfl

/-- To map a function over the result is to return it with the function applied. -/
lemma map_eq_bind (f : α → β) (p : Prog Op Res α) : f <$> p = p >>= fun a => .done (f a) := rfl

/-- A program followed by nothing is the program. -/
lemma bind_done (p : Prog Op Res α) : p >>= .done = p := by
  induction p with
  | done a => rfl
  | node o k ih => exact congrArg (Prog.node o) (funext ih)

/-- Of three programs in a row, it does not matter which two are put together first. -/
lemma bind_assoc {γ : Type w} (p : Prog Op Res α) (f : α → Prog Op Res β)
    (g : β → Prog Op Res γ) : (p >>= f) >>= g = p >>= fun a => f a >>= g := by
  induction p with
  | done a => rfl
  | node o k ih => exact congrArg (Prog.node o) (funext ih)

/-! ## Execution -/

/-- Execute a program under a handler. -/
def run (h : Handler Op Res σ) : Prog Op Res α → σ → Option (α × σ)
  | .done a, s => some (a, s)
  | .node o k, s => (h o s).bind fun y => run h (k y.1) y.2

/-- The operations a run performs, in order, each with its answer. -/
def trace (h : Handler Op Res σ) : Prog Op Res α → σ → List (Σ o, Res o)
  | .done _, _ => []
  | .node o k, s =>
      match h o s with
      | none => []
      | some (r, s') => ⟨o, r⟩ :: trace h (k r) s'

variable {h : Handler Op Res σ}

@[simp] lemma run_done (a : α) (s : σ) : (Prog.done a : Prog Op Res α).run h s = some (a, s) := rfl

@[simp] lemma run_node (o : Op) (k : Res o → Prog Op Res α) (s : σ) :
    (Prog.node o k).run h s = (h o s).bind fun y => (k y.1).run h y.2 := rfl

/-- A program of one operation does what the operation does. -/
lemma run_op (o : Op) (s : σ) :
    (Prog.node o (.done : Res o → Prog Op Res (Res o))).run h s = h o s := by
  rw [run_node]
  cases h o s with
  | none => rfl
  | some y => rfl

/-- Running a sequence runs the first program and then the second from where it stopped. -/
@[simp] lemma run_bind (p : Prog Op Res α) (f : α → Prog Op Res β) (s : σ) :
    (p >>= f).run h s = (p.run h s).bind fun y => (f y.1).run h y.2 := by
  induction p generalizing s with
  | done a => rfl
  | node o k ih =>
    rw [node_bind, run_node, run_node]
    cases h o s with
    | none => rfl
    | some y => exact ih y.1 y.2

@[simp] lemma trace_done (a : α) (s : σ) : (Prog.done a : Prog Op Res α).trace h s = [] := rfl

/-- The trace of a node whose operation succeeds starts with that operation. -/
lemma trace_node_of_some {o : Op} {k : Res o → Prog Op Res α} {s s' : σ} {r : Res o}
    (ho : h o s = some (r, s')) :
    (Prog.node o k).trace h s = ⟨o, r⟩ :: (k r).trace h s' := by
  rw [trace, ho]

/-- The trace of a sequence whose first part succeeds is the two traces one after the other. -/
lemma trace_bind_of_some {p : Prog Op Res α} {f : α → Prog Op Res β} {s s' : σ} {a : α}
    (hp : p.run h s = some (a, s')) :
    (p >>= f).trace h s = p.trace h s ++ (f a).trace h s' := by
  induction p generalizing s with
  | done b =>
    obtain ⟨rfl, rfl⟩ : b = a ∧ s = s' := by simpa using hp
    rfl
  | node o k ih =>
    rw [run_node] at hp
    cases ho : h o s with
    | none => simp [ho] at hp
    | some y =>
      rw [node_bind, trace_node_of_some ho, trace_node_of_some ho, List.cons_append]
      rw [ho, Option.bind_some] at hp
      rw [ih y.1 hp]

/-! ## Invariants -/

/-- Every operation that occurs anywhere in the program satisfies `Q`. -/
def All (Q : Op → Prop) : Prog Op Res α → Prop
  | .done _ => True
  | .node o k => Q o ∧ ∀ r, All Q (k r)

/-- Every result the program can return satisfies `P`. -/
def Returns (P : α → Prop) : Prog Op Res α → Prop
  | .done a => P a
  | .node _ k => ∀ r, Returns P (k r)

@[simp] lemma all_done (Q : Op → Prop) (a : α) : (Prog.done a : Prog Op Res α).All Q := trivial

@[simp] lemma all_node (Q : Op → Prop) (o : Op) (k : Res o → Prog Op Res α) :
    (Prog.node o k).All Q ↔ Q o ∧ ∀ r, (k r).All Q := Iff.rfl

/-- All operations of a conditional have a property exactly if those of the branch that is taken do.
-/
lemma all_ite {c : Prop} [Decidable c] {Q : Op → Prop} {p q : Prog Op Res α} :
    (if c then p else q).All Q ↔ (c → p.All Q) ∧ (¬c → q.All Q) := by
  split
  · next hc => exact ⟨fun h => ⟨fun _ => h, fun hn => absurd hc hn⟩, fun h => h.1 hc⟩
  · next hc => exact ⟨fun h => ⟨fun hp => absurd hp hc, fun _ => h⟩, fun h => h.2 hc⟩

/-- The operations of a sequence are those of its parts. -/
lemma All.bind {Q : Op → Prop} {p : Prog Op Res α} {f : α → Prog Op Res β}
    (hp : p.All Q) (hf : ∀ a, (f a).All Q) : (p >>= f).All Q := by
  induction p with
  | done a => exact hf a
  | node o k ih => exact ⟨hp.1, fun r => ih r (hp.2 r)⟩

/-- A weaker demand on the operations is met where a stronger one is. -/
lemma All.mono {Q Q' : Op → Prop} (hQ : ∀ o, Q o → Q' o) {p : Prog Op Res α}
    (hp : p.All Q) : p.All Q' := by
  induction p with
  | done a => trivial
  | node o k ih => exact ⟨hQ o hp.1, fun r => ih r (hp.2 r)⟩

/-- Two demands on the operations of a program are met together. -/
lemma All.and {Q Q' : Op → Prop} {p : Prog Op Res α} (hp : p.All Q) (hp' : p.All Q') :
    p.All fun o => Q o ∧ Q' o := by
  induction p with
  | done a => trivial
  | node o k ih => exact ⟨⟨hp.1, hp'.1⟩, fun r => ih r (hp.2 r) (hp'.2 r)⟩

/-- The property that always holds holds of all operations. -/
lemma all_true (p : Prog Op Res α) : p.All fun _ => True := by
  induction p with
  | done a => trivial
  | node o k ih => exact ⟨trivial, ih⟩

@[simp] lemma returns_done (P : α → Prop) (a : α) :
    (Prog.done a : Prog Op Res α).Returns P ↔ P a := Iff.rfl

@[simp] lemma returns_node (P : α → Prop) (o : Op) (k : Res o → Prog Op Res α) :
    (Prog.node o k).Returns P ↔ ∀ r, (k r).Returns P := Iff.rfl

/-- A property of all results is one of the results a program returns. -/
lemma returns_of_forall {P : α → Prop} (hP : ∀ a, P a) (p : Prog Op Res α) : p.Returns P := by
  induction p with
  | done a => exact hP a
  | node o k ih => exact ih

/-- A sequence returns what its second part returns after any result of the first. -/
lemma returns_bind {P : β → Prop} (p : Prog Op Res α) {f : α → Prog Op Res β}
    (hf : ∀ a, (f a).Returns P) : (p >>= f).Returns P := by
  induction p with
  | done a => exact hf a
  | node o k ih => exact ih

/-- What holds of all a program can return holds of what its runs return. -/
lemma Returns.of_run {P : α → Prop} {p : Prog Op Res α} {s s' : σ} {a : α}
    (hp : p.Returns P) (hr : p.run h s = some (a, s')) : P a := by
  induction p generalizing s with
  | done b =>
    obtain ⟨rfl, -⟩ : b = a ∧ s = s' := by simpa using hr
    exact hp
  | node o k ih =>
    rw [run_node] at hr
    obtain ⟨y, -, hy⟩ := Option.bind_eq_some_iff.1 hr
    exact ih y.1 (hp y.1) hy

/-- An operation that occurs in a run occurs in the program. -/
lemma All.of_mem_trace {Q : Op → Prop} {p : Prog Op Res α} (hp : p.All Q) (s : σ) :
    ∀ e ∈ p.trace h s, Q e.1 := by
  induction p generalizing s with
  | done a => simp
  | node o k ih =>
    cases ho : h o s with
    | none => simp [trace, ho]
    | some y =>
      rw [trace_node_of_some ho, List.forall_mem_cons]
      exact ⟨hp.1, ih y.1 (hp.2 y.1) y.2⟩

/-- The invariant rule: what every performed operation preserves, the run preserves. -/
theorem run_invariant {I : σ → Prop} {Q : Op → Prop}
    (hI : ∀ o s r s', Q o → I s → h o s = some (r, s') → I s')
    {p : Prog Op Res α} {s s' : σ} {a : α} (hQ : ∀ e ∈ p.trace h s, Q e.1) (hs : I s)
    (hr : p.run h s = some (a, s')) : I s' := by
  induction p generalizing s with
  | done b =>
    obtain ⟨-, rfl⟩ : b = a ∧ s = s' := by simpa using hr
    exact hs
  | node o k ih =>
    rw [run_node] at hr
    obtain ⟨y, ho, hy⟩ := Option.bind_eq_some_iff.1 hr
    rw [trace_node_of_some ho, List.forall_mem_cons] at hQ
    exact ih y.1 hQ.2 (hI o s y.1 y.2 hQ.1 hs ho) hy

/-- The invariant rule for a demand on the program text. -/
theorem All.run_invariant {I : σ → Prop} {Q : Op → Prop}
    (hI : ∀ o s r s', Q o → I s → h o s = some (r, s') → I s')
    {p : Prog Op Res α} {s s' : σ} {a : α} (hQ : p.All Q) (hs : I s)
    (hr : p.run h s = some (a, s')) : I s' :=
  Prog.run_invariant hI (hQ.of_mem_trace s) hs hr

/-- The invariant rule for an invariant about the log of a run. If every operation takes `I l` to
`I` of the log with its own entry added, the run takes `I l` to `I` of the log with all its entries
added. -/
theorem run_logged {β : Type y} {log : Op → Option β} {I : List β → σ → Prop}
    (hI : ∀ l o s r s', I l s → h o s = some (r, s') → I (l ++ (log o).toList) s')
    {p : Prog Op Res α} {l : List β} {s s' : σ} {a : α} (hs : I l s)
    (hr : p.run h s = some (a, s')) :
    I (l ++ (p.trace h s).filterMap fun e => log e.1) s' := by
  induction p generalizing l s with
  | done b =>
    obtain ⟨-, rfl⟩ : b = a ∧ s = s' := by simpa using hr
    rw [trace_done, List.filterMap_nil, List.append_nil]
    exact hs
  | node o k ih =>
    rw [run_node] at hr
    obtain ⟨y, ho, hy⟩ := Option.bind_eq_some_iff.1 hr
    have hstep : I (l ++ (log o).toList) y.2 := hI l o s y.1 y.2 hs ho
    have hrest := ih y.1 hstep hy
    rw [List.append_assoc] at hrest
    rw [trace_node_of_some ho, List.filterMap_cons]
    cases hlog : log o with
    | none =>
      rw [hlog] at hrest
      exact hrest
    | some b =>
      rw [hlog] at hrest
      exact hrest

/-! ## Operations and the states they meet -/

/-- Every operation a run performs meets `Q` in the state in which it is performed. -/
def Along (h : Handler Op Res σ) (Q : Op → σ → Prop) : Prog Op Res α → σ → Prop
  | .done _, _ => True
  | .node o k, s => Q o s ∧ ∀ y, h o s = some y → Along h Q (k y.1) y.2

/-- No operation of `B` comes after one of `A`. -/
def NotAfter (A : Op → Bool) (B : Op → Prop) : Prog Op Res α → Prop
  | .done _ => True
  | .node o k => if A o then ∀ r, (k r).All fun o => ¬B o else ∀ r, NotAfter A B (k r)

variable {Q : Op → σ → Prop} {A : Op → Bool} {B : Op → Prop}

@[simp] lemma along_done (a : α) (s : σ) : (Prog.done a : Prog Op Res α).Along h Q s := trivial

@[simp] lemma notAfter_done (a : α) : (Prog.done a : Prog Op Res α).NotAfter A B := trivial

@[simp] lemma notAfter_node (o : Op) (k : Res o → Prog Op Res α) : (Prog.node o k).NotAfter A B ↔
    if A o then ∀ r, (k r).All fun o => ¬B o else ∀ r, (k r).NotAfter A B := Iff.rfl

/-- A conditional keeps an order of operations exactly if the branch that is taken does. -/
lemma notAfter_ite {c : Prop} [Decidable c] {p q : Prog Op Res α} :
    (if c then p else q).NotAfter A B ↔ (c → p.NotAfter A B) ∧ (¬c → q.NotAfter A B) := by
  split
  · next hc => exact ⟨fun h => ⟨fun _ => h, fun hn => absurd hc hn⟩, fun h => h.1 hc⟩
  · next hc => exact ⟨fun h => ⟨fun hp => absurd hp hc, fun _ => h⟩, fun h => h.2 hc⟩

/-- Without operations of `A`, none of `B` comes after one. -/
lemma All.notAfter {p : Prog Op Res α} (hp : p.All fun o => A o = false) : p.NotAfter A B := by
  induction p with
  | done a => trivial
  | node o k ih =>
    rw [notAfter_node, if_neg (by rw [hp.1]; exact Bool.false_ne_true)]
    exact fun r => ih r (hp.2 r)

/-- Without operations of `B`, none comes after one of `A`. -/
lemma All.notAfter_right {p : Prog Op Res α} (hp : p.All fun o => ¬B o) : p.NotAfter A B := by
  induction p with
  | done a => trivial
  | node o k ih =>
    rw [notAfter_node]
    split
    · exact hp.2
    · exact fun r => ih r (hp.2 r)

/-- The operations of a sequence are those of the first part and those of the second after it. -/
lemma Along.bind {p : Prog Op Res α} {f : α → Prog Op Res β} {s : σ} (hp : p.Along h Q s)
    (hf : ∀ a s', p.run h s = some (a, s') → (f a).Along h Q s') : (p >>= f).Along h Q s := by
  induction p generalizing s with
  | done a => exact hf a s rfl
  | node o k ih =>
    refine ⟨hp.1, fun y hy => ih y.1 (hp.2 y hy) fun a s' hr => hf a s' ?_⟩
    rw [run_node, hy, Option.bind_some]
    exact hr

/-- A weaker demand is met where a stronger one is. -/
lemma Along.mono {Q' : Op → σ → Prop} (hQ : ∀ o s, Q o s → Q' o s) {p : Prog Op Res α} {s : σ}
    (hp : p.Along h Q s) : p.Along h Q' s := by
  induction p generalizing s with
  | done a => trivial
  | node o k ih => exact ⟨hQ o s hp.1, fun y hy => ih y.1 (hp.2 y hy)⟩

/-- What holds of the operations in any state holds along the run. -/
lemma All.along {P : Op → Prop} (hQ : ∀ o s, P o → Q o s) {p : Prog Op Res α} (hp : p.All P)
    (s : σ) :
    p.Along h Q s := by
  induction p generalizing s with
  | done a => trivial
  | node o k ih => exact ⟨hQ o s hp.1, fun y _ => ih y.1 (hp.2 y.1) y.2⟩

/-- If all operations but those of `A` keep `I`, then those of `B`, which come before, find it. -/
theorem NotAfter.along {I : σ → Prop}
    (hI : ∀ o s r s', A o = false → I s → h o s = some (r, s') → I s') {p : Prog Op Res α}
    (hp : p.NotAfter A B) {s : σ} (hs : I s) : p.Along h (fun o s => B o → I s) s := by
  induction p generalizing s with
  | done a => trivial
  | node o k ih =>
    refine ⟨fun _ => hs, fun y hy => ?_⟩
    rw [notAfter_node] at hp
    cases hA : A o with
    | true =>
      rw [if_pos hA] at hp
      exact (hp y.1).along (fun o s hB hBo => absurd hBo hB) y.2
    | false =>
      rw [if_neg (by rw [hA]; exact Bool.false_ne_true)] at hp
      exact ih y.1 (hp y.1) (hI o s y.1 y.2 hA hs hy)

/-- The operations a run performs, each with the state it is performed in. Where the run fails, the
operation that fails is the last one. -/
def visits (h : Handler Op Res σ) : Prog Op Res α → σ → List (Op × σ)
  | .done _, _ => []
  | .node o k, s =>
      (o, s) :: match h o s with
        | none => []
        | some (r, s') => visits h (k r) s'

/-- A run visits its first operation, in the state it starts from, and then those of the rest. -/
lemma visits_node (o : Op) (k : Res o → Prog Op Res α) (s : σ) : (Prog.node o k).visits h s =
    (o, s) :: ((h o s).elim [] fun y => (k y.1).visits h y.2) := by
  rw [visits]
  cases h o s with
  | none => rfl
  | some y => rfl

/-- The first operation is visited in the state the run starts from. -/
lemma mem_visits_node (o : Op) (k : Res o → Prog Op Res α) (s : σ) :
    (o, s) ∈ (Prog.node o k).visits h s := by
  rw [visits_node]
  exact List.mem_cons_self

/-- What holds along a run holds of the operations it performs. -/
lemma Along.of_mem_visits {p : Prog Op Res α} {s : σ} (hp : p.Along h Q s) :
    ∀ v ∈ p.visits h s, Q v.1 v.2 := by
  induction p generalizing s with
  | done a => exact fun v hv => absurd hv List.not_mem_nil
  | node o k ih =>
    rw [visits_node, List.forall_mem_cons]
    refine ⟨hp.1, ?_⟩
    cases ho : h o s with
    | none => exact fun v hv => absurd hv List.not_mem_nil
    | some y => exact ih y.1 (hp.2 y ho)

/-- The first part of a sequence is performed first. -/
lemma mem_visits_bind {p : Prog Op Res α} {f : α → Prog Op Res β} {s : σ} {v : Op × σ}
    (hv : v ∈ p.visits h s) : v ∈ (p >>= f).visits h s := by
  induction p generalizing s with
  | done a => exact absurd hv List.not_mem_nil
  | node o k ih =>
    rw [node_bind, visits_node]
    rw [visits_node, List.mem_cons] at hv
    cases ho : h o s with
    | none =>
      rw [ho] at hv
      rcases hv with rfl | hv
      · exact List.mem_cons_self
      · exact absurd hv List.not_mem_nil
    | some y =>
      rw [ho] at hv
      rcases hv with rfl | hv
      · exact List.mem_cons_self
      · exact List.mem_cons_of_mem _ (ih y.1 hv)

/-- If the first part ends, the operations of a sequence are those of the first part, followed by
those the second part performs in the state reached. -/
lemma visits_bind_of_some {p : Prog Op Res α} {f : α → Prog Op Res β} {s s' : σ} {a : α}
    (hp : p.run h s = some (a, s')) :
    (p >>= f).visits h s = p.visits h s ++ (f a).visits h s' := by
  induction p generalizing s with
  | done b =>
    obtain ⟨rfl, rfl⟩ : b = a ∧ s = s' := by simpa using hp
    rfl
  | node o k ih =>
    rw [run_node] at hp
    obtain ⟨y, ho, hy⟩ := Option.bind_eq_some_iff.1 hp
    rw [node_bind, visits_node, visits_node, ho, List.cons_append]
    exact congrArg ((o, s) :: ·) (ih y.1 hy)

/-- If the first part ends, the visits of the second part follow. -/
lemma mem_visits_bind_of_some {p : Prog Op Res α} {f : α → Prog Op Res β} {s s' : σ} {a : α}
    {v : Op × σ} (hp : p.run h s = some (a, s')) (hv : v ∈ (f a).visits h s') :
    v ∈ (p >>= f).visits h s := by
  rw [visits_bind_of_some hp]
  exact List.mem_append_right _ hv

section Filter

variable {γ : Type y} {g : Op × σ → Option γ}

end Filter

/-- What every operation keeps holds wherever the run gets. -/
lemma visits_invariant {I : σ → Prop} (hI : ∀ o s r s', I s → h o s = some (r, s') → I s')
    (p : Prog Op Res α) {s : σ} (hs : I s) : ∀ v ∈ p.visits h s, I v.2 := by
  induction p generalizing s with
  | done a => exact fun v hv => absurd hv List.not_mem_nil
  | node o k ih =>
    rw [visits_node, List.forall_mem_cons]
    refine ⟨hs, ?_⟩
    cases ho : h o s with
    | none => exact fun v hv => absurd hv List.not_mem_nil
    | some y => exact ih y.1 (hI o s y.1 y.2 hs ho)

/-- The invariant rule for what the operations keep in the states they are performed in. -/
theorem run_invariant_of_visits {I : σ → Prop} {p : Prog Op Res α} {s s' : σ} {a : α}
    (hI : ∀ v ∈ p.visits h s, ∀ y, I v.2 → h v.1 v.2 = some y → I y.2) (hs : I s)
    (hr : p.run h s = some (a, s')) : I s' := by
  induction p generalizing s with
  | done b =>
    obtain ⟨-, rfl⟩ : b = a ∧ s = s' := by simpa using hr
    exact hs
  | node o k ih =>
    rw [run_node] at hr
    obtain ⟨y, ho, hy⟩ := Option.bind_eq_some_iff.1 hr
    rw [visits_node, List.forall_mem_cons, ho] at hI
    exact ih y.1 hI.2 (hI.1 y hs rfl) hy

/-! ## Relying on the answers -/

/-- As long as all answers meet `R`, all operations meet `Q` and the result meets `P`. -/
def Contract (R : (o : Op) → Res o → Prop) (Q : Op → Prop) (P : α → Prop) : Prog Op Res α → Prop
  | .done a => P a
  | .node o k => Q o ∧ ∀ r, R o r → Contract R Q P (k r)

section Contract

variable {R : (o : Op) → Res o → Prop} {Q Q' : Op → Prop} {P : α → Prop}

@[simp] lemma contract_done (a : α) : (Prog.done a : Prog Op Res α).Contract R Q P ↔ P a := Iff.rfl

@[simp] lemma contract_node (o : Op) (k : Res o → Prog Op Res α) :
    (Prog.node o k).Contract R Q P ↔ Q o ∧ ∀ r, R o r → (k r).Contract R Q P := Iff.rfl

/-- A conditional fulfils a contract exactly if the branch that is taken does. -/
lemma contract_ite {c : Prop} [Decidable c] {p q : Prog Op Res α} :
    (if c then p else q).Contract R Q P ↔
      (c → p.Contract R Q P) ∧ (¬c → q.Contract R Q P) := by
  split
  · next hc => exact ⟨fun h => ⟨fun _ => h, fun hn => absurd hc hn⟩, fun h => h.1 hc⟩
  · next hc => exact ⟨fun h => ⟨fun hp => absurd hp hc, fun _ => h⟩, fun h => h.2 hc⟩

/-- The rule for a sequence: the second program fulfils its contract after every result of the
first. -/
lemma Contract.bind {P' : β → Prop} {p : Prog Op Res α} {f : α → Prog Op Res β}
    (hp : p.Contract R Q P) (hf : ∀ a, P a → (f a).Contract R Q P') :
    (p >>= f).Contract R Q P' := by
  induction p with
  | done a => exact hf a hp
  | node o k ih => exact ⟨hp.1, fun r hr => ih r (hp.2 r hr)⟩

/-- A stronger demand, a weaker one and a weaker promise. -/
lemma Contract.mono {P' : α → Prop} (hQ : ∀ o, Q o → Q' o) (hP : ∀ a, P a → P' a)
    {p : Prog Op Res α} (hp : p.Contract R Q P) : p.Contract R Q' P' := by
  induction p with
  | done a => exact hP a hp
  | node o k ih => exact ⟨hQ o hp.1, fun r hr => ih r (hp.2 r hr)⟩

/-- Two demands on the operations, one of which needs no answers. -/
lemma Contract.and_all {p : Prog Op Res α} (hp : p.Contract R Q P) (hp' : p.All Q') :
    p.Contract R (fun o => Q o ∧ Q' o) P := by
  induction p with
  | done a => exact hp
  | node o k ih => exact ⟨⟨hp.1, hp'.1⟩, fun r hr => ih r (hp.2 r hr) (hp'.2 r)⟩

/-- Under an invariant that makes the answers meet `R`, the operations of a run meet what they
demand in the states they are performed in. -/
theorem Contract.along {I : σ → Prop} {D : Op → σ → Prop}
    (hI : ∀ o s r s', Q o → I s → h o s = some (r, s') → R o r ∧ I s')
    (hD : ∀ o s, Q o → I s → D o s) {p : Prog Op Res α} (hp : p.Contract R Q P) {s : σ} (hs : I s) :
    p.Along h D s := by
  induction p generalizing s with
  | done a => trivial
  | node o k ih =>
    refine ⟨hD o s hp.1 hs, fun y hy => ?_⟩
    obtain ⟨hr, hy'⟩ := hI o s y.1 y.2 hp.1 hs hy
    exact ih y.1 (hp.2 y.1 hr) hy'

/-- And a run that ends keeps the invariant and returns what is promised. -/
theorem Contract.of_run {I : σ → Prop}
    (hI : ∀ o s r s', Q o → I s → h o s = some (r, s') → R o r ∧ I s') {p : Prog Op Res α}
    (hp : p.Contract R Q P) {s s' : σ} {a : α} (hs : I s) (hr : p.run h s = some (a, s')) :
    P a ∧ I s' := by
  induction p generalizing s with
  | done b =>
    obtain ⟨rfl, rfl⟩ : b = a ∧ s = s' := by simpa using hr
    exact ⟨hp, hs⟩
  | node o k ih =>
    rw [run_node] at hr
    obtain ⟨y, ho, hy⟩ := Option.bind_eq_some_iff.1 hr
    obtain ⟨hrely, hy'⟩ := hI o s y.1 y.2 hp.1 hs ho
    exact ih y.1 (hp.2 y.1 hrely) hy' hy

end Contract

/-! ## Preconditions -/

/-- The weakest precondition of a statement about the operations performed, the result and the last
state: every run from `s` that ends satisfies `Q`. -/
def wp (h : Handler Op Res σ) (p : Prog Op Res α) (Q : List (Σ o, Res o) → α → σ → Prop)
    (s : σ) : Prop :=
  ∀ a s', p.run h s = some (a, s') → Q (p.trace h s) a s'

variable {Q Q' : List (Σ o, Res o) → α → σ → Prop}

@[simp] lemma wp_done (a : α) (s : σ) : (Prog.done a : Prog Op Res α).wp h Q s ↔ Q [] a s := by
  constructor
  · intro hQ
    exact hQ a s rfl
  · rintro hQ b t ⟨rfl, rfl⟩
    exact hQ

/-- An operation followed by a program establishes a property if the program does after every
result. -/
lemma wp_node {o : Op} {k : Res o → Prog Op Res α} {s : σ} :
    (Prog.node o k).wp h Q s ↔
      ∀ r s', h o s = some (r, s') → (k r).wp h (fun t => Q (⟨o, r⟩ :: t)) s' := by
  unfold wp
  constructor
  · intro hQ r s' ho a t hr
    rw [← trace_node_of_some ho]
    exact hQ a t (by rw [run_node, ho, Option.bind_some, hr])
  · intro hQ a t hr
    obtain ⟨⟨r, s'⟩, ho, hk⟩ := Option.bind_eq_some_iff.1 hr
    rw [trace_node_of_some ho]
    exact hQ r s' ho a t hk

/-- The rule for a single operation, whose trace has this operation only. -/
lemma wp_op {o : Op} {s : σ} {Q : List (Σ o, Res o) → Res o → σ → Prop} :
    (Prog.node o (.done : Res o → Prog Op Res (Res o))).wp h Q s ↔
      ∀ r s', h o s = some (r, s') → Q [⟨o, r⟩] r s' := by
  rw [wp_node]
  constructor
  · intro hQ r s' ho
    exact (wp_done _ _).1 (hQ r s' ho)
  · intro hQ r s' ho
    exact (wp_done _ _).2 (hQ r s' ho)

/-- The rule for a single operation that does not fail. -/
lemma wp_op_of_some {o : Op} {s s' : σ} {r : Res o}
    {Q : List (Σ o, Res o) → Res o → σ → Prop} (ho : h o s = some (r, s')) :
    (Prog.node o (.done : Res o → Prog Op Res (Res o))).wp h Q s ↔ Q [⟨o, r⟩] r s' := by
  rw [wp_op]
  constructor
  · intro hQ
    exact hQ r s' ho
  · intro hQ r₁ s₁ h₁
    obtain ⟨rfl, rfl⟩ := Prod.mk.inj (Option.some.inj (ho.symm.trans h₁))
    exact hQ

/-- Of two programs in a row, the first has to establish that the second establishes the property.
-/
lemma wp_bind {p : Prog Op Res α} {f : α → Prog Op Res β}
    {R : List (Σ o, Res o) → β → σ → Prop} {s : σ} :
    (p >>= f).wp h R s ↔ p.wp h (fun t a s' => (f a).wp h (fun t' => R (t ++ t')) s') s := by
  unfold wp
  constructor
  · intro hR a s' hp b t hf
    rw [← trace_bind_of_some hp]
    exact hR b t (by rw [run_bind, hp, Option.bind_some, hf])
  · intro hR b t hr
    rw [run_bind] at hr
    obtain ⟨⟨a, s'⟩, hp, hf⟩ := Option.bind_eq_some_iff.1 hr
    rw [trace_bind_of_some hp]
    exact hR a s' hp b t hf

/-- A conditional establishes a property exactly if the branch that is taken does. -/
lemma wp_ite {c : Prop} [Decidable c] {p q : Prog Op Res α} {s : σ} :
    (if c then p else q).wp h Q s ↔ if c then p.wp h Q s else q.wp h Q s := by
  split <;> rfl

/-- What establishes a property establishes every weaker one. -/
lemma wp_mono {p : Prog Op Res α} {s : σ} (hp : p.wp h Q s)
    (hQ : ∀ t a s', Q t a s' → Q' t a s') : p.wp h Q' s :=
  fun a s' hr => hQ _ a s' (hp a s' hr)

/-- The invariant rule as a precondition: what all allowed operations keep holds at the end. -/
lemma All.wp {I : σ → Prop} {D : Op → Prop}
    (hI : ∀ o s r s', D o → I s → h o s = some (r, s') → I s')
    {p : Prog Op Res α} {s : σ} (hD : p.All D) (hs : I s) : p.wp h (fun _ _ => I) s :=
  fun _ _ hr => hD.run_invariant hI hs hr

/-! ## Two runs side by side -/

/-- The simulation rule: a relation that every performed operation keeps, with equal answers, is
kept by the run. -/
theorem run_simulates {g : Handler Op Res τ} {R : σ → τ → Prop} {Q : Op → Prop}
    (hR : ∀ o s t r s', Q o → R s t → h o s = some (r, s') →
      ∃ t', g o t = some (r, t') ∧ R s' t')
    {p : Prog Op Res α} {s s' : σ} {t : τ} {a : α} (hQ : ∀ e ∈ p.trace h s, Q e.1) (hst : R s t)
    (hr : p.run h s = some (a, s')) :
    ∃ t', p.run g t = some (a, t') ∧ R s' t' := by
  induction p generalizing s t with
  | done b =>
    obtain ⟨rfl, rfl⟩ : b = a ∧ s = s' := by simpa using hr
    exact ⟨t, rfl, hst⟩
  | node o k ih =>
    rw [run_node] at hr
    obtain ⟨y, ho, hy⟩ := Option.bind_eq_some_iff.1 hr
    rw [trace_node_of_some ho, List.forall_mem_cons] at hQ
    obtain ⟨t₁, ht₁, hst₁⟩ := hR o s t y.1 y.2 hQ.1 hst ho
    obtain ⟨t', ht', hst'⟩ := ih y.1 hQ.2 hst₁ hy
    exact ⟨t', by rw [run_node, ht₁, Option.bind_some]; exact ht', hst'⟩

/-- A change `f` of the state that no operation notices is not noticed by any program. -/
theorem run_commute {f : σ → σ} (hf : ∀ o s, h o (f s) = (h o s).map fun y => (y.1, f y.2))
    (p : Prog Op Res α) (s : σ) :
    p.run h (f s) = (p.run h s).map fun y => (y.1, f y.2) := by
  induction p generalizing s with
  | done a => rfl
  | node o k ih =>
    rw [run_node, run_node, hf]
    cases h o s with
    | none => rfl
    | some y => exact ih y.1 y.2

/-! ## Splitting operations -/

section Expand

variable {Op' : Type u} {Res' : Op' → Type v}

/-- Replace every operation by a program over another signature. -/
def expand {Res : Op → Type w} {Res' : Op' → Type w} (f : (o : Op) → Prog Op' Res' (Res o)) :
    Prog Op Res α → Prog Op' Res' α
  | .done a => .done a
  | .node o k => f o >>= fun r => expand f (k r)

/-- If the replacements do what the operations did, so does the whole program. -/
theorem run_expand {Res : Op → Type w} {Res' : Op' → Type w} {h : Handler Op Res σ}
    {h' : Handler Op' Res' σ} {f : (o : Op) → Prog Op' Res' (Res o)}
    (hf : ∀ o s, (f o).run h' s = h o s) (p : Prog Op Res α) (s : σ) :
    (p.expand f).run h' s = p.run h s := by
  induction p generalizing s with
  | done a => rfl
  | node o k ih =>
    rw [expand, run_bind, run_node, hf]
    cases h o s with
    | none => rfl
    | some y => exact ih y.1 y.2

/-- If each replacement promises an answer that may be relied on, the expanded program meets the
contract. -/
lemma Contract.expand {Res : Op → Type w} {Res' : Op' → Type w} {R : (o : Op) → Res o → Prop}
    {Q : Op → Prop} {R' : (o : Op') → Res' o → Prop} {Q' : Op' → Prop} {P : α → Prop}
    {f : (o : Op) → Prog Op' Res' (Res o)} (hf : ∀ o, Q o → (f o).Contract R' Q' (R o))
    {p : Prog Op Res α} (hp : p.Contract R Q P) : (p.expand f).Contract R' Q' P := by
  induction p with
  | done a => exact hp
  | node o k ih => exact (hf o hp.1).bind fun r hr => ih r (hp.2 r hr)

end Expand

/-! ## Another party's step in the middle -/

/-- Execute a program with one step `env` of another party placed after `n` operations (at the
end, if the program performs fewer). -/
def interrupt (h : Handler Op Res σ) (env : σ → σ) :
    ℕ → Prog Op Res α → σ → Option (α × σ)
  | 0, p, s => p.run h (env s)
  | _ + 1, .done a, s => some (a, env s)
  | n + 1, .node o k, s => (h o s).bind fun y => interrupt h env n (k y.1) y.2

@[simp] lemma interrupt_zero (env : σ → σ) (p : Prog Op Res α) (s : σ) :
    p.interrupt h env 0 s = p.run h (env s) := by
  cases p <;> rfl

@[simp] lemma interrupt_succ_done (env : σ → σ) (n : ℕ) (a : α) (s : σ) :
    (Prog.done a : Prog Op Res α).interrupt h env (n + 1) s = some (a, env s) := rfl

@[simp] lemma interrupt_succ_node (env : σ → σ) (n : ℕ) (o : Op) (k : Res o → Prog Op Res α)
    (s : σ) : (Prog.node o k).interrupt h env (n + 1) s =
      (h o s).bind fun y => (k y.1).interrupt h env n y.2 := rfl

/-- The operations such a run performs after the other party's step. -/
def traceAfter (h : Handler Op Res σ) (env : σ → σ) :
    ℕ → Prog Op Res α → σ → List (Σ o, Res o)
  | 0, p, s => p.trace h (env s)
  | _ + 1, .done _, _ => []
  | n + 1, .node o k, s =>
      match h o s with
      | none => []
      | some (r, s') => traceAfter h env n (k r) s'

@[simp] lemma traceAfter_zero (env : σ → σ) (p : Prog Op Res α) (s : σ) :
    p.traceAfter h env 0 s = p.trace h (env s) := by
  cases p <;> rfl

@[simp] lemma traceAfter_succ_done (env : σ → σ) (n : ℕ) (a : α) (s : σ) :
    (Prog.done a : Prog Op Res α).traceAfter h env (n + 1) s = [] := rfl

/-- After an operation that comes before the other party's step, the rest of the program is what is
interrupted. -/
lemma traceAfter_succ_node_of_some {env : σ → σ} {n : ℕ} {o : Op} {k : Res o → Prog Op Res α}
    {s s' : σ} {r : Res o} (ho : h o s = some (r, s')) :
    (Prog.node o k).traceAfter h env (n + 1) s = (k r).traceAfter h env n s' := by
  rw [traceAfter, ho]

end Prog

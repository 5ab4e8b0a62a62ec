import Mathlib.Data.BitVec
import Mathlib.Data.Nat.Notation
import Mathlib.Logic.Basic
import Mathlib.Tactic.Common

/-!
# Stacks that grow downwards in a memory with aliases

The memory is given by its two operations only. Several addresses may be names of one cell, and at
some addresses nothing can be stored. As long as the cells a stack uses are distinct and can be
stored in, what was pushed is popped in reverse, and no other cell changes (`DownStack.lifo`).
-/

namespace DownStack

variable {w : ℕ} {X α γ : Type*}

/-- The operations of a memory. -/
structure Memory (w : ℕ) (X α : Type*) where
  read : X → BitVec w → α
  write : X → BitVec w → α → X

/-- A stack pointer and the memory it points into. -/
structure State (w : ℕ) (X : Type*) where
  ptr : BitVec w
  mem : X

/-- While `I` holds of a memory, its addresses name cells as `cell` says, and a good address can be
stored at. -/
structure Aliases (M : Memory w X α) (I : X → Prop) (cell : BitVec w → γ)
    (Good : BitVec w → Prop) : Prop where
  keeps : ∀ x a v, I x → I (M.write x a v)
  same : ∀ x a b v, I x → Good a → cell b = cell a → M.read (M.write x a v) b = v
  other : ∀ x a b v, I x → Good a → cell b ≠ cell a → M.read (M.write x a v) b = M.read x b

variable (M : Memory w X α)

/-- Store below the top. -/
def push (s : State w X) (v : α) : State w X := ⟨s.ptr - 1#w, M.write s.mem (s.ptr - 1#w) v⟩

/-- Take the top off. -/
def pop (s : State w X) : α × State w X := (M.read s.mem s.ptr, ⟨s.ptr + 1#w, s.mem⟩)

/-- Push one after the other. -/
def pushAll (vs : List α) (s : State w X) : State w X := vs.foldl (push M) s

/-- Take `n` elements off, the first one first. -/
def popMany : ℕ → State w X → List α × State w X
  | 0, s => ([], s)
  | n + 1, s =>
    let r := popMany n (pop M s).2
    ((pop M s).1 :: r.1, r.2)

/-- Of some elements taken off, the one taken off last comes last in the list. -/
lemma popMany_succ (n : ℕ) (s : State w X) : popMany M (n + 1) s =
    ((popMany M n s).1 ++ [(pop M (popMany M n s).2).1], (pop M (popMany M n s).2).2) := by
  induction n generalizing s with
  | zero => rfl
  | succ n ih =>
    change ((pop M s).1 :: (popMany M (n + 1) (pop M s).2).1,
      (popMany M (n + 1) (pop M s).2).2) = _
    rw [ih (pop M s).2]
    rfl

variable {M} {I : X → Prop} {cell : BitVec w → γ} {Good : BitVec w → Prop}

/-- The cell of the element pushed as number `i`. -/
def slot (p : BitVec w) (i : ℕ) : BitVec w := p - BitVec.ofNat w (i + 1)

/-- The first slot is the one below the pointer. -/
lemma slot_zero (p : BitVec w) : slot p 0 = p - 1#w := rfl

/-- Seen from one further down, every slot is one further away. -/
lemma slot_sub_one (p : BitVec w) (i : ℕ) : slot (p - 1#w) i = slot p (i + 1) := by
  rw [slot, slot, BitVec.ofNat_add (i + 1) 1, BitVec.add_comm, sub_add_eq_sub_sub]

/-- What was pushed is popped, last in first out. The pointer is where it was, and no other cell has
changed. -/
theorem lifo (h : Aliases M I cell Good) {s : State w X} {vs : List α} (hI : I s.mem)
    (hgood : ∀ i < vs.length, Good (slot s.ptr i))
    (hcells : ∀ i j, i < j → j < vs.length → cell (slot s.ptr i) ≠ cell (slot s.ptr j)) :
    ∃ x, popMany M vs.length (pushAll M vs s) = (vs.reverse, ⟨s.ptr, x⟩) ∧ I x ∧
      ∀ b, (∀ i < vs.length, cell b ≠ cell (slot s.ptr i)) → M.read x b = M.read s.mem b := by
  induction vs generalizing s with
  | nil => exact ⟨s.mem, rfl, hI, fun b _ => rfl⟩
  | cons v vs ih =>
    have hI' : I (push M s v).mem := h.keeps _ _ _ hI
    have hgood₀ : Good (s.ptr - 1#w) := hgood 0 (Nat.zero_lt_succ _)
    obtain ⟨x, hpop, hx, hframe⟩ := ih (s := push M s v) hI'
      (fun i hi => by
        rw [push, slot_sub_one]
        exact hgood (i + 1) (Nat.succ_lt_succ hi))
      (fun i j hij hj => by
        rw [push, slot_sub_one, slot_sub_one]
        exact hcells (i + 1) (j + 1) (Nat.succ_lt_succ hij) (Nat.succ_lt_succ hj))
    -- the cell pushed first is none of the others, so it is still there at the end
    have hfirst : M.read x (s.ptr - 1#w) = v := by
      rw [hframe (s.ptr - 1#w) fun i hi => ?_]
      · exact h.same _ _ _ _ hI hgood₀ rfl
      · rw [push, slot_sub_one, ← slot_zero]
        exact hcells 0 (i + 1) (Nat.zero_lt_succ i) (Nat.succ_lt_succ hi)
    refine ⟨x, ?_, hx, fun b hb => ?_⟩
    · have hall : pushAll M (v :: vs) s = pushAll M vs (push M s v) := rfl
      rw [hall, List.length_cons, popMany_succ, hpop, List.reverse_cons]
      refine Prod.ext ?_ ?_
      · exact congrArg (fun u => vs.reverse ++ [u]) hfirst
      · change State.mk (s.ptr - 1#w + 1#w) x = _
        rw [BitVec.sub_add_cancel]
    · have hnext : M.read x b = M.read (push M s v).mem b := hframe b fun i hi => by
        rw [push, slot_sub_one]
        exact hb (i + 1) (Nat.succ_lt_succ hi)
      rw [hnext]
      exact h.other _ _ _ _ hI hgood₀ (hb 0 (Nat.zero_lt_succ _))

end DownStack

import Mathlib.Data.BitVec
import Mathlib.Data.Nat.Notation
import Mathlib.Logic.Basic
import Mathlib.Tactic.Common

/-!
# Stacks in a ring of cells

A stack that grows upwards through a memory of `2 ^ w` cells, from the last cell on to the first. As
long as it has no more elements than there are cells, no element is overwritten by a later one
(`RingStack.Holds.push`), and the top can be taken off again (`RingStack.Holds.pop`).
-/

namespace RingStack

variable {w : ℕ} {α : Type*} {mem mem' : BitVec w → α} {top base : BitVec w} {l : List α} {x : α}

/-- The stack lies above `base`, its top is at `top`, and it has the elements of the list, the
topmost first. -/
structure Holds (mem : BitVec w → α) (base top : BitVec w) (l : List α) : Prop where
  top_eq : top = base + BitVec.ofNat w l.length
  get : ∀ i (hi : i < l.length), mem (top - BitVec.ofNat w i) = l[i]

/-- Every place is the top of an empty stack. -/
lemma Holds.nil (mem : BitVec w → α) (base : BitVec w) : Holds mem base base [] :=
  ⟨(BitVec.add_zero base).symm, fun i hi => absurd hi (Nat.not_lt_zero i)⟩

/-- The cells of a stack are all that matters. -/
lemma Holds.congr (h : Holds mem base top l)
    (hmem : ∀ i < l.length, mem' (top - BitVec.ofNat w i) = mem (top - BitVec.ofNat w i)) :
    Holds mem' base top l :=
  ⟨h.top_eq, fun i hi => (hmem i hi).trans (h.get i hi)⟩

/-- The cell above the top is none of the stack's, unless there are no others. -/
lemma succ_top_ne {i n : ℕ} (hi : i < n) (hn : n < 2 ^ w) (top : BitVec w) :
    top - BitVec.ofNat w i ≠ top + 1#w := by
  intro heq
  have hval := congrArg (fun a : BitVec w => (a + BitVec.ofNat w i - top).toNat) heq
  have hleft : top - BitVec.ofNat w i + BitVec.ofNat w i - top = 0#w := by
    rw [BitVec.sub_add_cancel, BitVec.sub_self]
  have hright : top + 1#w + BitVec.ofNat w i - top = BitVec.ofNat w (i + 1) := by
    rw [BitVec.add_assoc, BitVec.add_comm top, BitVec.add_sub_cancel, BitVec.add_comm]
    exact (BitVec.ofNat_add i 1).symm
  simp only [hleft, hright, BitVec.toNat_ofNat, Nat.zero_mod] at hval
  rw [Nat.mod_eq_of_lt (by omega)] at hval
  omega

/-- A push puts one more element on top, as long as the ring has room for it. -/
lemma Holds.push (h : Holds mem base top l) (hroom : l.length < 2 ^ w) (htop : mem' (top + 1#w) = x)
    (hmem : ∀ a, a ≠ top + 1#w → mem' a = mem a) : Holds mem' base (top + 1#w) (x :: l) := by
  constructor
  · rw [h.top_eq, BitVec.add_assoc, List.length_cons, BitVec.ofNat_add]
  · intro i hi
    cases i with
    | zero =>
      have hzero : top + 1#w - BitVec.ofNat w 0 = top + 1#w := BitVec.sub_zero _
      rw [hzero, htop]
      rfl
    | succ i =>
      have hi' : i < l.length := Nat.lt_of_succ_lt_succ hi
      have hshift : top + 1#w - BitVec.ofNat w (i + 1) = top - BitVec.ofNat w i := by
        rw [BitVec.ofNat_add, BitVec.add_comm (BitVec.ofNat w i), sub_add_eq_sub_sub,
          BitVec.add_sub_cancel]
      rw [hshift, hmem _ (succ_top_ne hi' hroom top), h.get i hi']
      rfl

/-- The top of a stack is the byte that the pointer names. -/
lemma Holds.head (h : Holds mem base top (x :: l)) : mem top = x := by
  have hget := h.get 0 (Nat.zero_lt_succ _)
  rwa [BitVec.sub_zero] at hget

/-- Without its top element a stack ends one place below in the ring. -/
lemma Holds.pop (h : Holds mem base top (x :: l)) : Holds mem base (top - 1#w) l := by
  constructor
  · rw [h.top_eq, List.length_cons, BitVec.ofNat_add, ← BitVec.add_assoc, BitVec.add_sub_cancel]
  · intro i hi
    have hshift : top - 1#w - BitVec.ofNat w i = top - BitVec.ofNat w (i + 1) := by
      rw [BitVec.ofNat_add, BitVec.add_comm (BitVec.ofNat w i), sub_add_eq_sub_sub]
    rw [hshift]
    exact h.get (i + 1) (Nat.succ_lt_succ hi)

/-- An empty stack has its top where it began. -/
lemma Holds.top_of_nil (h : Holds mem base top []) : top = base :=
  h.top_eq.trans (BitVec.add_zero base)

end RingStack

import Mathlib.Algebra.Group.Nat.Defs
import Mathlib.Data.List.Basic
import Mathlib.Data.Nat.Notation
import Mathlib.Logic.Function.Basic
import Mathlib.Tactic.Common

/-!
# Records as text

Numbers are written in hexadecimal with a fixed number of digits. Of a record only those fields are
written that have changed since the last time, each as a key and its value. A reader that knows the
last record gets the new one back (`parse_render`), as long as no key is the beginning of another.
-/

namespace RecordText

/-! ## Numbers -/

/-- A digit. -/
def digit (d : ℕ) : Char := "0123456789abcdef".toList.getD d '0'

/-- Its value. -/
def digitValue (c : Char) : ℕ := "0123456789abcdef".toList.idxOf c

/-- The last `w` digits of a number. -/
def hex : ℕ → ℕ → List Char
  | 0, _ => []
  | w + 1, n => hex w (n / 16) ++ [digit (n % 16)]

/-- The number that digits stand for. -/
def unhex (t : List Char) : ℕ := t.foldl (fun v c => v * 16 + digitValue c) 0

/-- The digit of a number below 16 has this value. -/
lemma digitValue_digit : ∀ d < 16, digitValue (digit d) = d := by decide

@[simp] lemma length_hex (w n : ℕ) : (hex w n).length = w := by
  induction w generalizing n with
  | zero => rfl
  | succ w ih => rw [hex, List.length_append, ih, List.length_singleton]

/-- A number with no more digits is read as it was. -/
theorem unhex_hex {w n : ℕ} (h : n < 16 ^ w) : unhex (hex w n) = n := by
  induction w generalizing n with
  | zero => exact (Nat.lt_one_iff.1 h).symm
  | succ w ih =>
    have hfirst : n / 16 < 16 ^ w := by
      rw [Nat.pow_succ] at h
      omega
    have hlast : n % 16 < 16 := Nat.mod_lt n (by decide)
    rw [hex, unhex, List.foldl_append]
    change unhex (hex w (n / 16)) * 16 + digitValue (digit (n % 16)) = n
    rw [ih hfirst, digitValue_digit _ hlast]
    omega

/-- The number in the `w` characters from position `k` on. -/
def hexAt (t : List Char) (k w : ℕ) : ℕ := unhex ((t.drop k).take w)

section HexAt

variable {a t : List Char} {k w n : ℕ}

/-- What stands before the position does not matter, and may be cut off. -/
lemma hexAt_append_of_le (h : a.length ≤ k) : hexAt (a ++ t) k w = hexAt t (k - a.length) w := by
  rw [hexAt, List.drop_append, List.drop_eq_nil_of_le h, List.nil_append, hexAt]

/-- What comes after the number does not matter either. -/
lemma hexAt_hex (h : n < 16 ^ w) : hexAt (hex w n ++ t) 0 w = n := by
  rw [hexAt, List.drop_zero, List.take_left' (length_hex w n), unhex_hex h]

end HexAt

/-! ## Fields -/

/-- How the fields of a record are written: keys, and values in texts of one width. -/
structure Fields (ι V : Type) where
  key : ι → List Char
  width : ℕ
  render : V → List Char
  read : List Char → V
  length_render : ∀ v, (render v).length = width
  read_render : ∀ v, read (render v) = v

namespace Fields

variable {ι V : Type} [DecidableEq V] (F : Fields ι V)

/-- The fields of the list that have changed, one after the other. -/
def renderChanges (is : List ι) (old new : ι → V) : List Char :=
  is.flatMap fun i => if old i = new i then [] else F.key i ++ F.render (new i)

/-- Read the fields of the list where their keys are there, and return what comes after them. -/
def parse [DecidableEq ι] : List ι → (ι → V) → List Char → (ι → V) × List Char
  | [], old, t => (old, t)
  | i :: is, old, t =>
      if F.key i <+: t then
        parse is (Function.update old i (F.read ((t.drop (F.key i).length).take F.width)))
          (t.drop ((F.key i).length + F.width))
      else parse is old t

/-- No key is the beginning of another. -/
def PrefixFree (is : List ι) : Prop :=
  is.Pairwise fun i j => ¬F.key i <+: F.key j ∧ ¬F.key j <+: F.key i

variable {F} {is : List ι} {old new : ι → V} {rest : List Char} {i : ι}

/-- A text does not begin with a key if it begins with a different one. -/
lemma not_prefix_append {k k' t : List Char} (h : ¬k <+: k') (h' : ¬k' <+: k) :
    ¬k <+: k' ++ t := by
  intro hpre
  rcases List.prefix_or_prefix_of_prefix hpre (List.prefix_append k' t) with hk | hk
  · exact h hk
  · exact h' hk

/-- The key of a field is not there if the field is not among those that are written. -/
lemma not_prefix_renderChanges
    (h : ∀ j ∈ is, ¬F.key i <+: F.key j ∧ ¬F.key j <+: F.key i) (hrest : ¬F.key i <+: rest) :
    ¬F.key i <+: F.renderChanges is old new ++ rest := by
  induction is with
  | nil => exact hrest
  | cons j is ih =>
    rw [List.forall_mem_cons] at h
    rw [renderChanges, List.flatMap_cons, List.append_assoc]
    split_ifs
    · exact ih h.2
    · rw [List.append_assoc]
      exact not_prefix_append h.1.1 h.1.2

/-- What is known of other fields does not matter. -/
lemma renderChanges_update [DecidableEq ι] (hi : i ∉ is) (v : V) :
    F.renderChanges is (Function.update old i v) new = F.renderChanges is old new := by
  refine List.flatMap_congr fun j hj => ?_
  rw [Function.update_of_ne]
  rintro rfl
  exact hi hj

/-- The changes are read back, and what comes after them is left. -/
theorem parse_render [DecidableEq ι] (hfree : F.PrefixFree is)
    (hrest : ∀ i ∈ is, ¬F.key i <+: rest) :
    F.parse is old (F.renderChanges is old new ++ rest) =
      (fun i => if i ∈ is then new i else old i, rest) := by
  induction is generalizing old with
  | nil => simp [parse, renderChanges]
  | cons i is ih =>
    obtain ⟨hkey, hkeys⟩ := List.pairwise_cons.1 hfree
    obtain ⟨hfirst, hlater⟩ := List.forall_mem_cons.1 hrest
    have hi : i ∉ is := fun hmem => (hkey i hmem).1 List.prefix_rfl
    by_cases hsame : old i = new i
    · have htext : F.renderChanges (i :: is) old new = F.renderChanges is old new := by
        rw [renderChanges, List.flatMap_cons, if_pos hsame, List.nil_append]
        rfl
      rw [htext, parse, if_neg (not_prefix_renderChanges hkey hfirst), ih hkeys hlater]
      refine congrArg (·, rest) (funext fun j => ?_)
      by_cases hj : j = i
      · rw [hj, if_neg hi, if_pos List.mem_cons_self, hsame]
      · simp only [List.mem_cons, hj, false_or]
    · have htext : F.renderChanges (i :: is) old new ++ rest =
          F.key i ++ (F.render (new i) ++ (F.renderChanges is old new ++ rest)) := by
        rw [renderChanges, List.flatMap_cons, if_neg hsame, List.append_assoc, List.append_assoc]
        rfl
      have hvalue : F.read ((((F.key i ++ (F.render (new i) ++
          (F.renderChanges is old new ++ rest))).drop (F.key i).length)).take F.width) = new i := by
        rw [List.drop_left, List.take_left' (F.length_render _), F.read_render]
      have hnext : (F.key i ++ (F.render (new i) ++ (F.renderChanges is old new ++ rest))).drop
          ((F.key i).length + F.width) = F.renderChanges is old new ++ rest := by
        rw [← List.drop_drop, List.drop_left, List.drop_left' (F.length_render _)]
      rw [htext, parse, if_pos (List.prefix_append ..), hvalue, hnext,
        ← renderChanges_update hi (new i), ih hkeys hlater]
      refine congrArg (·, rest) (funext fun j => ?_)
      by_cases hj : j = i
      · rw [hj, if_neg hi, if_pos List.mem_cons_self, Function.update_self]
      · simp only [List.mem_cons, hj, false_or, Function.update_of_ne hj]

end Fields

end RecordText

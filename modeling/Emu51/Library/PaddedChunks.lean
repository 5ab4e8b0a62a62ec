import Mathlib.Data.Nat.Notation
import Mathlib.Tactic.Common

/-!
# Chunks behind padding

A list is cut into chunks of `size` entries (the last one may be shorter), and `pad` copies of a
filler are put in front of each chunk. Entry `i` of the list is then entry `i % size` of chunk
`i / size`, and this is where it is found (`getElem?_paddedChunks`). The chunks start at the
multiples of `pad + size`, with the padding (`getElem?_paddedChunks_pad`).
-/

universe u

variable {α : Type u}

/-- The chunks of `l`, each behind its padding. -/
def paddedChunks (pad size : ℕ) (fill : α) (l : List α) : List α :=
  if _ : l = [] ∨ size = 0 then []
  else List.replicate pad fill ++ (l.take size ++ paddedChunks pad size fill (l.drop size))
termination_by l.length
decreasing_by
  rename_i h
  have hl : 0 < l.length := List.length_pos_iff.2 fun hl => h (.inl hl)
  have hsize : 0 < size := Nat.pos_of_ne_zero fun hsize => h (.inr hsize)
  rw [List.length_drop]
  omega

variable {pad size : ℕ} {fill : α} {l : List α} {i : ℕ}

/-- The first chunk has its padding in front, and the other chunks follow. -/
lemma paddedChunks_of_pos (pad : ℕ) (fill : α) (hsize : 0 < size) (hl : 0 < l.length) :
    paddedChunks pad size fill l =
      List.replicate pad fill ++ (l.take size ++ paddedChunks pad size fill (l.drop size)) := by
  rw [paddedChunks, dif_neg]
  rintro (rfl | rfl)
  · exact absurd hl (Nat.lt_irrefl 0)
  · exact absurd hsize (Nat.lt_irrefl 0)

/-- Behind a full chunk comes what remains of the list. -/
lemma getElem?_paddedChunks_add (hsize : 0 < size) (hl : size < l.length) (i : ℕ) :
    (paddedChunks pad size fill l)[pad + size + i]? =
      (paddedChunks pad size fill (l.drop size))[i]? := by
  have htake : (l.take size).length = size := List.length_take_of_le (Nat.le_of_lt hl)
  have hpad : (List.replicate pad fill).length = pad := List.length_replicate
  rw [paddedChunks_of_pos pad fill hsize (Nat.zero_lt_of_lt hl), Nat.add_assoc,
    List.getElem?_append_right (by omega), hpad, Nat.add_sub_cancel_left,
    List.getElem?_append_right (by omega), htake, Nat.add_sub_cancel_left]

/-- Where the entries of the list are: each in its chunk, behind the padding. -/
theorem getElem?_paddedChunks (hsize : 0 < size) (hi : i < l.length) :
    (paddedChunks pad size fill l)[i / size * (pad + size) + (pad + i % size)]? = l[i]? := by
  induction hq : i / size generalizing i l with
  | zero =>
    have hlt : i < size := (Nat.div_eq_zero_iff_lt hsize).1 hq
    have hpad : (List.replicate pad fill).length = pad := List.length_replicate
    rw [Nat.zero_mul, Nat.zero_add, Nat.mod_eq_of_lt hlt,
      paddedChunks_of_pos pad fill hsize (Nat.zero_lt_of_lt hi),
      List.getElem?_append_right (by omega), hpad, Nat.add_sub_cancel_left,
      List.getElem?_append_left (by rw [List.length_take]; omega), List.getElem?_take_of_lt hlt]
  | succ q ih =>
    have hle : size ≤ i := by
      by_contra hlt
      rw [Nat.div_eq_of_lt (Nat.lt_of_not_le hlt)] at hq
      exact absurd hq (Nat.succ_ne_zero q).symm
    have hq' : (i - size) / size = q := by
      rw [Nat.div_eq_sub_div hsize hle] at hq
      exact Nat.succ.inj hq
    have hrest := ih (l := l.drop size) (i := i - size) (by rw [List.length_drop]; omega) hq'
    rw [List.getElem?_drop, Nat.add_sub_cancel' hle, ← Nat.mod_eq_sub_mod hle] at hrest
    rw [Nat.succ_mul, Nat.add_comm (q * (pad + size)), Nat.add_assoc,
      getElem?_paddedChunks_add hsize (Nat.lt_of_le_of_lt hle hi)]
    exact hrest

/-- The padding is in front of every chunk that there is. -/
theorem getElem?_paddedChunks_pad (hsize : 0 < size) {q : ℕ} (hq : q * size < l.length)
    (hi : i < pad) : (paddedChunks pad size fill l)[q * (pad + size) + i]? = some fill := by
  induction q generalizing l with
  | zero =>
    rw [Nat.zero_mul] at hq ⊢
    rw [Nat.zero_add, paddedChunks_of_pos pad fill hsize hq,
      List.getElem?_append_left (by rwa [List.length_replicate]), List.getElem?_replicate,
      if_pos hi]
  | succ q ih =>
    rw [Nat.succ_mul] at hq
    have hrest := ih (l := l.drop size) (by rw [List.length_drop]; omega)
    rw [Nat.succ_mul, Nat.add_comm (q * (pad + size)), Nat.add_assoc,
      getElem?_paddedChunks_add hsize (by omega)]
    exact hrest

/-! ## Without the padding -/

/-- What is left of a list of chunks without their padding. -/
def unpadChunks (pad size : ℕ) (l : List α) : List α :=
  if _ : l = [] ∨ pad + size = 0 then []
  else (l.drop pad).take size ++ unpadChunks pad size (l.drop (pad + size))
termination_by l.length
decreasing_by
  rename_i h
  have hl : 0 < l.length := List.length_pos_iff.2 fun hl => h (.inl hl)
  have hchunk : 0 < pad + size := Nat.pos_of_ne_zero fun hzero => h (.inr hzero)
  rw [List.length_drop]
  omega

/-- Nothing is left of an empty list. -/
lemma unpadChunks_nil (pad size : ℕ) : unpadChunks pad size ([] : List α) = [] := by
  rw [unpadChunks, dif_pos (.inl rfl)]

/-- An empty list has no chunks. -/
lemma paddedChunks_nil (pad size : ℕ) (fill : α) : paddedChunks pad size fill [] = [] := by
  rw [paddedChunks, dif_pos (.inl rfl)]

/-- Without their padding the chunks make up the list again. -/
theorem unpadChunks_paddedChunks (pad : ℕ) (fill : α) (hsize : 0 < size) (l : List α) :
    unpadChunks pad size (paddedChunks pad size fill l) = l := by
  fun_induction paddedChunks pad size fill l with
  | case1 l hnil =>
    obtain rfl := hnil.resolve_right (Nat.ne_of_gt hsize)
    exact unpadChunks_nil pad size
  | case2 l hne ih =>
    have hpad : (List.replicate pad fill).length = pad := List.length_replicate
    -- behind a short chunk there is nothing
    have hchunk : (l.take size ++ paddedChunks pad size fill (l.drop size)).take size =
          l.take size ∧
        (l.take size ++ paddedChunks pad size fill (l.drop size)).drop size =
          paddedChunks pad size fill (l.drop size) := by
      rcases Nat.lt_or_ge l.length size with hshort | hfull
      · rw [List.drop_eq_nil_of_le (Nat.le_of_lt hshort), paddedChunks_nil, List.append_nil,
          List.take_take, Nat.min_self, List.drop_eq_nil_of_le (by rw [List.length_take]; omega)]
        exact ⟨rfl, rfl⟩
      · have htake : (l.take size).length = size := List.length_take_of_le hfull
        exact ⟨List.take_left' htake, List.drop_left' htake⟩
    rw [unpadChunks, dif_neg, ← List.drop_drop, List.drop_left' hpad, hchunk.1, hchunk.2, ih,
      List.take_append_drop]
    rintro (hnil | hzero)
    · have htake := (List.append_eq_nil_iff.1 (List.append_eq_nil_iff.1 hnil).2).1
      rcases List.take_eq_nil_iff.1 htake with hzero | hl
      · omega
      · exact hne (.inl hl)
    · omega

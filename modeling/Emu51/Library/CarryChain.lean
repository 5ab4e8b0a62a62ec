import Emu51.Library.Transition
import Mathlib.Data.Nat.Digits.Defs
import Mathlib.Tactic.LinearCombination
import Mathlib.Tactic.Linarith

/-!
# Carries along strings of digits

A run whose steps treat one digit each and hand a carry (`k` below) on to the next. If every step
conserves the value of its digits and the carries, then so does the run, in the order from the
lowest digit to the highest (`Run.ascending`) as well as in the opposite order (`Run.descending`).
If moreover the step that treats the last digit notices that a signed digit is out of range, then it
notices that the whole signed number is (`Run.out_of_range_iff`).
-/

universe u v

namespace Digits

variable {ι : Type v}

/-- The value of a string of digits, the lowest first, where the highest digit is read as `t` and
the others as `u`. -/
def topValue (b : ℤ) (u t : ι → ℤ) : List ι → ℤ
  | [] => 0
  | [x] => t x
  | x :: y :: ys => u x + b * topValue b u t (y :: ys)

/-- The digit-wise sum has the sum of the values. -/
lemma ofDigits_map_add (b : ℕ) (f g : ι → ℕ) (xs : List ι) :
    Nat.ofDigits b (xs.map fun x => f x + g x) =
      Nat.ofDigits b (xs.map f) + Nat.ofDigits b (xs.map g) := by
  induction xs with
  | nil => rfl
  | cons x xs ih =>
    rw [List.map_cons, List.map_cons, List.map_cons, Nat.ofDigits_cons, Nat.ofDigits_cons,
      Nat.ofDigits_cons, ih]
    ring

/-- The value of digits below the base is below the power of the base. -/
lemma ofDigits_map_lt {b : ℕ} (hb : 1 < b) {f : ι → ℕ} (hf : ∀ x, f x < b) (xs : List ι) :
    Nat.ofDigits b (xs.map f) < b ^ xs.length := by
  have hlt := Nat.ofDigits_lt_base_pow_length hb (l := xs.map f) (by
    intro d hd
    obtain ⟨x, -, rfl⟩ := List.mem_map.1 hd
    exact hf x)
  rwa [List.length_map] at hlt

/-- The value with a signed top digit is additive in all its digits. -/
lemma topValue_add (b : ℤ) (u u' t t' : ι → ℤ) (xs : List ι) :
    topValue b (fun x => u x + u' x) (fun x => t x + t' x) xs =
      topValue b u t xs + topValue b u' t' xs := by
  fun_induction topValue b u t xs with
  | case1 => rfl
  | case2 x => rfl
  | case3 x y ys ih =>
    rw [topValue, topValue, ih]
    ring

/-- And so it is with the difference of two numbers. -/
lemma topValue_sub (b : ℤ) (u u' t t' : ι → ℤ) (xs : List ι) :
    topValue b (fun x => u x - u' x) (fun x => t x - t' x) xs =
      topValue b u t xs - topValue b u' t' xs := by
  fun_induction topValue b u t xs with
  | case1 => rfl
  | case2 x => rfl
  | case3 x y ys ih =>
    rw [topValue, topValue, ih]
    ring

/-- Digits that are read after a map are read through the map. -/
lemma topValue_map {ι' : Type*} (b : ℤ) (u t : ι' → ℤ) (f : ι → ι') (xs : List ι) :
    topValue b u t (xs.map f) = topValue b (u ∘ f) (t ∘ f) xs := by
  fun_induction topValue b (u ∘ f) (t ∘ f) xs with
  | case1 => rfl
  | case2 x => rfl
  | case3 x y ys ih =>
    rw [List.map_cons, List.map_cons, topValue, ← List.map_cons, ih]
    rfl

end Digits

namespace Run

open Digits

variable {κ : Type u} {ι : Type v} {step : κ → ι → κ → Prop} {c c' : κ} {tr : List (κ × ι)}
  {xs : List ι} {b : ℕ}

/-- From the lowest digit to the highest: what goes in is what comes out. -/
theorem ascending {f g : ι → ℕ} {k : κ → ℕ}
    (hstep : ∀ c x c', step c x c' → f x + k c = g x + b * k c')
    (h : Run step c tr c') (hxs : tr.map Prod.snd = xs) :
    Nat.ofDigits b (xs.map f) + k c =
      Nat.ofDigits b (xs.map g) + b ^ xs.length * k c' := by
  induction h generalizing xs with
  | refl c =>
    subst hxs
    simp
  | @head c c₁ c₂ x tr hx _ ih =>
    subst hxs
    have hhead := hstep c x c₁ hx
    have htail := ih rfl
    simp only [List.map_cons, Nat.ofDigits_cons, List.length_cons, Nat.pow_succ] at htail ⊢
    linear_combination hhead + b * htail

/-- From the highest digit to the lowest: the same, with the carry coming in above. -/
theorem descending {f g : ι → ℕ} {k : κ → ℕ}
    (hstep : ∀ c x c', step c x c' → b * k c + f x = g x + k c')
    (h : Run step c tr c') (hxs : tr.map Prod.snd = xs) :
    b ^ xs.length * k c + Nat.ofDigits b (xs.map f).reverse =
      Nat.ofDigits b (xs.map g).reverse + k c' := by
  induction h generalizing xs with
  | refl c =>
    subst hxs
    simp
  | @head c c₁ c₂ x tr hx _ ih =>
    subst hxs
    have hhead := hstep c x c₁ hx
    have htail := ih rfl
    simp only [List.map_cons, Nat.ofDigits_reverse_cons, List.length_map, List.length_cons,
      Nat.pow_succ] at htail ⊢
    linear_combination b ^ tr.length * hhead + htail

/-- A number is out of the range of `n` signed digits if the last step finds its digit out of
range. -/
theorem out_of_range_iff {f g t : ι → ℤ} {k : κ → ℤ} {P : κ → Prop} (hb : Even b)
    (hg : ∀ x, 0 ≤ g x ∧ g x < b)
    (hstep : ∀ c x c', step c x c' → f x + k c = g x + b * k c')
    (hP : ∀ c x c', step c x c' →
      (P c' ↔ ¬(-b ≤ 2 * (t x + k c) ∧ 2 * (t x + k c) < b)))
    (h : Run step c tr c') (hxs : tr.map Prod.snd = xs) (hne : xs ≠ []) :
    P c' ↔ ¬(-(b ^ xs.length : ℤ) ≤ 2 * (topValue b f t xs + k c) ∧
      2 * (topValue b f t xs + k c) < b ^ xs.length) := by
  induction h generalizing xs with
  | refl c => exact absurd hxs.symm hne
  | @head c c₁ c₂ x tr hx hrun ih =>
    subst hxs
    cases hrun with
    | refl => simpa [topValue] using hP c x c₁ hx
    | @head _ c₃ _ y tr hy hrun =>
      have hhead := hstep c x c₁ hx
      rw [ih rfl (List.cons_ne_nil _ _)]
      simp only [List.map_cons, List.length_cons, topValue]
      rw [pow_succ (b : ℤ) (List.length _ + 1)]
      -- the power of the base is even, so the digit `g x` does not decide
      obtain ⟨n, hn⟩ : ∃ n : ℤ, (b : ℤ) ^ ((tr.map Prod.snd).length + 1) = 2 * n := by
        obtain ⟨j, hj⟩ := hb
        exact ⟨b ^ (tr.map Prod.snd).length * j, by rw [pow_succ, hj]; push_cast; ring⟩
      rw [hn]
      obtain ⟨hlow, hhigh⟩ := hg x
      generalize topValue (b : ℤ) f t (y :: tr.map Prod.snd) = s at *
      have hsum : 2 * (f x + b * s + k c) = 2 * g x + 2 * b * (s + k c₁) := by
        linear_combination 2 * hhead
      rw [hsum]
      have hb' : (0 : ℤ) < b := lt_of_le_of_lt hlow hhigh
      constructor
      · rintro hout ⟨h₁, h₂⟩
        refine hout ⟨?_, ?_⟩
        · by_contra hlt
          have hle : s + k c₁ + 1 ≤ -n := by omega
          nlinarith
        · by_contra hge
          have hle : n ≤ s + k c₁ := by omega
          nlinarith
      · rintro hout ⟨h₁, h₂⟩
        refine hout ⟨?_, ?_⟩
        · nlinarith
        · have hle : s + k c₁ + 1 ≤ n := by omega
          nlinarith

end Run

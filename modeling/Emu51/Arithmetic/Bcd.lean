import Emu51.Arithmetic.MultiByte

/-!
# Packed decimal addition

`DA A` after `ADD` or `ADDC` turns the binary sum of two bytes of two decimal digits each into the
decimal one. It looks at both digits of the sum, at `AC` and at `CY`, and it can set `CY` but never
clears it. One column of a decimal addition is exact (`AddsColumnDecimal.value`), and so are numbers
of any length (`run_decimal`).
-/

namespace Emu51

variable {σ : Type}

/-- Both digits of the byte are decimal. -/
def IsBcd (b : Byte) : Prop := b.toNat / 16 ≤ 9 ∧ b.toNat % 16 ≤ 9

instance (b : Byte) : Decidable (IsBcd b) :=
  inferInstanceAs (Decidable (b.toNat / 16 ≤ 9 ∧ b.toNat % 16 ≤ 9))

/-- The number a byte of two decimal digits stands for. -/
def decimal (b : Byte) : ℕ := 10 * (b.toNat / 16) + b.toNat % 16

/-- A decimal number of several bytes, the lowest first. -/
def decimals (bs : List Byte) : ℕ := Nat.ofDigits 100 (bs.map decimal)

/-- A column of a decimal addition, with the sum `s` before it is adjusted. -/
structure DecimalColumn extends Column where
  s : Byte

/-- An addition and the adjustment of its sum. -/
def addAdjusted (o : AluOp) (x : DecimalColumn) : List ByteInsn := [.alu o x.a x.b x.s, .da x.s x.r]

/-- `ADD` and `DA A` on the lowest byte, `ADDC` and `DA A` on the others. -/
def addingDecimals : List DecimalColumn → List ByteInsn
  | [] => []
  | x :: xs => addAdjusted .add x ++ xs.flatMap (addAdjusted .addc)

/-! ## One column -/

/-- `DA A` in natural numbers. The intermediate value does not fit in a byte. -/
lemma toNat_daAdjust (acc psw : Byte) : (Ops.daAdjust acc psw).toNat =
    let t := if acc.toNat % 16 > 9 ∨ flag PSW_AC psw = true then acc.toNat + 6 else acc.toNat
    if t / 16 > 9 ∨ flag PSW_C psw = true then t + 0x60 else t := by
  have hacc := acc.isLt
  have hwide : (acc.setWidth 16 : Word).toNat = acc.toNat := by
    rw [BitVec.toNat_setWidth]
    omega
  have hdigit : (acc.setWidth 16 &&& 0xf : Word).toNat = acc.toNat % 16 := by
    rw [BitVec.toNat_and, hwide]
    exact Nat.and_two_pow_sub_one_eq_mod acc.toNat 4
  have hlow : (Ops.daLow acc psw).toNat =
      if acc.toNat % 16 > 9 ∨ flag PSW_AC psw = true then acc.toNat + 6 else acc.toNat := by
    have hcond : (decide ((acc.setWidth 16 &&& 0xf : Word) > 9) || psw &&& PSW_AC != 0) = true ↔
        acc.toNat % 16 > 9 ∨ flag PSW_AC psw = true := by
      rw [Bool.or_eq_true, decide_eq_true_iff, GT.gt, BitVec.lt_def, hdigit]
      rfl
    rw [Ops.daLow]
    by_cases h : acc.toNat % 16 > 9 ∨ flag PSW_AC psw = true
    · rw [if_pos (hcond.2 h), if_pos h, BitVec.toNat_add, hwide]
      exact Nat.mod_eq_of_lt (Nat.lt_trans (Nat.add_lt_add_right hacc 6) (by decide))
    · rw [if_neg (mt hcond.1 h), if_neg h, hwide]
  have hlt : (Ops.daLow acc psw).toNat < 262 := by
    rw [hlow]
    split_ifs <;> omega
  have hcond : (decide ((Ops.daLow acc psw >>> 4) > 9) || psw &&& PSW_C != 0) = true ↔
      (Ops.daLow acc psw).toNat / 16 > 9 ∨ flag PSW_C psw = true := by
    rw [Bool.or_eq_true, decide_eq_true_iff, GT.gt, BitVec.lt_def, BitVec.toNat_ushiftRight,
      Nat.shiftRight_eq_div_pow]
    rfl
  rw [Ops.daAdjust, ← hlow]
  dsimp only
  by_cases h : (Ops.daLow acc psw).toNat / 16 > 9 ∨ flag PSW_C psw = true
  · rw [if_pos (hcond.2 h), if_pos h, BitVec.toNat_add]
    exact Nat.mod_eq_of_lt (Nat.lt_trans (Nat.add_lt_add_right hlt 0x60) (by decide))
  · rw [if_neg (mt hcond.1 h), if_neg h]

/-- The low digits of one column: `l` is their sum, `h` that of the high digits, and the adjustment
carries into the high digit from ten on. -/
lemma decimal_low {h l s t k : ℕ} (hl : l ≤ 19) (hs : 16 * h + l = s + 256 * k)
    (ht : t = if s % 16 > 9 ∨ l > 15 then s + 6 else s) :
    t + 256 * k = if l ≤ 9 then 16 * h + l else 16 * (h + 1) + (l - 10) := by
  have hmod : s % 16 = l % 16 := by omega
  rw [hmod] at ht
  split_ifs at ht ⊢ <;> omega

/-- The high digits of one column: `d` is the sum with both digits adjusted. -/
lemma decimal_high {h l t d : ℕ} {k : Bool} (hh : h ≤ 19) (hl : l ≤ 9) (hk : k = true → 15 < h)
    (ht : t + 256 * k.toNat = 16 * h + l)
    (hd : d = if t / 16 > 9 ∨ k = true then t + 0x60 else t) :
    (k || decide (d > 0x99)) = decide (9 < h) ∧
      d % 256 = if 9 < h then 16 * (h - 10) + l else 16 * h + l := by
  cases k with
  | false =>
    obtain rfl : t = 16 * h + l := by simpa using ht
    have hdiv : (16 * h + l) / 16 = h := by omega
    simp only [hdiv, Bool.false_eq_true, or_false] at hd
    rw [Bool.false_or]
    split_ifs at hd ⊢ with hbig
    · exact ⟨by rw [decide_eq_decide]; omega, by omega⟩
    · exact ⟨by rw [decide_eq_decide]; omega, by omega⟩
  | true =>
    have hbig := hk rfl
    rw [Bool.toNat_true] at ht
    rw [if_pos (.inr rfl)] at hd
    rw [if_pos (by omega), Bool.true_or, eq_comm, decide_eq_true_iff]
    omega

/-- The arithmetic of one column: `t` is the sum with its low digit adjusted, `d` with both. -/
lemma decimal_column {a b c s t d : ℕ} {k : Bool} (ha : a / 16 ≤ 9 ∧ a % 16 ≤ 9)
    (hb : b / 16 ≤ 9 ∧ b % 16 ≤ 9) (hc : c ≤ 1) (hs : a + b + c = s + 256 * k.toNat)
    (ht : t = if s % 16 > 9 ∨ a % 16 + b % 16 + c > 15 then s + 6 else s)
    (hd : d = if t / 16 > 9 ∨ k = true then t + 0x60 else t) :
    (d % 256 / 16 ≤ 9 ∧ d % 256 % 16 ≤ 9) ∧
      10 * (a / 16) + a % 16 + (10 * (b / 16) + b % 16) + c =
        10 * (d % 256 / 16) + d % 256 % 16 + 100 * (k || decide (d > 0x99)).toNat := by
  have hsum : 16 * (a / 16 + b / 16) + (a % 16 + b % 16 + c) = s + 256 * k.toNat := by omega
  have hlow := decimal_low (by omega) hsum ht
  split_ifs at hlow with hl
  · obtain ⟨hcarry, hdigits⟩ := decimal_high (by omega) hl
      (by rintro rfl; rw [Bool.toNat_true] at hsum; omega) hlow hd
    rw [hcarry, hdigits]
    split_ifs with hh
    · rw [decide_eq_true hh, Bool.toNat_true]
      omega
    · rw [decide_eq_false hh, Bool.toNat_false]
      omega
  · obtain ⟨hcarry, hdigits⟩ := decimal_high (by omega) (by omega)
      (by rintro rfl; rw [Bool.toNat_true] at hsum; omega) hlow hd
    rw [hcarry, hdigits]
    split_ifs with hh
    · rw [decide_eq_true hh, Bool.toNat_true]
      omega
    · rw [decide_eq_false hh, Bool.toNat_false]
      omega

/-- One column of decimal digits is added, and its sum adjusted. -/
def AddsColumnDecimal (p : Byte) (x : DecimalColumn) (p' : Byte) : Prop :=
  (IsBcd x.a ∧ IsBcd x.b) ∧
    ∃ q, (x.s, q) = aluAddc x.a x.b p ∧ (ByteInsn.da x.s x.r).Results q p'

/-- One column of a decimal addition adds up in base 100, and the digits of its result are decimal
again. -/
theorem AddsColumnDecimal.value {p p' : Byte} {x : DecimalColumn} (h : AddsColumnDecimal p x p') :
    IsBcd x.r ∧ decimal x.a + decimal x.b + carryIn p = decimal x.r + 100 * carryIn p' := by
  obtain ⟨⟨ha, hb⟩, q, hsum, hr, hp'⟩ := h
  have hs : x.s = (aluAddc x.a x.b p).1 := congrArg Prod.fst hsum
  have hq : q = (aluAddc x.a x.b p).2 := congrArg Prod.snd hsum
  have hvalue := aluAddc_value x.a x.b p
  rw [← hs, ← hq, carryIn_eq q] at hvalue
  have hac : flag PSW_AC q = true ↔ x.a.toNat % 16 + x.b.toNat % 16 + carryIn p > 15 := by
    rw [hq, aluAddc_psw, flag_auxiliary_withFlags, toNat_and_digit, toNat_and_digit,
      decide_eq_true_iff]
  have hda := toNat_daAdjust x.s q
  simp only [hac] at hda
  have hresult : x.r.toNat = (Ops.daAdjust x.s q).toNat % 256 := by
    rw [hr, BitVec.toNat_setWidth]
  have hcarry : flag PSW_C p' = (flag PSW_C q || decide ((Ops.daAdjust x.s q).toNat > 0x99)) := by
    have hset : ∀ v : Byte, flag PSW_C (v ||| PSW_C) = true := by decide
    rw [hp']
    split_ifs with hbig
    · rw [hset, decide_eq_true (show (Ops.daAdjust x.s q).toNat > 0x99 from hbig), Bool.or_true]
    · rw [decide_eq_false (show ¬(Ops.daAdjust x.s q).toNat > 0x99 from hbig), Bool.or_false]
  have hcolumn := decimal_column ha hb (carryIn_le p) hvalue rfl hda
  rw [← hresult, ← hcarry, ← carryIn_eq] at hcolumn
  exact hcolumn

/-! ## Whole numbers -/

/-- The number in packed digits is the one in base 100 whose digits are the values of the bytes. -/
lemma decimals_map {ι : Type} (f : ι → Byte) (xs : List ι) :
    decimals (xs.map f) = Nat.ofDigits 100 (xs.map fun x => decimal (f x)) := by
  rw [decimals, List.map_map]
  rfl

/-- A number of decimal digits is below the power of a hundred. -/
lemma decimals_lt {bs : List Byte} (h : ∀ b ∈ bs, IsBcd b) : decimals bs < 100 ^ bs.length := by
  have hlt := Nat.ofDigits_lt_base_pow_length (b := 100) (l := bs.map decimal) (by decide) (by
    intro d hd
    obtain ⟨b, hb, rfl⟩ := List.mem_map.1 hd
    obtain ⟨h₁, h₂⟩ := h b hb
    unfold decimal
    omega)
  rwa [List.length_map] at hlt

/-- Two instructions for each column are one step for each column. -/
lemma run_columns {script : Script σ} {p p' : Byte} {tr : List (Byte × ByteInsn)}
    {xs : List DecimalColumn} (h : Run (PswStep script) p tr p')
    (htr : tr.map Prod.snd = xs.flatMap (addAdjusted .addc))
    (hxs : ∀ x ∈ xs, IsBcd x.a ∧ IsBcd x.b) :
    ∃ tr', tr'.map Prod.snd = xs ∧ Run AddsColumnDecimal p tr' p' := by
  induction xs generalizing p tr with
  | nil =>
    obtain rfl := List.map_eq_nil_iff.1 htr
    cases h
    exact ⟨[], rfl, .refl _⟩
  | cons x xs ih =>
    obtain ⟨hx, hrest⟩ := List.forall_mem_cons.1 hxs
    obtain ⟨q, tr₁, hadd, h₁, htr₁⟩ := h.uncons htr
    obtain ⟨p₂, tr₂, hda, h₂, htr₂⟩ := h₁.uncons htr₁
    obtain ⟨tr', htr', hrun⟩ := ih h₂ htr₂ hrest
    exact ⟨(p, x) :: tr', congrArg (x :: ·) htr', .head ⟨hx, q, hadd.results, hda.results⟩ hrun⟩

/-- Decimal addition of numbers of any length, whatever `PSW` is to begin with. -/
theorem run_decimal {script : Script σ} {p p' : Byte} {tr : List (Byte × ByteInsn)}
    {xs : List DecimalColumn} (h : Run (PswStep script) p tr p')
    (htr : tr.map Prod.snd = addingDecimals xs) (hne : xs ≠ [])
    (hxs : ∀ x ∈ xs, IsBcd x.a ∧ IsBcd x.b) :
    decimals (xs.map (·.r)) =
        (decimals (xs.map (·.a)) + decimals (xs.map (·.b))) % 100 ^ xs.length ∧
      (∀ x ∈ xs, IsBcd x.r) ∧
      (flag PSW_C p' = true ↔
        100 ^ xs.length ≤ decimals (xs.map (·.a)) + decimals (xs.map (·.b))) := by
  obtain ⟨tr', htr', hrun⟩ : ∃ tr', tr'.map Prod.snd = xs ∧
      Run AddsColumnDecimal (p &&& ~~~PSW_C) tr' p' := by
    cases xs with
    | nil => exact absurd rfl hne
    | cons x xs =>
      obtain ⟨hx, hrest⟩ := List.forall_mem_cons.1 hxs
      obtain ⟨q, tr₁, hadd, h₁, htr₁⟩ := h.uncons htr
      obtain ⟨p₂, tr₂, hda, h₂, htr₂⟩ := h₁.uncons htr₁
      obtain ⟨tr', htr', hrun⟩ := run_columns h₂ htr₂ hrest
      -- `ADD` is `ADDC` with the carry cleared
      exact ⟨(p &&& ~~~PSW_C, x) :: tr', congrArg (x :: ·) htr',
        .head ⟨hx, q, hadd.results, hda.results⟩ hrun⟩
  have hvalue := hrun.ascending (b := 100) (f := fun x => decimal x.a + decimal x.b)
    (g := fun x => decimal x.r) (k := carryIn) (fun _ _ _ hx => hx.value.2) htr'
  have hvalid : ∀ x ∈ xs, IsBcd x.r := by
    rw [← htr']
    exact hrun.forall_labels fun _ _ _ hx => hx.value.1
  have hlt : decimals (xs.map fun x => x.r) < 100 ^ xs.length := by
    have hall : ∀ b ∈ xs.map fun x => x.r, IsBcd b := by
      intro b hb
      obtain ⟨x, hx, rfl⟩ := List.mem_map.1 hb
      exact hvalid x hx
    rw [← List.length_map]
    exact decimals_lt hall
  rw [carryIn_eq, carryIn_eq, flag_carry_clear, Digits.ofDigits_map_add, ← decimals_map,
    ← decimals_map, ← decimals_map] at hvalue
  obtain ⟨hmod, hcarry⟩ := mod_and_carry hvalue hlt
  exact ⟨hmod, hvalid, hcarry⟩

/-- `4599 + 3801` with `ADD A,#01H`, `DA A`, `ADDC A,#38H` and `DA A`. The first adjustment sets the
carry that the second column takes in. -/
theorem run_decimal_carry :
    decimals [0x00, 0x84] = (decimals [0x99, 0x45] + decimals [0x01, 0x38]) % 100 ^ 2 := by
  have hadd : PswStep noHooks 0 (.alu .add 0x99 0x01 0x9a) 0 :=
    pswStep_imm (show insnmap 0x24 = _ from rfl) _ _ _ (by decide)
  have hda : PswStep noHooks 0 (.da 0x9a 0x00) 0x80 :=
    pswStep_da_imm _ _ (by decide) (by decide)
  have haddc : PswStep noHooks 0x80 (.alu .addc 0x45 0x38 0x7e) 0 :=
    pswStep_imm (show insnmap 0x34 = _ from rfl) _ _ _ (by decide)
  have hda' : PswStep noHooks 0 (.da 0x7e 0x84) 0 :=
    pswStep_da_imm _ _ (by decide) (by decide)
  have htr : [(0, .alu .add 0x99 0x01 0x9a), (0, .da 0x9a 0x00),
      (0x80, .alu .addc 0x45 0x38 0x7e), ((0 : Byte), .da 0x7e 0x84)].map Prod.snd =
      addingDecimals [⟨⟨0x99, 0x01, 0x00⟩, 0x9a⟩, ⟨⟨0x45, 0x38, 0x84⟩, 0x7e⟩] := rfl
  exact (run_decimal (.head hadd (.head hda (.head haddc (.head hda' (.refl 0))))) htr
    (List.cons_ne_nil _ _) (by decide)).1

end Emu51

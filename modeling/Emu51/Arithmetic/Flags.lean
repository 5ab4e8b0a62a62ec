import Emu51.Machine.Alu

/-!
# The flags of an addition and a subtraction

`alu_addc` and `alu_subb` assemble `PSW` from three comparisons. Here each flag is read back, and
the result and the carry are put together to the sum or the difference (`aluAddc_value`,
`aluSubb_value`). A subtraction is the addition of the complement with the carry inverted, except
for the auxiliary carry where the low digit of the subtrahend and the borrow make up sixteen
(`subbIsAddc_iff`).
-/

namespace Emu51

/-- A flag of `PSW` is set. -/
def flag (mask psw : Byte) : Bool := psw &&& mask != 0

/-- The carry that goes into an addition is the carry flag, as a number. -/
lemma carryIn_eq (psw : Byte) : carryIn psw = (flag PSW_C psw).toNat := by
  unfold carryIn flag
  by_cases h : psw &&& PSW_C = 0
  · rw [if_neg (not_not.2 h), h]
    rfl
  · rw [if_pos h, bne_iff_ne.2 h]
    rfl

/-! ## Reading flags back -/

section Assembled

variable (p : Byte) (c ac ov : Bool)

/-- `PSW` with its three arithmetic flags replaced. -/
def withFlags : Byte :=
  p &&& ~~~(PSW_C ||| PSW_AC ||| PSW_OV) ||| flagIf PSW_C c ||| flagIf PSW_AC ac |||
    flagIf PSW_OV ov

@[simp] lemma flag_carry_withFlags : flag PSW_C (withFlags p c ac ov) = c := by
  revert p
  cases c <;> cases ac <;> cases ov <;> decide

@[simp] lemma flag_auxiliary_withFlags : flag PSW_AC (withFlags p c ac ov) = ac := by
  revert p
  cases c <;> cases ac <;> cases ov <;> decide

@[simp] lemma flag_overflow_withFlags : flag PSW_OV (withFlags p c ac ov) = ov := by
  revert p
  cases c <;> cases ac <;> cases ov <;> decide

/-- The bits of `PSW` other than the three flags are those from before. -/
@[simp] lemma withFlags_and_others : withFlags p c ac ov &&& ~~~(PSW_C ||| PSW_AC ||| PSW_OV) =
    p &&& ~~~(PSW_C ||| PSW_AC ||| PSW_OV) := by
  revert p
  cases c <;> cases ac <;> cases ov <;> decide

end Assembled

/-- Masking the carry away leaves it clear. -/
lemma flag_carry_clear (p : Byte) : flag PSW_C (p &&& ~~~PSW_C) = false := by
  revert p
  decide

/-- The exclusive-or with the carry's mask inverts the carry flag. -/
lemma flag_carry_invert (p : Byte) : flag PSW_C (p ^^^ PSW_C) = !flag PSW_C p := by
  revert p
  decide

/-- Inverting the carry leaves the bits that arithmetic leaves. -/
lemma invert_and_others (p : Byte) : (p ^^^ PSW_C) &&& ~~~(PSW_C ||| PSW_AC ||| PSW_OV) =
    p &&& ~~~(PSW_C ||| PSW_AC ||| PSW_OV) := by
  revert p
  decide

/-! ## Addition -/

section Spec

variable (a b p : Byte)

/-- `ADDC` sets the three flags as the data sheet has them: unsigned carry, carry of the low digits,
and signed overflow. -/
lemma aluAddc_psw : (aluAddc a b p).2 = withFlags p
    (a.toNat + b.toNat + carryIn p > 0xff)
    ((a &&& 0xf).toNat + (b &&& 0xf).toNat + carryIn p > 0xf)
    (signedOverflow (a.toInt + b.toInt + carryIn p)) := rfl

/-- `SUBB` sets the three flags likewise, with a borrow of the low digits that counts modulo 16. -/
lemma aluSubb_psw : (aluSubb a b p).2 = withFlags p
    (b.toNat + carryIn p > a.toNat)
    ((b.toNat + carryIn p) % 16 > (a &&& 0xf).toNat)
    (signedOverflow (a.toInt - b.toInt - carryIn p)) := rfl

/-- The carry that goes in is 0 or 1. -/
lemma carryIn_le : carryIn p ≤ 1 := by
  rw [carryIn_eq]
  exact Bool.toNat_le _

/-- The sum of the operands and the carry is the result and 256 times the new carry. -/
theorem aluAddc_value : a.toNat + b.toNat + carryIn p =
    (aluAddc a b p).1.toNat + 256 * carryIn (aluAddc a b p).2 := by
  have ha := a.isLt
  have hb := b.isLt
  have hc := carryIn_le p
  rw [carryIn_eq (aluAddc a b p).2, aluAddc_psw, flag_carry_withFlags]
  change _ = (BitVec.ofNat 8 (a.toNat + b.toNat + carryIn p)).toNat + _
  rw [BitVec.toNat_ofNat]
  by_cases h : a.toNat + b.toNat + carryIn p > 0xff
  · rw [decide_eq_true h, Bool.toNat_true]
    omega
  · rw [decide_eq_false h, Bool.toNat_false]
    omega

/-- The result, the subtrahend and the borrow make up the minuend and 256 times the new borrow. -/
theorem aluSubb_value : b.toNat + (aluSubb a b p).1.toNat + carryIn p =
    a.toNat + 256 * carryIn (aluSubb a b p).2 := by
  have ha := a.isLt
  have hb := b.isLt
  have hc := carryIn_le p
  rw [carryIn_eq (aluSubb a b p).2, aluSubb_psw, flag_carry_withFlags]
  change _ + (BitVec.ofInt 8 (a.toNat - b.toNat - carryIn p)).toNat + _ = _
  rw [BitVec.toNat_ofInt]
  by_cases h : b.toNat + carryIn p > a.toNat
  · rw [decide_eq_true h, Bool.toNat_true]
    omega
  · rw [decide_eq_false h, Bool.toNat_false]
    omega

/-- A sum overflows exactly if it is no signed byte. -/
lemma signedOverflow_iff (s : ℤ) : signedOverflow s = true ↔ ¬(-256 ≤ 2 * s ∧ 2 * s < 256) := by
  unfold signedOverflow
  rw [Bool.or_eq_true, decide_eq_true_iff, decide_eq_true_iff]
  omega

/-- `ADDC` sets `OV` exactly if the signed sum with the carry does not fit in a byte. -/
theorem aluAddc_overflow : flag PSW_OV (aluAddc a b p).2 = true ↔
    ¬(-256 ≤ 2 * (a.toInt + b.toInt + carryIn p) ∧ 2 * (a.toInt + b.toInt + carryIn p) < 256) := by
  rw [aluAddc_psw, flag_overflow_withFlags, signedOverflow_iff]

/-- `SUBB` sets `OV` exactly if the signed difference with the borrow does not fit in a byte. -/
theorem aluSubb_overflow : flag PSW_OV (aluSubb a b p).2 = true ↔
    ¬(-256 ≤ 2 * (a.toInt - b.toInt - carryIn p) ∧ 2 * (a.toInt - b.toInt - carryIn p) < 256) := by
  rw [aluSubb_psw, flag_overflow_withFlags, signedOverflow_iff]

end Spec

/-! ## Subtraction as addition of the complement -/

/-- `alu_subb` does what `alu_addc` does with the complemented operand and the inverted carry, and
its auxiliary carry is the borrow out of the low digit. -/
structure SubbIsAddc (a b p : Byte) : Prop where
  result : (aluSubb a b p).1 = (aluAddc a (b ^^^ 0xff) (p ^^^ PSW_C)).1
  overflow : flag PSW_OV (aluSubb a b p).2 =
    flag PSW_OV (aluAddc a (b ^^^ 0xff) (p ^^^ PSW_C)).2
  carry : flag PSW_C (aluSubb a b p).2 = !flag PSW_C (aluAddc a (b ^^^ 0xff) (p ^^^ PSW_C)).2
  auxiliary : flag PSW_AC (aluSubb a b p).2 =
    !flag PSW_AC (aluAddc a (b ^^^ 0xff) (p ^^^ PSW_C)).2
  others : (aluSubb a b p).2 &&& ~~~(PSW_C ||| PSW_AC ||| PSW_OV) =
    (aluAddc a (b ^^^ 0xff) (p ^^^ PSW_C)).2 &&& ~~~(PSW_C ||| PSW_AC ||| PSW_OV)
  digit : flag PSW_AC (aluSubb a b p).2 = true ↔
    a.toNat % 16 < b.toNat % 16 + (flag PSW_C p).toNat

section Dual

variable (a b p : Byte)

/-- The one's complement of a byte is what is missing to 255. -/
lemma toNat_complement : (b ^^^ 0xff).toNat = 255 - b.toNat := by
  revert b
  decide

/-- As a signed number, the one's complement of a byte is one less than its negation. -/
lemma toInt_complement : (b ^^^ 0xff).toInt = -1 - b.toInt := by
  revert b
  decide

/-- The low digit of a byte is its remainder modulo 16. -/
lemma toNat_and_digit : (b &&& 0xf).toNat = b.toNat % 16 := by
  revert b
  decide

/-- An inverted carry flag brings 1 in exactly when the flag itself brought 0. -/
lemma carryIn_invert : carryIn (p ^^^ PSW_C) = 1 - carryIn p := by
  rw [carryIn_eq, carryIn_eq, flag_carry_invert]
  cases flag PSW_C p <;> rfl

/-- The signed sum for the complement is the signed difference, so `OV` is the same for both. -/
lemma signed_complement :
    a.toInt + (b ^^^ 0xff).toInt + (carryIn (p ^^^ PSW_C) : ℤ) = a.toInt - b.toInt - carryIn p := by
  have hc := carryIn_le p
  rw [toInt_complement, carryIn_invert]
  omega

/-- `SUBB` gives the result that `ADDC` gives for the complement and the inverted carry. -/
lemma subb_result : (aluSubb a b p).1 = (aluAddc a (b ^^^ 0xff) (p ^^^ PSW_C)).1 := by
  have hb := b.isLt
  have hc := carryIn_le p
  change BitVec.ofInt 8 (a.toNat - b.toNat - carryIn p) =
    BitVec.ofNat 8 (a.toNat + (b ^^^ 0xff).toNat + carryIn (p ^^^ PSW_C))
  apply BitVec.eq_of_toNat_eq
  rw [BitVec.toNat_ofInt, BitVec.toNat_ofNat, toNat_complement, carryIn_invert]
  omega

/-- The borrow of `SUBB` is the inverted carry of that addition. -/
lemma subb_carry :
    flag PSW_C (aluSubb a b p).2 = !flag PSW_C (aluAddc a (b ^^^ 0xff) (p ^^^ PSW_C)).2 := by
  have hb := b.isLt
  have hc := carryIn_le p
  rw [aluSubb_psw, aluAddc_psw, flag_carry_withFlags, flag_carry_withFlags, toNat_complement,
    carryIn_invert, ← decide_not]
  exact decide_eq_decide.2 (by omega)

/-- The auxiliary carry of the addition is the borrow out of the low digit. -/
lemma addc_auxiliary : (!flag PSW_AC (aluAddc a (b ^^^ 0xff) (p ^^^ PSW_C)).2) = true ↔
    a.toNat % 16 < b.toNat % 16 + (flag PSW_C p).toNat := by
  have hb := b.isLt
  have hc := carryIn_le p
  rw [aluAddc_psw, flag_auxiliary_withFlags, toNat_and_digit, toNat_and_digit, toNat_complement,
    carryIn_invert, ← carryIn_eq, Bool.not_eq_true', decide_eq_false_iff_not]
  omega

/-- The auxiliary carry of the subtraction is that borrow, unless the sum of the low digit and the
borrow coming in wraps. -/
lemma subb_digit_iff : (flag PSW_AC (aluSubb a b p).2 = true ↔
    a.toNat % 16 < b.toNat % 16 + (flag PSW_C p).toNat) ↔
      ¬(b.toNat % 16 = 15 ∧ flag PSW_C p = true) := by
  have hb := b.isLt
  rw [aluSubb_psw, flag_auxiliary_withFlags, toNat_and_digit, carryIn_eq, decide_eq_true_iff]
  cases flag PSW_C p with
  | false =>
    rw [Bool.toNat_false]
    simp
  | true =>
    rw [Bool.toNat_true]
    simp only [and_true]
    omega

/-- Subtraction is addition of the complement exactly where the low digit of the subtrahend and the
borrow do not make up sixteen. -/
theorem subbIsAddc_iff : SubbIsAddc a b p ↔ ¬(b.toNat % 16 = 15 ∧ flag PSW_C p = true) := by
  constructor
  · intro h
    exact (subb_digit_iff a b p).1 h.digit
  · intro h
    have hdigit := (subb_digit_iff a b p).2 h
    refine ⟨subb_result a b p, ?_, subb_carry a b p, ?_, ?_, hdigit⟩
    · rw [aluSubb_psw, aluAddc_psw, flag_overflow_withFlags, flag_overflow_withFlags,
        signed_complement]
    · exact Bool.eq_iff_iff.2 (hdigit.trans (addc_auxiliary a b p).symm)
    · rw [aluSubb_psw, aluAddc_psw, withFlags_and_others, withFlags_and_others, invert_and_others]

end Dual

/-- `0 - 0x0f` with a borrow coming in: there is a borrow out of the low digit, and `AC` is
clear. -/
theorem subb_misses_auxiliary : ¬∀ a b p : Byte, SubbIsAddc a b p := by
  intro h
  have hdigit := (h 0 0x0f PSW_C).digit
  revert hdigit
  decide

end Emu51

import Emu51.Machine.State

/-!
# The arithmetic unit

`alu_cmp`, `alu_addc`, `alu_add` and `alu_subb` as functions of the operands and of `PSW`, returning
the result and the new `PSW`. Sums and comparisons that C performs in `int` are performed in `ℕ`
and `ℤ`.
-/

namespace Emu51

/-- The flag `mask` if the condition holds, and no flag otherwise. -/
def flagIf (mask : Byte) (c : Bool) : Byte := if c then mask else 0

/-- `!!(PSW & PSW_C)`. -/
def carryIn (psw : Byte) : ℕ := if psw &&& PSW_C ≠ 0 then 1 else 0

/-- `sres > 127 || sres < -128`. -/
def signedOverflow (sres : ℤ) : Bool := 127 < sres || sres < -128

/-- `alu_cmp`. -/
def aluCmp (op1 op2 psw : Byte) : Byte × Byte :=
  (op1 - op2, psw &&& ~~~PSW_C ||| flagIf PSW_C (op1 < op2))

/-- `alu_addc`. -/
def aluAddc (op1 op2 psw : Byte) : Byte × Byte :=
  let c := carryIn psw
  let res := BitVec.ofNat 8 (op1.toNat + op2.toNat + c)
  let sres := op1.toInt + op2.toInt + c
  let psw := psw &&& ~~~(PSW_C ||| PSW_AC ||| PSW_OV)
  let psw := psw ||| flagIf PSW_C (op1.toNat + op2.toNat + c > 0xff)
  let psw := psw ||| flagIf PSW_AC ((op1 &&& 0xf).toNat + (op2 &&& 0xf).toNat + c > 0xf)
  let psw := psw ||| flagIf PSW_OV (signedOverflow sres)
  (res, psw)

/-- `alu_add`. -/
def aluAdd (op1 op2 psw : Byte) : Byte × Byte := aluAddc op1 op2 (psw &&& ~~~PSW_C)

/-- `alu_subb`. -/
def aluSubb (op1 op2 psw : Byte) : Byte × Byte :=
  let c := carryIn psw
  let res := BitVec.ofInt 8 (op1.toNat - op2.toNat - c)
  let sres := op1.toInt - op2.toInt - c
  let psw := psw &&& ~~~(PSW_C ||| PSW_AC ||| PSW_OV)
  let psw := psw ||| flagIf PSW_C (op2.toNat + c > op1.toNat)
  let psw := psw ||| flagIf PSW_AC ((op2.toNat + c) % 16 > (op1 &&& 0xf).toNat)
  let psw := psw ||| flagIf PSW_OV (signedOverflow sres)
  (res, psw)

/-- The operations `genops.py` generates instructions for. -/
inductive AluOp where
  | add | addc | orl | anl | xrl | subb
  deriving DecidableEq

/-- The function behind `alu_op`: the result and the new `PSW`. The logical operations are macros
that leave `PSW` alone. -/
def AluOp.apply (o : AluOp) (op1 op2 psw : Byte) : Byte × Byte :=
  match o with
  | .add => aluAdd op1 op2 psw
  | .addc => aluAddc op1 op2 psw
  | .subb => aluSubb op1 op2 psw
  | .orl => (op1 ||| op2, psw)
  | .anl => (op1 &&& op2, psw)
  | .xrl => (op1 ^^^ op2, psw)

end Emu51

import Emu51.Machine.Ops.Control

/-!
# The instructions: arithmetic and logic

The records that compute, hand-written in `ops.txt` or generated by `genops.py`. Records that differ
in `R0` and `R1`, or in the function they apply, share one body.
-/

namespace Emu51

namespace Ops

open Cpu

/-! ## Increment and decrement -/

/-- `ACC = f(ACC)`. -/
def accRec (f : Byte → Byte) : OpRec where
  code := do
    let acc ← get .acc
    set .acc (f acc)
  bytes := 1

def incA : OpRec := accRec fun acc => acc + 1

def decA : OpRec := accRec fun acc => acc - 1

/-- `writed(fetch(1), f(readd(fetch(1))));` -/
def modIram (f : Byte → Byte) : OpRec where
  code := do
    let dst ← fetch 1
    let src ← fetch 1
    let v ← readd src
    writed dst (f v)
  bytes := 2

def incIram : OpRec := modIram fun v => v + 1

def decIram : OpRec := modIram fun v => v - 1

/-- `RX = f(RX);` -/
def modR (f : Byte → Byte) (op : Byte) : OpRec where
  code := do
    let v ← getRx (op.setWidth 3)
    setRx (op.setWidth 3) (f v)
  bytes := 1

def incR (op : Byte) : OpRec := modR (fun v => v + 1) op

def decR (op : Byte) : OpRec := modR (fun v => v - 1) op

/-- `writed(Ri, f(readd(Ri)));` -/
def modAtr (f : Byte → Byte) (i : BitVec 3) : OpRec where
  code := do
    let dst ← getRx i
    let src ← getRx i
    let v ← readd src
    writed dst (f v)
  bytes := 1

def incAtr0 : OpRec := modAtr (fun v => v + 1) 0

def incAtr1 : OpRec := modAtr (fun v => v + 1) 1

/-- As in the source, the decrement adds one. -/
def decAtr0 : OpRec := modAtr (fun v => v + 1) 0

/-- As in the source, the decrement adds one. -/
def decAtr1 : OpRec := modAtr (fun v => v + 1) 1

def incD : OpRec where
  code := do
    let dptr ← getDptr
    let tmp16 := dptr + 1
    setDph (hi tmp16)
    setDpl (lo tmp16)
  bytes := 1

/-! ## Accumulator -/

def rrA : OpRec := accRec fun acc => acc >>> 1 ||| acc <<< 7

def rlA : OpRec := accRec fun acc => acc <<< 1 ||| acc >>> 7

def swapA : OpRec := accRec fun acc => acc >>> 4 ||| acc <<< 4

def clrA : OpRec := accRec fun _ => 0

def cplA : OpRec := accRec fun acc => acc ^^^ 0xff

def rrcA : OpRec where
  code := do
    let tmp1 ← get .acc
    let psw ← get .psw
    set .acc (tmp1 >>> 1 ||| (psw &&& PSW_C))
    set .psw ((psw &&& ~~~PSW_C) ||| tmp1 <<< 7)
  bytes := 1

def rlcA : OpRec where
  code := do
    let tmp1 ← get .acc
    let psw ← get .psw
    set .acc (tmp1 <<< 1 ||| psw >>> 7)
    set .psw ((psw &&& ~~~PSW_C) ||| (tmp1 &&& PSW_C))
  bytes := 1

/-- The first adjustment of `da_a`. -/
def daLow (acc psw : Byte) : Word :=
  let tmp16 : Word := acc.setWidth 16
  if (tmp16 &&& 0xf) > 9 || psw &&& PSW_AC != 0 then tmp16 + 6 else tmp16

/-- The value of `tmp16` after both adjustments of `da_a`. -/
def daAdjust (acc psw : Byte) : Word :=
  let tmp16 := daLow acc psw
  if (tmp16 >>> 4) > 9 || psw &&& PSW_C != 0 then tmp16 + 0x60 else tmp16

def daA : OpRec where
  code := do
    let acc ← get .acc
    let psw ← get .psw
    let tmp16 := daAdjust acc psw
    set .acc (tmp16.setWidth 8)
    if tmp16 > 0x99 then set .psw (psw ||| PSW_C) else pure ()
  bytes := 1

/-- `(PSW & ~(PSW_C | PSW_OV)) | B ? PSW_OV : 0`: the conditional operator binds weaker than the
disjunction, so the disjunction is the condition. -/
def mulPsw (psw b : Byte) : Byte :=
  if (psw &&& ~~~(PSW_C ||| PSW_OV)) ||| b ≠ 0 then PSW_OV else 0

def mul : OpRec where
  code := do
    let acc ← get .acc
    let b ← get .b
    let tmp16 : Word := acc.setWidth 16 * b.setWidth 16
    set .acc (lo tmp16)
    set .b (hi tmp16)
    let psw ← get .psw
    let b ← get .b
    set .psw (mulPsw psw b)
  bytes := 1

def div : OpRec where
  code := do
    let psw ← get .psw
    let psw := psw &&& ~~~(PSW_C ||| PSW_OV)
    set .psw psw
    let b ← get .b
    if b = 0 then set .psw (psw ||| PSW_OV)
    else
      let acc ← get .acc
      let tmp1 := acc % b
      set .acc (acc / b)
      set .b tmp1
  bytes := 1

/-! ## The generated records -/

/-- `{name}_ai`. -/
def genAi (o : AluOp) : OpRec where
  code := do
    let acc ← get .acc
    let v ← fetch 1
    let res ← aluOp o acc v
    set .acc res
  bytes := 2

/-- `{name}_ad`. -/
def genAd (o : AluOp) : OpRec where
  code := do
    let acc ← get .acc
    let addr ← fetch 1
    let v ← readd addr
    let res ← aluOp o acc v
    set .acc res
  bytes := 2

/-- `{name}_r0` and `{name}_r1`. -/
def genRi (o : AluOp) (i : BitVec 3) : OpRec where
  code := do
    let acc ← get .acc
    let addr ← getRx i
    let v ← readd addr
    let res ← aluOp o acc v
    set .acc res
  bytes := 1

/-- `{name}_ar`. -/
def genAr (o : AluOp) (op : Byte) : OpRec where
  code := do
    let acc ← get .acc
    let v ← getRx (op.setWidth 3)
    let res ← aluOp o acc v
    set .acc res
  bytes := 1

/-- `{name}_ia`. -/
def gen2Ia (o : AluOp) : OpRec where
  code := do
    let tmp1 ← fetch 1
    let v ← readd tmp1
    let acc ← get .acc
    let res ← aluOp o v acc
    writed tmp1 res
  bytes := 2

/-- `{name}_id`. -/
def gen2Id (o : AluOp) : OpRec where
  code := do
    let tmp1 ← fetch 1
    let v ← readd tmp1
    let imm ← fetch 2
    let res ← aluOp o v imm
    writed tmp1 res
  bytes := 3

end Ops

end Emu51

import Emu51.Machine.Ops.Arith

/-!
# The instructions: data transfer, compare and bit operations

The remaining records of `ops.txt`.
-/

namespace Emu51

namespace Ops

open Cpu

/-! ## Moves -/

/-- `ACC = x;` -/
def toAcc (x : Cpu Byte) (bytes : ℕ) : OpRec where
  code := do
    let v ← x
    set .acc v
  bytes := bytes

/-- `writed(fetch(1), x);` -/
def toIram (x : Cpu Byte) (bytes : ℕ) : OpRec where
  code := do
    let dst ← fetch 1
    let v ← x
    writed dst v
  bytes := bytes

/-- `writei(Ri, x);` -/
def toAtr (i : BitVec 3) (x : Cpu Byte) (bytes : ℕ) : OpRec where
  code := do
    let dst ← getRx i
    let v ← x
    writei dst v
  bytes := bytes

/-- `RX = x;` -/
def toR (op : Byte) (x : Cpu Byte) (bytes : ℕ) : OpRec where
  code := do
    let v ← x
    setRx (op.setWidth 3) v
  bytes := bytes

/-- `readd(fetch(1))` -/
def direct1 : Cpu Byte := do
  let src ← fetch 1
  readd src

/-- `readi(Ri)` -/
def indirect (i : BitVec 3) : Cpu Byte := do
  let src ← getRx i
  readi src

def mov74 : OpRec := toAcc (fetch 1) 2

def movE5 : OpRec := toAcc direct1 2

def movE6 : OpRec := toAcc (indirect 0) 1

def movE7 : OpRec := toAcc (indirect 1) 1

def movAr (op : Byte) : OpRec := toAcc (getRx (op.setWidth 3)) 1

def mov75 : OpRec := toIram (fetch 2) 3

def mov86 : OpRec := toIram (indirect 0) 2

def mov87 : OpRec := toIram (indirect 1) 2

def movDr (op : Byte) : OpRec := toIram (getRx (op.setWidth 3)) 2

def movF5 : OpRec := toIram (get .acc) 2

def mov85 : OpRec where
  code := do
    let dst ← fetch 2
    let v ← direct1
    writed dst v
  bytes := 3

def mov76 : OpRec := toAtr 0 (fetch 1) 2

def mov77 : OpRec := toAtr 1 (fetch 1) 2

def movA6 : OpRec := toAtr 0 direct1 2

def movA7 : OpRec := toAtr 1 direct1 2

def movF6 : OpRec := toAtr 0 (get .acc) 1

def movF7 : OpRec := toAtr 1 (get .acc) 1

def movRi (op : Byte) : OpRec := toR op (fetch 1) 2

def movRd (op : Byte) : OpRec := toR op direct1 2

def movRa (op : Byte) : OpRec := toR op (get .acc) 1

def mov90 : OpRec where
  code := do
    let h ← fetch 1
    setDph h
    let l ← fetch 2
    setDpl l
  bytes := 3

def movc83 : OpRec where
  code := do
    let pc ← getPc
    let acc ← get .acc
    let v ← readc (pc + acc.setWidth 16 + 1)
    set .acc v
  bytes := 1

def movcAd : OpRec where
  code := do
    let dptr ← getDptr
    let acc ← get .acc
    let v ← readc (dptr + acc.setWidth 16)
    set .acc v
  bytes := 1

/-- `ACC = readx8(Ri);` -/
def movxFrom (i : BitVec 3) : OpRec := toAcc (getRx i >>= readx8) 1

/-- `writex8(Ri, ACC);` -/
def movxTo (i : BitVec 3) : OpRec where
  code := do
    let addr ← getRx i
    let acc ← get .acc
    writex8 addr acc
  bytes := 1

def movxE0 : OpRec := toAcc (getDptr >>= readx) 1

def movxE2 : OpRec := movxFrom 0

def movxE3 : OpRec := movxFrom 1

def movxF0 : OpRec where
  code := do
    let dptr ← getDptr
    let acc ← get .acc
    writex dptr acc
  bytes := 1

def movxF2 : OpRec := movxTo 0

def movxF3 : OpRec := movxTo 1

def pushD : OpRec := { code := push direct1, bytes := 2 }

def popD : OpRec := toIram pop 2

/-! ## Exchange -/

def xchAd : OpRec where
  code := do
    let tmp1 ← get .acc
    let tmp2 ← fetch 1
    let v ← readd tmp2
    set .acc v
    writed tmp2 tmp1
  bytes := 2

/-- `tmp1 = readi(Ri); writei(Ri, ACC); ACC = tmp1;` -/
def xchAtr (i : BitVec 3) : OpRec where
  code := do
    let src ← getRx i
    let tmp1 ← readi src
    let dst ← getRx i
    let acc ← get .acc
    writei dst acc
    set .acc tmp1
  bytes := 1

def xchC6 : OpRec := xchAtr 0

def xchC7 : OpRec := xchAtr 1

def xchAr (op : Byte) : OpRec where
  code := do
    let tmp1 ← get .acc
    let v ← getRx (op.setWidth 3)
    set .acc v
    setRx (op.setWidth 3) tmp1
  bytes := 1

/-- `XCHD A, @Ri`. -/
def xchdAtr (i : BitVec 3) : OpRec where
  code := do
    let tmp1 ← get .acc
    let src ← getRx i
    let tmp2 ← readd src
    let dst ← getRx i
    writed dst ((tmp1 &&& 0x0f) ||| (tmp2 &&& 0xf0))
    set .acc ((tmp1 &&& 0xf0) ||| (tmp2 &&& 0x0f))
  bytes := 1

def xchdAtr0 : OpRec := xchdAtr 0

def xchdAtr1 : OpRec := xchdAtr 1

/-! ## Compare and loop -/

/-- `if (alu_cmp(x, y) != 0) { pc += (int8_t)fetch(2); }` -/
def cjne (x y : Cpu Byte) : OpRec where
  code := do
    let op1 ← x
    let op2 ← y
    let res ← alu aluCmp op1 op2
    if res ≠ 0 then
      let ofs ← fetch 2
      branch ofs
    else pure ()
  bytes := 3

def cjneA : OpRec := cjne (get .acc) (fetch 1)

def cjneB5 : OpRec := cjne (get .acc) direct1

def cjneB6 : OpRec := cjne (indirect 0) (fetch 1)

def cjneB7 : OpRec := cjne (indirect 1) (fetch 1)

def cjneR (op : Byte) : OpRec := cjne (getRx (op.setWidth 3)) (fetch 1)

def djnzI : OpRec where
  code := do
    let tmp1 ← fetch 1
    let ofs ← fetch 2
    let v ← readd tmp1
    let tmp2 := v - 1
    if tmp2 ≠ 0 then branch ofs else pure ()
    writed tmp1 tmp2
  bytes := 3

def djnzR (op : Byte) : OpRec where
  code := do
    let ofs ← fetch 1
    let v ← getRx (op.setWidth 3)
    setRx (op.setWidth 3) (v - 1)
    if v - 1 ≠ 0 then branch ofs else pure ()
  bytes := 2

/-! ## Bits -/

/-- `PSW = f(PSW);` -/
def pswRec (f : Byte → Byte) : OpRec where
  code := do
    let psw ← get .psw
    set .psw (f psw)
  bytes := 1

def clrC : OpRec := pswRec fun psw => psw &&& ~~~PSW_C

def setbC : OpRec := pswRec fun psw => psw ||| PSW_C

def cplC : OpRec := pswRec fun psw => psw ^^^ PSW_C

def clrB : OpRec where
  code := do
    let bit ← fetch 1
    writeb bit false
  bytes := 2

def setB : OpRec where
  code := do
    let bit ← fetch 1
    let v ← readd (bitaddr bit)
    writed (bitaddr bit) (v ||| bitMask bit)
  bytes := 2

def cplBit : OpRec where
  code := do
    let bit ← fetch 1
    let bit' ← fetch 1
    let v ← readb bit'
    writeb bit (!v)
  bytes := 2

def movBitC : OpRec where
  code := do
    let bit ← fetch 1
    let psw ← get .psw
    writeb bit (psw &&& PSW_C != 0)
  bytes := 2

/-- `PSW |= PSW_C` or `PSW &= ~PSW_C`. -/
def setCarry (c : Bool) : Cpu Unit := do
  let psw ← get .psw
  set .psw (if c then psw ||| PSW_C else psw &&& ~~~PSW_C)

def movCBit : OpRec where
  code := do
    setCarry false
    let bit ← fetch 1
    let v ← readb bit
    if v then setCarry true else pure ()
  bytes := 2

/-- `ANL C`: the bit is read only if the carry is set. -/
def anlC (f : Bool → Bool) : OpRec where
  code := do
    let psw ← get .psw
    if psw &&& PSW_C ≠ 0 then
      let bit ← fetch 1
      let v ← readb bit
      setCarry (f v)
    else setCarry false
  bytes := 2

/-- `ORL C`: the bit is read only if the carry is clear. -/
def orlC (f : Bool → Bool) : OpRec where
  code := do
    let psw ← get .psw
    if psw &&& PSW_C ≠ 0 then setCarry true
    else
      let bit ← fetch 1
      let v ← readb bit
      setCarry (f v)
  bytes := 2

def anlCbit : OpRec := anlC id

def anlCnbit : OpRec := anlC not

def orlCbit : OpRec := orlC id

def orlCnbit : OpRec := orlC not

end Ops

end Emu51

import Emu51.Machine.Cpu

/-!
# The instructions: records and control flow

A record of `ops.txt`, or one that `genops.py` generates, has its code and the number of bytes `gen`
advances `pc` by afterwards (`0` where the code moves `pc` itself). A record that stands for several
opcodes gets the opcode as an argument, which is what `op` is in the source. This file has the
jumps, branches, calls and returns.

C leaves the order open in which the arguments of a call and the sides of a binary operator are
evaluated. Here they are evaluated from left to right.
-/

namespace Emu51

/-- `struct op` of `gen.c`: the code of a record and its byte count. -/
structure OpRec where
  code : Cpu Unit
  bytes : ℕ

/-- What `gen` emits for a record: its code, then `pc += bytes` if the count is not zero. -/
def OpRec.emit (r : OpRec) : Cpu Unit := do
  r.code
  if r.bytes ≠ 0 then Cpu.advance (BitVec.ofNat 16 r.bytes) else pure ()

/-- What a record establishes whatever `pc` is, its code establishes. -/
lemma OpRec.wp_emit {σ : Type} {script : Script σ} {P : Machine σ → Prop}
    (hP : ∀ m w, P m → P (m.setPc w)) {r : OpRec} {m : Machine σ}
    (h : r.code.wp (cpuExec script) (fun _ _ => P) m) :
    r.emit.wp (cpuExec script) (fun _ _ => P) m := by
  rw [emit, Prog.wp_bind]
  refine Prog.wp_mono h fun _ _ m' hm' => ?_
  split
  · rw [Cpu.wp_advance]
    exact hP _ _ hm'
  · exact (Prog.wp_done _ _).2 hm'

namespace Ops

open Cpu

/-! ## Control flow -/

def nop : OpRec := { code := pure (), bytes := 1 }

/-- The loop of `opcode_a5` that prints `cnt` bytes of internal RAM. -/
def peekIramFrom (buf : Byte) : ℕ → Cpu Unit
  | 0 => pure ()
  | n + 1 => do
      peekIramFrom buf n
      let _ ← readi (buf + BitVec.ofNat 8 n)
      pure ()

/-- `opcode_a5` of `main.c`. It only prints, but the values it prints are read. -/
def opcodeA5 : Cpu Unit := do
  let request ← readd 0xff
  if request = 41 then
    let _ ← readd ACC
    let _ ← readd 0
    pure ()
  else if request = 42 then
    let buf ← readd 1
    let cnt ← readd ACC
    peekIramFrom buf cnt.toNat
  else pure ()

/-- The operations of `opcode_a5` read registers and internal RAM. -/
lemma opcodeA5_all {Q : CpuOp → Prop} (hreadd : ∀ a, Q (.readd a)) (hreadi : ∀ a, Q (.readi a)) :
    opcodeA5.All Q := by
  have hpeek : ∀ (buf : Byte) (n : ℕ), (peekIramFrom buf n).All Q := by
    intro buf n
    induction n with
    | zero => trivial
    | succ n ih => exact ih.bind fun _ => ⟨hreadi _, fun _ => trivial⟩
  refine ⟨hreadd _, fun request => Prog.all_ite.2 ⟨fun _ => ?_, fun _ => Prog.all_ite.2
    ⟨fun _ => ?_, fun _ => trivial⟩⟩⟩
  · exact ⟨hreadd _, fun _ => ⟨hreadd _, fun _ => trivial⟩⟩
  · exact ⟨hreadd _, fun buf => ⟨hreadd _, fun cnt => hpeek buf (BitVec.toNat cnt)⟩⟩

def undef : OpRec := { code := opcodeA5, bytes := 1 }

def ljmp : OpRec where
  code := do
    let l ← fetch 2
    let h ← fetch 1
    setPc (word h l)
  bytes := 0

def sjmp : OpRec where
  code := do
    let pc ← getPc
    let ofs ← fetch 1
    setPc (pc + (2 + ofs.signExtend 16))
  bytes := 0

/-- `PUSH(pc & 0xff); PUSH(pc >> 8);` -/
def pushPc : Cpu Unit := do
  push (lo <$> getPc)
  push (hi <$> getPc)

def lcall : OpRec where
  code := do
    let l ← fetch 2
    let h ← fetch 1
    advance 3
    pushPc
    setPc (word h l)
  bytes := 0

def acall : OpRec where
  code := do
    let l ← fetch 1
    let h ← fetch 0
    let reladdr : Word := l.setWidth 16 ||| ((h.setWidth 16 <<< 3) &&& 0x700)
    advance 2
    pushPc
    let pc ← getPc
    setPc ((reladdr &&& 0x7ff) ||| (pc &&& ~~~(0x7ff : Word)))
  bytes := 0

def ajmp (op : Byte) : OpRec where
  code := do
    let l ← fetch 1
    let reladdr : Word := l.setWidth 16 ||| ((op.setWidth 16 &&& 0xe0) <<< 3)
    let pc ← getPc
    setPc ((pc &&& ~~~(0x7ff : Word)) ||| reladdr)
  bytes := 0

/-- `reladdr = POP() << 8; reladdr |= POP(); pc = reladdr;` -/
def popPc : Cpu Unit := do
  let h ← pop
  let l ← pop
  setPc (word h l)

def ret : OpRec := { code := popPc, bytes := 0 }

def reti : OpRec where
  code := do
    irqlevelReti
    popPc
  bytes := 0

def jmpAd : OpRec where
  code := do
    let dptr ← getDptr
    let acc ← get .acc
    setPc (dptr + acc.setWidth 16)
  bytes := 0

def jbc : OpRec where
  code := do
    let bit ← fetch 1
    let ofs ← fetch 2
    advance 3
    let v ← readd (bitaddr bit)
    if v &&& bitMask bit ≠ 0 then
      let v' ← readd (bitaddr bit)
      writed (bitaddr bit) (v' &&& ~~~bitMask bit)
      branch ofs
    else pure ()
  bytes := 0

def jb : OpRec where
  code := do
    let bit ← fetch 1
    let ofs ← fetch 2
    advance 3
    let v ← readd (bitaddr bit)
    if v &&& bitMask bit ≠ 0 then branch ofs else pure ()
  bytes := 0

def jnb : OpRec where
  code := do
    let bit ← fetch 1
    let ofs ← fetch 2
    advance 3
    let v ← readd (bitaddr bit)
    if v &&& bitMask bit = 0 then branch ofs else pure ()
  bytes := 0

/-- A branch on a condition of one register: `JC`, `JNC`, `JZ`, `JNZ`. -/
def branchOn (r : CoreReg) (cond : Byte → Bool) : OpRec where
  code := do
    let ofs ← fetch 1
    advance 2
    let v ← get r
    if cond v then branch ofs else pure ()
  bytes := 0

def jc : OpRec := branchOn .psw fun psw => psw &&& PSW_C != 0

def jnc : OpRec := branchOn .psw fun psw => psw &&& PSW_C == 0

def jz : OpRec := branchOn .acc fun acc => acc == 0

def jnz : OpRec := branchOn .acc fun acc => acc != 0

end Ops

end Emu51

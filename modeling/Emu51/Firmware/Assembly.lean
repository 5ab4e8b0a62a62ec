import Emu51.Firmware.View
import Emu51.Library.StepFunction
import Mathlib.Algebra.Ring.Nat

/-!
# Assembly

The instructions of the firmware as they stand in its sources: with operands, and with labels for
the places they jump to. `assemble` gives the bytes the assembler makes of a listing at an address.
It fails where the assembler reports an error, that is for a branch out of range and for an `acall`
that leaves its page.

A listing is also executed as it stands (`Config.step`). The program counter is then a position in
the listing, and return addresses are positions on a stack of their own, so that a piece of code
runs in the same way wherever it is placed and whatever it is called from.
-/

namespace Emu51

/-! ## Syntax -/

/-- An operand of an instruction that works on the accumulator: `#v`, `a` or `Rn`. -/
inductive Operand where
  | imm (v : Byte)
  | dir (a : Byte)
  | reg (n : BitVec 3)

/-- The instructions that change the accumulator and nothing else. -/
inductive AccInsn where
  | clr | swap | rr | dec

/-- An instruction, where places in the code are named by `L`. -/
inductive Insn (L : Type) where
  /-- `mov A, s` -/
  | movA (s : Operand)
  /-- `mov d, A` -/
  | movDirA (d : Byte)
  /-- `mov d, #v` -/
  | movDirImm (d v : Byte)
  /-- `mov d, s` -/
  | movDirDir (d s : Byte)
  /-- `mov Rn, A` -/
  | movRegA (n : BitVec 3)
  /-- `mov Rn, #v` -/
  | movRegImm (n : BitVec 3) (v : Byte)
  /-- `mov Rn, s` -/
  | movRegDir (n : BitVec 3) (s : Byte)
  /-- `mov DPTR, #w` -/
  | movDptr (w : Word)
  /-- `inc DPTR` -/
  | incDptr
  /-- `movc A, @A+DPTR` -/
  | movcA
  /-- `movx A, @DPTR` -/
  | movxA
  /-- `clr A`, `swap A`, `rr A`, `dec A` -/
  | onA (f : AccInsn)
  /-- `rrc A` -/
  | rrcA
  /-- `mul AB` -/
  | mulAB
  /-- `clr C` -/
  | clrC
  /-- `clr bit` -/
  | clrBit (bit : Byte)
  /-- `setb bit` -/
  | setBit (bit : Byte)
  /-- `xch A, a` -/
  | xch (a : Byte)
  /-- `add A, s`, `addc A, s`, `subb A, s`, `orl A, s`, `anl A, s`, `xrl A, s` -/
  | alu (o : AluOp) (s : Operand)
  | push (a : Byte)
  | pop (a : Byte)
  | acall (l : L)
  | lcall (l : L)
  | ret
  | sjmp (l : L)
  | jc (l : L)
  | jz (l : L)
  | jnz (l : L)
  | jb (bit : Byte) (l : L)
  | jnb (bit : Byte) (l : L)
  /-- `cjne A, #v, l` -/
  | cjneA (v : Byte) (l : L)
  /-- `djnz Rn, l` -/
  | djnz (n : BitVec 3) (l : L)

/-- The instruction with its places named differently. -/
def Insn.map {L M : Type} (f : L → M) : Insn L → Insn M
  | movA s => movA s
  | movDirA d => movDirA d
  | movDirImm d v => movDirImm d v
  | movDirDir d s => movDirDir d s
  | movRegA n => movRegA n
  | movRegImm n v => movRegImm n v
  | movRegDir n s => movRegDir n s
  | movDptr w => movDptr w
  | incDptr => incDptr
  | movcA => movcA
  | movxA => movxA
  | onA g => onA g
  | rrcA => rrcA
  | mulAB => mulAB
  | clrC => clrC
  | clrBit bit => clrBit bit
  | setBit bit => setBit bit
  | xch a => xch a
  | alu o s => alu o s
  | push a => push a
  | pop a => pop a
  | acall l => acall (f l)
  | lcall l => lcall (f l)
  | ret => ret
  | sjmp l => sjmp (f l)
  | jc l => jc (f l)
  | jz l => jz (f l)
  | jnz l => jnz (f l)
  | jb bit l => jb bit (f l)
  | jnb bit l => jnb bit (f l)
  | cjneA v l => cjneA v (f l)
  | djnz n l => djnz n (f l)

/-- A listing: labels, each with the instructions up to the next one. -/
abbrev Listing (L : Type) := List (L × List (Insn L))

namespace Listing

variable {L : Type} [DecidableEq L]

/-- The position of a label: how many instructions stand before it. -/
def pos : Listing L → L → ℕ
  | [], _ => 0
  | (l', is) :: rest, l => if l' = l then 0 else is.length + pos rest l

/-- The instructions, with positions in place of labels. -/
def code (ls : Listing L) : List (Insn ℕ) := (ls.flatMap Prod.snd).map (Insn.map ls.pos)

end Listing

/-! ## Machine code -/

/-- The opcodes of the operations that `genops.py` generates start a row here. -/
def AluOp.row : AluOp → Byte
  | add => 0x20
  | addc => 0x30
  | orl => 0x40
  | anl => 0x50
  | xrl => 0x60
  | subb => 0x90

/-- An opcode whose low three bits are a register. -/
def regOp (op : Byte) (n : BitVec 3) : Byte := op ||| n.setWidth 8

def AccInsn.opcode : AccInsn → Byte
  | clr => 0xe4
  | swap => 0xc4
  | rr => 0x03
  | dec => 0x14

/-- The offset of a relative jump, if it is in range. -/
def relOffset (target next : Word) : Option Byte :=
  let d := lo (target - next)
  if next + d.signExtend 16 = target then some d else none

namespace Insn

/-- The length of an instruction. -/
def size {L : Type} : Insn L → ℕ
  | movA (.reg _) | movRegA _ | incDptr | movcA | movxA | onA _ | rrcA | mulAB | clrC
  | alu _ (.reg _) | ret => 1
  | movDirImm _ _ | movDirDir _ _ | movDptr _ | lcall _ | jb _ _ | jnb _ _ | cjneA _ _ => 3
  | _ => 2

/-- The bytes of an instruction. The place `l` is at the address `addr l`, the next instruction
at `next`. -/
def encode (addr : ℕ → Word) (next : Word) : Insn ℕ → Option (List Byte)
  | movA (.imm v) => some [0x74, v]
  | movA (.dir a) => some [0xe5, a]
  | movA (.reg n) => some [regOp 0xe8 n]
  | movDirA d => some [0xf5, d]
  | movDirImm d v => some [0x75, d, v]
  | movDirDir d s => some [0x85, s, d]
  | movRegA n => some [regOp 0xf8 n]
  | movRegImm n v => some [regOp 0x78 n, v]
  | movRegDir n s => some [regOp 0xa8 n, s]
  | movDptr w => some [0x90, hi w, lo w]
  | incDptr => some [0xa3]
  | movcA => some [0x93]
  | movxA => some [0xe0]
  | onA f => some [f.opcode]
  | rrcA => some [0x13]
  | mulAB => some [0xa4]
  | clrC => some [0xc3]
  | clrBit bit => some [0xc2, bit]
  | setBit bit => some [0xd2, bit]
  | xch a => some [0xc5, a]
  | alu o (.imm v) => some [o.row + 4, v]
  | alu o (.dir a) => some [o.row + 5, a]
  | alu o (.reg n) => some [regOp (o.row + 8) n]
  | push a => some [0xc0, a]
  | pop a => some [0xd0, a]
  | acall l =>
      if addr l &&& 0xf800 = next &&& 0xf800 then
        some [((hi (addr l) &&& 7) <<< 5) ||| 0x11, lo (addr l)]
      else none
  | lcall l => some [0x12, hi (addr l), lo (addr l)]
  | ret => some [0x22]
  | sjmp l => (relOffset (addr l) next).map fun d => [0x80, d]
  | jc l => (relOffset (addr l) next).map fun d => [0x40, d]
  | jz l => (relOffset (addr l) next).map fun d => [0x60, d]
  | jnz l => (relOffset (addr l) next).map fun d => [0x70, d]
  | jb bit l => (relOffset (addr l) next).map fun d => [0x20, bit, d]
  | jnb bit l => (relOffset (addr l) next).map fun d => [0x30, bit, d]
  | cjneA v l => (relOffset (addr l) next).map fun d => [0xb4, v, d]
  | djnz n l => (relOffset (addr l) next).map fun d => [regOp 0xd8 n, d]

end Insn

/-- The address of a position in code at `base`. -/
def codeAddr (code : List (Insn ℕ)) (base : Word) (p : ℕ) : Word :=
  base + BitVec.ofNat 16 ((code.take p).map Insn.size).sum

/-- The bytes of instructions from `next` on. -/
def assembleFrom (addr : ℕ → Word) : Word → List (Insn ℕ) → Option (List Byte)
  | _, [] => some []
  | a, i :: is =>
      let next := a + BitVec.ofNat 16 i.size
      (i.encode addr next).bind fun bs => (assembleFrom addr next is).map (bs ++ ·)

/-- The bytes the assembler makes of the code at `base`. -/
def assemble (code : List (Insn ℕ)) (base : Word) : Option (List Byte) :=
  assembleFrom (codeAddr code base) base code

/-- The code has been assembled for `base`, and it is there. -/
def Loaded (readc : Word → Byte) (code : List (Insn ℕ)) (base : Word) : Prop :=
  ∃ bs, assemble code base = some bs ∧
    ∀ i (hi : i < bs.length), readc (base + BitVec.ofNat 16 i) = bs[i]

/-! ## Execution -/

/-- An entry of the stack: a byte, or an address to return to, which is a position in the listing
or, at the bottom, the caller of the routine. -/
inductive Slot where
  | byte (v : Byte)
  | ret (p : Option ℕ)

/-- The state of a routine: the position of the next instruction (none once it has returned), the
registers, the stack and the number of bytes left for it. -/
structure Config (σ : Type) where
  pos : Option ℕ
  regs : Regs σ
  stack : List Slot
  room : ℕ

variable {σ : Type}

/-- The function behind an instruction on the accumulator. -/
def AccInsn.apply : AccInsn → Byte → Byte
  | clr, _ => 0
  | swap, x => x >>> 4 ||| x <<< 4
  | rr, x => x >>> 1 ||| x <<< 7
  | dec, x => x - 1

namespace Regs

/-- The operand of an instruction on the accumulator. -/
def operand (e : Scope σ) (s : Regs σ) : Operand → Option Byte
  | .imm v => some v
  | .dir a => s.read e.dev a
  | .reg n => if e.window then some (s.r n) else none

/-- Store in the register window. -/
def setReg (e : Scope σ) (s : Regs σ) (n : BitVec 3) (x : Byte) : Option (Regs σ) :=
  if e.window then some { s with r := Function.update s.r n x } else none

/-- The byte a bit is in. -/
def bitByte (e : Scope σ) (s : Regs σ) (bit : Byte) : Option Byte :=
  s.read e.dev (Cpu.bitaddr bit)

/-- Store the byte a bit is in. -/
def setBitByte (e : Scope σ) (s : Regs σ) (bit x : Byte) : Option (Regs σ) :=
  s.write e.dev (Cpu.bitaddr bit) x

end Regs

/-- What an instruction that leaves the stack alone does to the registers, and where execution goes
on, when the next instruction is at `next`. -/
def Insn.eval (e : Scope σ) (next : ℕ) (s : Regs σ) : Insn ℕ → Option (Regs σ × ℕ)
  | movA o => (s.operand e o).map fun x => ({ s with acc := x }, next)
  | movDirA d => (s.write e.dev d s.acc).map fun s' => (s', next)
  | movDirImm d v => (s.write e.dev d v).map fun s' => (s', next)
  | movDirDir d a =>
      (s.read e.dev a).bind fun x => (s.write e.dev d x).map fun s' => (s', next)
  | movRegA n => (s.setReg e n s.acc).map fun s' => (s', next)
  | movRegImm n v => (s.setReg e n v).map fun s' => (s', next)
  | movRegDir n a => (s.read e.dev a).bind fun x => (s.setReg e n x).map fun s' => (s', next)
  | movDptr w => some ({ s with dph := hi w, dpl := lo w }, next)
  | incDptr => some ({ s with dph := hi (s.dptr + 1), dpl := lo (s.dptr + 1) }, next)
  | movcA => some ({ s with acc := e.readc (s.dptr + s.acc.setWidth 16) }, next)
  | movxA => some ({ s with acc := e.readx s.dptr }, next)
  | onA f => some ({ s with acc := f.apply s.acc }, next)
  | rrcA =>
      some ({ s with
        acc := s.acc >>> 1 ||| (s.psw &&& PSW_C)
        psw := (s.psw &&& ~~~PSW_C) ||| s.acc <<< 7 }, next)
  | mulAB =>
      let w : Word := s.acc.setWidth 16 * s.b.setWidth 16
      some ({ s with acc := lo w, b := hi w, psw := Ops.mulPsw s.psw (hi w) }, next)
  | clrC => some ({ s with psw := s.psw &&& ~~~PSW_C }, next)
  | clrBit bit =>
      (s.bitByte e bit).bind fun x =>
        (s.setBitByte e bit (Cpu.withBit x (Cpu.bitMask bit) false)).map fun s' => (s', next)
  | setBit bit =>
      (s.bitByte e bit).bind fun x =>
        (s.setBitByte e bit (x ||| Cpu.bitMask bit)).map fun s' => (s', next)
  | xch a =>
      (s.read e.dev a).bind fun x =>
        ({ s with acc := x }.write e.dev a s.acc).map fun s' => (s', next)
  | alu o x =>
      (s.operand e x).map fun y =>
        ({ s with acc := (o.apply s.acc y s.psw).1, psw := (o.apply s.acc y s.psw).2 }, next)
  | sjmp l => some (s, l)
  | jc l => some (s, if s.psw &&& PSW_C != 0 then l else next)
  | jz l => some (s, if s.acc == 0 then l else next)
  | jnz l => some (s, if s.acc != 0 then l else next)
  | jb bit l =>
      (s.bitByte e bit).map fun x => (s, if x &&& Cpu.bitMask bit ≠ 0 then l else next)
  | jnb bit l =>
      (s.bitByte e bit).map fun x => (s, if x &&& Cpu.bitMask bit = 0 then l else next)
  | cjneA v l =>
      some ({ s with psw := (aluCmp s.acc v s.psw).2 },
        if (aluCmp s.acc v s.psw).1 ≠ 0 then l else next)
  | djnz n l =>
      (s.setReg e n (s.r n - 1)).map fun s' => (s', if s.r n - 1 ≠ 0 then l else next)
  | push _ | pop _ | acall _ | lcall _ | ret => none

namespace Config

/-- A call, while there is room for the return address. -/
def call (c : Config σ) (l next : ℕ) : Option (Config σ) :=
  match c.room with
  | n + 2 => some ⟨some l, c.regs, .ret (some next) :: c.stack, n⟩
  | _ => none

/-- What an instruction does. -/
def exec (e : Scope σ) (c : Config σ) (next : ℕ) : Insn ℕ → Option (Config σ)
  | .push a =>
      match c.room with
      | n + 1 =>
          (c.regs.read e.dev a).map fun x => ⟨some next, c.regs, .byte x :: c.stack, n⟩
      | 0 => none
  | .pop a =>
      match c.stack with
      | .byte x :: k =>
          (c.regs.write e.dev a x).map fun s => ⟨some next, s, k, c.room + 1⟩
      | _ => none
  | .acall l | .lcall l => c.call l next
  | .ret =>
      match c.stack with
      | .ret p :: k => some ⟨p, c.regs, k, c.room + 2⟩
      | _ => none
  | i => (i.eval e next c.regs).map fun y => { c with pos := some y.2, regs := y.1 }

/-- One instruction of the code. -/
def step (e : Scope σ) (code : List (Insn ℕ)) (c : Config σ) : Option (Config σ) :=
  match c.pos with
  | none => none
  | some p =>
    match code[p]? with
    | none => none
    | some i => c.exec e (p + 1) i

end Config

end Emu51

import Emu51.Machine.Effects
import Emu51.Machine.SetPc
import Emu51.Machine.System

/-!
# The addressing modes agree

A cell below `0x80` can be reached by a direct operand, through `@Ri` and, in the current register
window, as `Rn`. `AddrOp.effect` says what an operation does to the cell; every form of the
operation does just that (`exec_eq_effect`), except that `DEC @Ri` increments.
-/

namespace Emu51

variable {σ : Type}

/-! ## Forms of an operation -/

/-- The ways to name a cell. -/
inductive Mode where
  | direct
  | atRi (i : Fin 2)
  | rn (n : BitVec 3)
  deriving DecidableEq

/-- The form is `@Ri`. -/
def Mode.isAtRi : Mode → Bool
  | atRi _ => true
  | _ => false

/-- The mode designates the cell `c`. -/
def Mode.Designates (m : Machine σ) (c : Byte) : Mode → Prop
  | direct => True
  | atRi i => m.rx (BitVec.ofNat 3 i) = c
  | rn n => regCell m.reg n = dataCell c

/-- The operations on a cell that come in more than one form, with their other operands. -/
inductive AddrOp where
  | inc | dec
  | alu (o : AluOp)
  | movA | fromA
  | imm (v : Byte)
  | fromDirect (d : Byte)
  | toDirect (d : Byte)
  | xch
  | cjne (v rel : Byte)
  | djnz (rel : Byte)
  deriving DecidableEq

namespace AddrOp

/-- The high digit of the opcodes. -/
def row : AddrOp → Byte
  | inc => 0x00
  | dec => 0x10
  | alu .add => 0x20
  | alu .addc => 0x30
  | alu .orl => 0x40
  | alu .anl => 0x50
  | alu .xrl => 0x60
  | imm _ => 0x70
  | toDirect _ => 0x80
  | alu .subb => 0x90
  | fromDirect _ => 0xa0
  | cjne _ _ => 0xb0
  | xch => 0xc0
  | djnz _ => 0xd0
  | movA => 0xe0
  | fromA => 0xf0

/-- The operands of the instruction besides the cell. -/
def args : AddrOp → List Byte
  | imm v => [v]
  | fromDirect d => [d]
  | toDirect d => [d]
  | cjne v rel => [v, rel]
  | djnz rel => [rel]
  | _ => []

/-- The opcode of a form of the operation. -/
def opcode (op : AddrOp) (mode : Mode) : Byte :=
  match mode, op with
  | .direct, fromDirect _ => 0x85
  | .direct, op => op.row ||| 5
  | .atRi i, op => op.row ||| 6 ||| BitVec.ofNat 8 i
  | .rn n, op => op.row ||| 8 ||| n.setWidth 8

/-- The bytes of the instruction that applies the operation to the cell `c` in the given form, if
there is one. -/
def encode (op : AddrOp) (mode : Mode) (c : Byte) : Option (List Byte) :=
  match mode, op with
  | .direct, fromDirect d => some [opcode (fromDirect d) .direct, d, c]
  | .direct, cjne _ _ => none
  | .direct, op => some (op.opcode .direct :: c :: op.args)
  | .atRi _, djnz _ => none
  | .atRi i, op => some (op.opcode (.atRi i) :: op.args)
  | .rn n, op => some (op.opcode (.rn n) :: op.args)

/-- The record of a form of the operation. -/
def label (op : AddrOp) (mode : Mode) : Label :=
  match op, mode with
  | inc, .direct => .incIram
  | inc, .atRi i => if i = 0 then .incAtr0 else .incAtr1
  | inc, .rn _ => .incR
  | dec, .direct => .decIram
  | dec, .atRi i => if i = 0 then .decAtr0 else .decAtr1
  | dec, .rn _ => .decR
  | alu o, .direct => .genAd o
  | alu o, .atRi i => if i = 0 then .genR0 o else .genR1 o
  | alu o, .rn _ => .genAr o
  | movA, .direct => .movE5
  | movA, .atRi i => if i = 0 then .movE6 else .movE7
  | movA, .rn _ => .movAr
  | fromA, .direct => .movF5
  | fromA, .atRi i => if i = 0 then .movF6 else .movF7
  | fromA, .rn _ => .movRa
  | imm _, .direct => .mov75
  | imm _, .atRi i => if i = 0 then .mov76 else .mov77
  | imm _, .rn _ => .movRi
  | fromDirect _, .direct => .mov85
  | fromDirect _, .atRi i => if i = 0 then .movA6 else .movA7
  | fromDirect _, .rn _ => .movRd
  | toDirect _, .direct => .mov85
  | toDirect _, .atRi i => if i = 0 then .mov86 else .mov87
  | toDirect _, .rn _ => .movDr
  | xch, .direct => .xchAd
  | xch, .atRi i => if i = 0 then .xchC6 else .xchC7
  | xch, .rn _ => .xchAr
  | cjne _ _, .direct => .cjneB5
  | cjne _ _, .atRi i => if i = 0 then .cjneB6 else .cjneB7
  | cjne _ _, .rn _ => .cjneR
  | djnz _, .rn _ => .djnzR
  | djnz _, _ => .djnzI

/-- How far the operation branches. -/
def offset : AddrOp → Word
  | cjne _ rel => rel.signExtend 16
  | djnz rel => rel.signExtend 16
  | _ => 0

/-- What the operation does to the cell `c`: whether it branches, and the new state up to `pc`. -/
def effect (script : Script σ) (c : Byte) (op : AddrOp) (m : Machine σ) :
    Option (Bool × Machine σ) :=
  match op with
  | inc => some (false, m.setSfr c (m.sfr c + 1))
  | dec => some (false, m.setSfr c (m.sfr c - 1))
  | alu o =>
      let y := o.apply (m.sfr ACC) (m.sfr c) (m.sfr PSW)
      some (false, (m.setSfr PSW y.2).setSfr ACC y.1)
  | movA => some (false, m.setSfr ACC (m.sfr c))
  | fromA => some (false, m.setSfr c (m.sfr ACC))
  | imm v => some (false, m.setSfr c v)
  | fromDirect d => ((m.readd script d).map fun y => y.2.setSfr c y.1).map fun m' => (false, m')
  | toDirect d => (m.writed script d (m.sfr c)).map fun m' => (false, m')
  | xch => some (false, (m.setSfr c (m.sfr ACC)).setSfr ACC (m.sfr c))
  | cjne v _ =>
      let y := aluCmp (m.sfr c) v (m.sfr PSW)
      some (y.1 != 0, m.setSfr PSW y.2)
  | djnz _ => some (m.sfr c - 1 != 0, m.setSfr c (m.sfr c - 1))

/-- The operation that the program performs: its `DEC @Ri` is an increment. -/
def asCoded (op : AddrOp) (mode : Mode) : AddrOp :=
  if op = dec ∧ mode.isAtRi = true then inc else op

end AddrOp

namespace Machine

/-- The bytes stand in code memory from `w` on. -/
def CodeAt (m : Machine σ) (w : Word) (code : List Byte) : Prop :=
  ∀ k < code.length, some (m.readc (w + BitVec.ofNat 16 k)) = code[k]?

instance (m : Machine σ) (w : Word) (code : List Byte) : Decidable (m.CodeAt w code) :=
  inferInstanceAs (Decidable (∀ k < code.length, some (m.readc (w + BitVec.ofNat 16 k)) = code[k]?))

/-- The state after an instruction of the given length, which may have branched. -/
def moved (w : Word) (len : ℕ) (ofs : Word) (y : Bool × Machine σ) : Machine σ :=
  y.2.setPc (w + BitVec.ofNat 16 len + if y.1 then ofs else 0)

/-- The instructions at `p` and `q` do the same to everything except `pc`, and make the same branch
decision. -/
def SameEffect (script : Script σ) (m : Machine σ) (ofs p : Word) (len : ℕ) (q : Word)
    (len' : ℕ) : Prop :=
  ∃ r : Option (Bool × Machine σ), (m.setPc p).exec script = r.map (moved p len ofs) ∧
    (m.setPc q).exec script = r.map (moved q len' ofs)

end Machine

/-! ## What the records do -/

namespace Ops

variable {script : Script σ} {m : Machine σ} {c : Byte}

section Direct

variable (ht : m.ramsfrtrap c = false)
include ht

/-- `INC direct`, `DEC direct` and the others that modify a cell apply their function to the cell of
the operand. -/
lemma run_modIram (f : Byte → Byte) (hc : m.fetch 1 = c) :
    (modIram f).code.run (cpuExec script) m = some ((), m.setSfr c (f (m.sfr c))) := by
  simp only [modIram, Prog.run_bind, Cpu.run_fetch, Option.bind_some, hc, Cpu.run_readd,
    Machine.readd_of_untrapped ht, Cpu.run_writed, Machine.writed_of_untrapped ht, Option.map_some]

/-- The generated record with a direct operand takes the cell of its second byte through the
arithmetic unit. -/
lemma run_genAd (o : AluOp) (hc : m.fetch 1 = c) :
    (genAd o).code.run (cpuExec script) m =
      some ((), (m.setSfr PSW (o.apply (m.sfr ACC) (m.sfr c) (m.sfr PSW)).2).setSfr ACC
        (o.apply (m.sfr ACC) (m.sfr c) (m.sfr PSW)).1) := by
  simp only [genAd, Prog.run_bind, Cpu.run_get, Cpu.run_fetch, Option.bind_some, hc, Cpu.run_readd,
    Machine.readd_of_untrapped ht, Cpu.run_aluOp, Cpu.run_set]

/-- Reading a direct operand gives the cell its address names, and nothing changes. -/
lemma run_direct1 (hc : m.fetch 1 = c) :
    direct1.run (cpuExec script) m = some (m.sfr c, m) := by
  simp only [direct1, Prog.run_bind, Cpu.run_fetch, Option.bind_some, hc, Cpu.run_readd,
    Machine.readd_of_untrapped ht]

/-- A move to a direct address stores what it is given in the cell the second byte names. -/
lemma run_toIram {x : Cpu Byte} {v : Byte} {n : ℕ} (hc : m.fetch 1 = c)
    (hx : x.run (cpuExec script) m = some (v, m)) :
    (toIram x n).code.run (cpuExec script) m = some ((), m.setSfr c v) := by
  simp only [toIram, Prog.run_bind, Cpu.run_fetch, Option.bind_some, hc, hx, Cpu.run_writed,
    Machine.writed_of_untrapped ht, Option.map_some]

/-- `MOV direct, direct` with the cell as its source writes the value of the cell to the other
address. -/
lemma run_mov85_to {d : Byte} (hc : m.fetch 1 = c) (hd : m.fetch 2 = d) :
    mov85.code.run (cpuExec script) m =
      (m.writed script d (m.sfr c)).map fun m' => ((), m') := by
  simp only [mov85, Prog.run_bind, Cpu.run_fetch, Option.bind_some, run_direct1 ht hc, hd,
    Cpu.run_writed]

/-- `XCH A, direct` below `0x80` swaps the accumulator with the cell. -/
lemma run_xchAd (hlow : c < 0x80) (hc : m.fetch 1 = c) :
    xchAd.code.run (cpuExec script) m =
      some ((), (m.setSfr c (m.sfr ACC)).setSfr ACC (m.sfr c)) := by
  have hne : dataCell c ≠ dataCell ACC := by
    rw [Ne, dataCell_inj]
    rintro rfl
    exact absurd hlow (by decide)
  have ht' : (m.setSfr ACC (m.sfr c)).ramsfrtrap c = false := ht
  simp only [xchAd, Prog.run_bind, Cpu.run_get, Cpu.run_fetch, Option.bind_some, hc, Cpu.run_readd,
    Machine.readd_of_untrapped ht, Cpu.run_set, CoreReg.addr, Cpu.run_writed,
    Machine.writed_of_untrapped ht', Option.map_some]
  rw [Machine.setSfr, Machine.setSfr, Machine.setSfr, Machine.setSfr, Machine.setCell_comm _ hne]

/-- `DJNZ direct, rel` counts the cell down and branches unless it has come to 0. -/
lemma run_djnzI {rel : Byte} (hc : m.fetch 1 = c) (hr : m.fetch 2 = rel) :
    djnzI.code.run (cpuExec script) m = some ((), (m.setSfr c (m.sfr c - 1)).setPc
      (m.pc + if m.sfr c - 1 ≠ 0 then rel.signExtend 16 else 0)) := by
  have ht' : ∀ w, (m.setPc w).ramsfrtrap c = false := fun _ => ht
  simp only [djnzI, Prog.run_bind, Cpu.run_fetch, Option.bind_some, hc, hr, Cpu.run_readd,
    Machine.readd_of_untrapped ht]
  by_cases hz : m.sfr c - 1 ≠ 0
  · rw [if_pos hz, if_pos hz, Prog.run_bind, Cpu.run_branch, Option.bind_some, Cpu.run_writed,
      Machine.writed_of_untrapped (ht' _), Option.map_some]
    rfl
  · have hpc : m.pc + 0 = (m.setSfr c (m.sfr c - 1)).pc := BitVec.add_zero m.pc
    rw [if_neg hz, if_neg hz, Cpu.run_writed, Machine.writed_of_untrapped ht, Option.map_some,
      Machine.setPc_eq_self hpc]

end Direct

/-- `MOV direct, direct` with the cell as its target stores what reading the other address gives. -/
lemma run_mov85_from {d : Byte} (ht : ∀ v m', m.readd script d = some (v, m') →
    m'.ramsfrtrap c = false) (hd : m.fetch 1 = d) (hc : m.fetch 2 = c) :
    mov85.code.run (cpuExec script) m =
      (m.readd script d).map fun y => ((), y.2.setSfr c y.1) := by
  simp only [mov85, direct1, Prog.run_bind, Cpu.run_fetch, Option.bind_some, hd, hc, Cpu.run_readd,
    Cpu.run_writed]
  cases hread : m.readd script d with
  | none => rfl
  | some y =>
    rw [Option.bind_some, Machine.writed_of_untrapped (ht y.1 y.2 hread), Option.map_some,
      Option.map_some]

section AtRi

variable {i : BitVec 3} (hi : m.rx i = c) (hlow : c < 0x80)
include hi

include hlow in
/-- Reading `@Ri` gives the cell whose address is in the register, and nothing changes. -/
lemma run_indirect : (indirect i).run (cpuExec script) m = some (m.sfr c, m) := by
  simp only [indirect, Prog.run_bind, Cpu.run_getRx, Option.bind_some, hi, Cpu.run_readi,
    Machine.readi, iramCell_of_lt hlow, Machine.sfr]

/-- `INC @Ri` and `DEC @Ri`, as their records have it, apply a function to the cell the register
points to. -/
lemma run_modAtr (ht : m.ramsfrtrap c = false) (f : Byte → Byte) :
    (modAtr f i).code.run (cpuExec script) m = some ((), m.setSfr c (f (m.sfr c))) := by
  simp only [modAtr, Prog.run_bind, Cpu.run_getRx, Option.bind_some, hi, Cpu.run_readd,
    Machine.readd_of_untrapped ht, Cpu.run_writed, Machine.writed_of_untrapped ht, Option.map_some]

/-- The generated record with `@Ri` takes the cell the register points to through the arithmetic
unit. -/
lemma run_genRi (ht : m.ramsfrtrap c = false) (o : AluOp) :
    (genRi o i).code.run (cpuExec script) m =
      some ((), (m.setSfr PSW (o.apply (m.sfr ACC) (m.sfr c) (m.sfr PSW)).2).setSfr ACC
        (o.apply (m.sfr ACC) (m.sfr c) (m.sfr PSW)).1) := by
  simp only [genRi, Prog.run_bind, Cpu.run_get, Cpu.run_getRx, Option.bind_some, hi, Cpu.run_readd,
    Machine.readd_of_untrapped ht, Cpu.run_aluOp, Cpu.run_set]

include hlow in
/-- A move to `@Ri` stores what it is given in the cell the register points to. -/
lemma run_toAtr {x : Cpu Byte} {n : ℕ} :
    (toAtr i x n).code.run (cpuExec script) m =
      (x.run (cpuExec script) m).map fun y => ((), y.2.setSfr c y.1) := by
  simp only [toAtr, Prog.run_bind, Cpu.run_getRx, Option.bind_some, hi, Cpu.run_writei,
    Machine.writei, iramCell_of_lt hlow, Machine.setSfr]
  cases x.run (cpuExec script) m <;> rfl

include hlow in
/-- `XCH A, @Ri` swaps the accumulator with the cell the register points to. -/
lemma run_xchAtr : (xchAtr i).code.run (cpuExec script) m =
    some ((), (m.setSfr c (m.sfr ACC)).setSfr ACC (m.sfr c)) := by
  simp only [xchAtr, Prog.run_bind, Cpu.run_getRx, Option.bind_some, hi, Cpu.run_readi,
    Machine.readi, Cpu.run_get, Cpu.run_writei, Machine.writei, iramCell_of_lt hlow, Cpu.run_set]

end AtRi

section Rn

variable {n : BitVec 3} {op : Byte} (hn : regCell m.reg n = dataCell c) (hop : op.setWidth 3 = n)
include hn hop

/-- The register an opcode selects is the cell the window shows under its low three bits. -/
lemma run_getRx_op : (Cpu.getRx (op.setWidth 3)).run (cpuExec script) m = some (m.sfr c, m) := by
  rw [hop, Cpu.run_getRx, Machine.rx, hn]

/-- `INC Rn` and `DEC Rn` apply their function to the cell of the register. -/
lemma run_modR (f : Byte → Byte) :
    (modR f op).code.run (cpuExec script) m = some ((), m.setSfr c (f (m.sfr c))) := by
  simp only [modR, Prog.run_bind, run_getRx_op hn hop, Option.bind_some, Cpu.run_setRx]
  rw [hop, hn]

/-- The generated record with a register operand takes the cell of the register through the
arithmetic unit. -/
lemma run_genAr (o : AluOp) : (genAr o op).code.run (cpuExec script) m =
    some ((), (m.setSfr PSW (o.apply (m.sfr ACC) (m.sfr c) (m.sfr PSW)).2).setSfr ACC
      (o.apply (m.sfr ACC) (m.sfr c) (m.sfr PSW)).1) := by
  simp only [genAr, Prog.run_bind, Cpu.run_get, run_getRx_op hn hop, Option.bind_some,
    Cpu.run_aluOp, Cpu.run_set]

/-- A move to a register stores what it is given in the cell of the register, if the window stays
where it is. -/
lemma run_toR {x : Cpu Byte} {k : ℕ}
    (hx : ∀ v m', x.run (cpuExec script) m = some (v, m') → m'.reg = m.reg) :
    (toR op x k).code.run (cpuExec script) m =
      (x.run (cpuExec script) m).map fun y => ((), y.2.setSfr c y.1) := by
  simp only [toR, Prog.run_bind, Cpu.run_setRx]
  cases hrun : x.run (cpuExec script) m with
  | none => rfl
  | some y => rw [Option.bind_some, Option.map_some, hop, hx y.1 y.2 hrun, hn]

/-- `XCH A, Rn` swaps the accumulator with the cell of the register. -/
lemma run_xchAr (hlow : c < 0x80) : (xchAr op).code.run (cpuExec script) m =
    some ((), (m.setSfr c (m.sfr ACC)).setSfr ACC (m.sfr c)) := by
  have hne : dataCell c ≠ dataCell ACC := by
    rw [Ne, dataCell_inj]
    rintro rfl
    exact absurd hlow (by decide)
  simp only [xchAr, Prog.run_bind, Cpu.run_get, run_getRx_op hn hop, Option.bind_some, Cpu.run_set,
    Cpu.run_setRx]
  rw [hop, show (m.setSfr CoreReg.acc.addr (m.sfr c)).reg = m.reg from rfl, hn, Machine.setSfr,
    Machine.setSfr, Machine.setSfr, Machine.setCell_comm _ hne]

/-- `DJNZ Rn, rel` counts the cell of the register down and branches unless it has come to 0. -/
lemma run_djnzR {rel : Byte} (hr : m.fetch 1 = rel) :
    (djnzR op).code.run (cpuExec script) m = some ((), (m.setSfr c (m.sfr c - 1)).setPc
      (m.pc + if m.sfr c - 1 ≠ 0 then rel.signExtend 16 else 0)) := by
  simp only [djnzR, Prog.run_bind, Cpu.run_fetch, hr, run_getRx_op hn hop, Option.bind_some,
    Cpu.run_setRx]
  rw [hop, hn]
  by_cases hz : m.sfr c - 1 ≠ 0
  · rw [if_pos hz, if_pos hz, Cpu.run_branch]
    rfl
  · have hpc : m.pc + 0 = (m.setSfr c (m.sfr c - 1)).pc := BitVec.add_zero m.pc
    rw [if_neg hz, if_neg hz, Machine.setPc_eq_self hpc]
    rfl

end Rn

/-- `cjne` of an operand that is read from a cell without any effect. -/
lemma run_cjne {x : Cpu Byte} {v rel : Byte} (hx : x.run (cpuExec script) m = some (m.sfr c, m))
    (hv : m.fetch 1 = v) (hr : m.fetch 2 = rel) :
    (cjne x (Cpu.fetch 1)).code.run (cpuExec script) m =
      some ((), (m.setSfr PSW (aluCmp (m.sfr c) v (m.sfr PSW)).2).setPc
        (m.pc + if (aluCmp (m.sfr c) v (m.sfr PSW)).1 ≠ 0 then rel.signExtend 16 else 0)) := by
  have hr' : ∀ w, (m.setSfr PSW w).fetch 2 = rel := fun _ => hr
  simp only [cjne, Prog.run_bind, hx, Option.bind_some, Cpu.run_fetch, hv, Cpu.run_alu]
  by_cases hz : (aluCmp (m.sfr c) v (m.sfr PSW)).1 ≠ 0
  · rw [if_pos hz, if_pos hz, Prog.run_bind, Cpu.run_fetch, hr', Option.bind_some, Cpu.run_branch]
    rfl
  · have hpc : m.pc + 0 = (m.setSfr PSW (aluCmp (m.sfr c) v (m.sfr PSW)).2).pc :=
      BitVec.add_zero m.pc
    rw [if_neg hz, if_neg hz, Machine.setPc_eq_self hpc]
    rfl

end Ops

/-! ## Every form has the effect of its operation -/

namespace AddrOp

/-- The operation with its other operands forgotten. -/
def erase : AddrOp → AddrOp
  | imm _ => imm 0
  | fromDirect _ => fromDirect 0
  | toDirect _ => toDirect 0
  | cjne _ _ => cjne 0 0
  | djnz _ => djnz 0
  | op => op

/-- All operations, up to their other operands. -/
def all : List AddrOp :=
  [inc, dec, alu .add, alu .addc, alu .orl, alu .anl, alu .xrl, alu .subb, movA, fromA, imm 0,
    fromDirect 0, toDirect 0, xch, cjne 0 0, djnz 0]

/-- Every operation with an address mode is one of the list, once its operands are forgotten. -/
lemma erase_mem_all (op : AddrOp) : op.erase ∈ all := by
  cases op with
  | alu o => cases o <;> decide
  | _ => simp [erase, all]

/-- The dispatch table has the record of each form. -/
lemma insnmap_opcode {op : AddrOp} {mode : Mode} {c : Byte} {code : List Byte}
    (h : op.encode mode c = some code) : insnmap (op.opcode mode) = op.label mode := by
  have hopcode : op.erase.opcode mode = op.opcode mode := by cases op <;> cases mode <;> rfl
  have hlabel : op.erase.label mode = op.label mode := by cases op <;> cases mode <;> rfl
  have hform : mode.isAtRi = true → op.erase ≠ djnz 0 := by
    rintro hmode hop
    cases op <;> cases mode <;> simp [erase, encode, Mode.isAtRi] at hop h hmode
  rw [← hopcode, ← hlabel]
  cases mode with
  | direct =>
    have htable : ∀ op ∈ all, insnmap (op.opcode .direct) = op.label .direct := by decide +kernel
    exact htable _ op.erase_mem_all
  | atRi i =>
    have htable : ∀ op ∈ all, op ≠ djnz 0 →
        ∀ i, insnmap (op.opcode (.atRi i)) = op.label (.atRi i) := by decide +kernel
    exact htable _ op.erase_mem_all (hform rfl) i
  | rn n =>
    have htable : ∀ op ∈ all, ∀ n, insnmap (op.opcode (.rn n)) = op.label (.rn n) := by
      decide +kernel
    exact htable _ op.erase_mem_all n

/-- The low digit of the opcode has the number of the working register. -/
lemma opcode_rn (op : AddrOp) (n : BitVec 3) : (op.opcode (.rn n)).setWidth 3 = n := by
  have hopcode : op.erase.opcode (.rn n) = op.opcode (.rn n) := by cases op <;> rfl
  have htable : ∀ op ∈ all, ∀ n, (op.opcode (.rn n)).setWidth 3 = n := by decide +kernel
  rw [← hopcode]
  exact htable _ op.erase_mem_all n

end AddrOp

namespace Machine

variable {script : Script σ} {m : Machine σ} {c : Byte} {op : AddrOp} {mode : Mode}
  {code : List Byte}

/-- What is fetched from code that lies at `pc` is the code, byte by byte. -/
lemma CodeAt.fetch (h : m.CodeAt m.pc code) {k : ℕ} {b : Byte} (hk : code[k]? = some b) :
    m.fetch (BitVec.ofNat 16 k) = b := by
  have hlt : k < code.length := (List.getElem?_eq_some_iff.1 hk).1
  exact Option.some.inj ((h k hlt).trans hk)

/-- Code that leaves `pc` alone and has the effect of an operation that does not branch. -/
lemma run_of_plain {x : Cpu Unit} {r : Option (Machine σ)} {ofs : Word}
    (hpc : ∀ m', r = some m' → m'.pc = m.pc)
    (hx : x.run (cpuExec script) m = r.map fun m' => ((), m')) :
    x.run (cpuExec script) m = (r.map fun m' => (false, m')).map fun y =>
      ((), y.2.setPc (m.pc + if y.1 then ofs else 0)) := by
  rw [hx]
  cases r with
  | none => rfl
  | some m' =>
    have hself : m.pc + 0 = m'.pc := (BitVec.add_zero m.pc).trans (hpc m' rfl).symm
    simp only [Option.map_some, Bool.false_eq_true, if_false, setPc_eq_self hself]

/-- Two records that differ in the pointer register only. -/
lemma record_ite {l₀ l₁ : Label} {b : Byte} {f : BitVec 3 → OpRec} (h₀ : l₀.record b = f 0)
    (h₁ : l₁.record b = f 1) (i : Fin 2) :
    (if i = 0 then l₀ else l₁).record b = f (BitVec.ofNat 3 i) := by
  have hi : ∀ i : Fin 2, i = 0 ∨ i = 1 := by decide
  rcases hi i with rfl | rfl
  · exact h₀
  · exact h₁

section Effect

variable (hlow : c < 0x80) (ht : m.ramsfrtrap c = false)
include hlow ht

/-- The direct forms have the effect of their operations. -/
lemma direct_effect (hread : ∀ d v m', m.readd script d = some (v, m') → m'.ramsfrtrap c = false)
    (hpc : ∀ d v m', m.readd script d = some (v, m') → m'.pc = m.pc)
    (hpc' : ∀ d v m', m.writed script d v = some m' → m'.pc = m.pc)
    (hcode : op.encode .direct c = some code) (hat : m.CodeAt m.pc code) :
    ((op.label .direct).record (op.opcode .direct)).code.run (cpuExec script) m =
      (op.effect script c m).map fun y =>
        ((), y.2.setPc (m.pc + if y.1 then op.offset else 0)) := by
  cases op with
  | inc | dec =>
    obtain rfl := Option.some.inj hcode
    exact run_of_plain (r := some _) (fun _ h => Option.some.inj h ▸ rfl)
      (Ops.run_modIram ht _ (hat.fetch (k := 1) rfl))
  | alu o =>
    obtain rfl := Option.some.inj hcode
    exact run_of_plain (r := some _) (fun _ h => Option.some.inj h ▸ rfl)
      (Ops.run_genAd ht o (hat.fetch (k := 1) rfl))
  | movA =>
    obtain rfl := Option.some.inj hcode
    refine run_of_plain (r := some (m.setSfr ACC (m.sfr c))) (fun _ h => Option.some.inj h ▸ rfl) ?_
    rw [AddrOp.label, Label.record, Ops.movE5, Ops.toAcc, Prog.run_bind,
      Ops.run_direct1 ht (hat.fetch (k := 1) rfl)]
    rfl
  | fromA =>
    obtain rfl := Option.some.inj hcode
    exact run_of_plain (r := some _) (fun _ h => Option.some.inj h ▸ rfl)
      (Ops.run_toIram ht (hat.fetch (k := 1) rfl) (Cpu.run_get .acc))
  | imm v =>
    obtain rfl := Option.some.inj hcode
    have hv : (Cpu.fetch 2).run (cpuExec script) m = some (v, m) :=
      congrArg (fun b => some (b, m)) (hat.fetch (k := 2) rfl)
    exact run_of_plain (r := some _) (fun _ h => Option.some.inj h ▸ rfl)
      (Ops.run_toIram ht (hat.fetch (k := 1) rfl) hv)
  | fromDirect d =>
    obtain rfl := Option.some.inj hcode
    have hrun := Ops.run_mov85_from (hread d) (hat.fetch (k := 1) rfl) (hat.fetch (k := 2) rfl)
    refine run_of_plain (fun m' h => ?_) (hrun.trans (by rw [Option.map_map]; rfl))
    obtain ⟨y, hy, rfl⟩ := Option.map_eq_some_iff.1 h
    exact hpc d y.1 y.2 hy
  | toDirect d =>
    obtain rfl := Option.some.inj hcode
    exact run_of_plain (hpc' d _)
      (Ops.run_mov85_to ht (hat.fetch (k := 1) rfl) (hat.fetch (k := 2) rfl))
  | xch =>
    obtain rfl := Option.some.inj hcode
    exact run_of_plain (r := some _) (fun _ h => Option.some.inj h ▸ rfl)
      (Ops.run_xchAd ht hlow (hat.fetch (k := 1) rfl))
  | cjne v rel => exact absurd hcode (Option.some_ne_none code).symm
  | djnz rel =>
    obtain rfl := Option.some.inj hcode
    refine (Ops.run_djnzI ht (hat.fetch (k := 1) rfl) (hat.fetch (k := 2) rfl)).trans ?_
    simp only [AddrOp.effect, AddrOp.offset, Option.map_some, bne_iff_ne]

/-- The `@Ri` forms have the effect of their operations, except that `DEC` increments. -/
lemma atRi_effect {i : Fin 2} (hpc : ∀ d v m', m.readd script d = some (v, m') → m'.pc = m.pc)
    (hpc' : ∀ d v m', m.writed script d v = some m' → m'.pc = m.pc)
    (hcode : op.encode (.atRi i) c = some code) (hi : m.rx (BitVec.ofNat 3 i) = c)
    (hat : m.CodeAt m.pc code) :
    ((op.label (.atRi i)).record (op.opcode (.atRi i))).code.run (cpuExec script) m =
      ((op.asCoded (.atRi i)).effect script c m).map fun y =>
        ((), y.2.setPc (m.pc + if y.1 then op.offset else 0)) := by
  cases op with
  | inc | dec =>
    rw [AddrOp.label, record_ite (f := Ops.modAtr fun v => v + 1) rfl rfl]
    exact run_of_plain (r := some _) (fun _ h => Option.some.inj h ▸ rfl) (Ops.run_modAtr hi ht _)
  | alu o =>
    rw [AddrOp.label, record_ite (f := Ops.genRi o) rfl rfl]
    exact run_of_plain (r := some _) (fun _ h => Option.some.inj h ▸ rfl) (Ops.run_genRi hi ht o)
  | movA =>
    rw [AddrOp.label, record_ite (f := fun i => Ops.toAcc (Ops.indirect i) 1) rfl rfl]
    refine run_of_plain (r := some (m.setSfr ACC (m.sfr c))) (fun _ h => Option.some.inj h ▸ rfl) ?_
    rw [Ops.toAcc, Prog.run_bind, Ops.run_indirect hi hlow]
    rfl
  | fromA =>
    rw [AddrOp.label, record_ite (f := fun i => Ops.toAtr i (Cpu.get .acc) 1) rfl rfl]
    exact run_of_plain (r := some _) (fun _ h => Option.some.inj h ▸ rfl) (Ops.run_toAtr hi hlow)
  | imm v =>
    obtain rfl := Option.some.inj hcode
    have hv : (Cpu.fetch 1).run (cpuExec script) m = some (v, m) :=
      congrArg (fun b => some (b, m)) (hat.fetch (k := 1) rfl)
    rw [AddrOp.label, record_ite (f := fun i => Ops.toAtr i (Cpu.fetch 1) 2) rfl rfl]
    refine run_of_plain (r := some _) (fun _ h => Option.some.inj h ▸ rfl) ?_
    exact (Ops.run_toAtr hi hlow).trans (by rw [hv]; rfl)
  | fromDirect d =>
    obtain rfl := Option.some.inj hcode
    rw [AddrOp.label, record_ite (f := fun i => Ops.toAtr i Ops.direct1 2) rfl rfl]
    have hread : Ops.direct1.run (cpuExec script) m = m.readd script d := by
      simp only [Ops.direct1, Prog.run_bind, Cpu.run_fetch, Option.bind_some, Cpu.run_readd]
      rw [show m.fetch 1 = d from hat.fetch (k := 1) rfl]
    refine run_of_plain (fun m' h => ?_)
      ((Ops.run_toAtr hi hlow).trans (by rw [hread, Option.map_map]; rfl))
    obtain ⟨y, hy, rfl⟩ := Option.map_eq_some_iff.1 h
    exact hpc d y.1 y.2 hy
  | toDirect d =>
    obtain rfl := Option.some.inj hcode
    rw [AddrOp.label, record_ite (f := fun i => Ops.toIram (Ops.indirect i) 2) rfl rfl]
    refine run_of_plain (hpc' d _) ?_
    simp only [Ops.toIram, Prog.run_bind, Cpu.run_fetch, Option.bind_some,
      Ops.run_indirect hi hlow, Cpu.run_writed]
    rw [show m.fetch 1 = d from hat.fetch (k := 1) rfl]
  | xch =>
    rw [AddrOp.label, record_ite (f := Ops.xchAtr) rfl rfl]
    exact run_of_plain (r := some _) (fun _ h => Option.some.inj h ▸ rfl) (Ops.run_xchAtr hi hlow)
  | cjne v rel =>
    obtain rfl := Option.some.inj hcode
    rw [AddrOp.label, record_ite (f := fun i => Ops.cjne (Ops.indirect i) (Cpu.fetch 1)) rfl rfl]
    refine (Ops.run_cjne (Ops.run_indirect hi hlow) (hat.fetch (k := 1) rfl)
      (hat.fetch (k := 2) rfl)).trans ?_
    simp [AddrOp.asCoded, AddrOp.effect, AddrOp.offset]
  | djnz rel => exact absurd hcode (Option.some_ne_none code).symm

omit ht in
/-- The `Rn` forms have the effect of their operations. -/
lemma rn_effect {n : BitVec 3} (hpc : ∀ d v m', m.readd script d = some (v, m') → m'.pc = m.pc)
    (hpc' : ∀ d v m', m.writed script d v = some m' → m'.pc = m.pc)
    (hreg : ∀ d v m', m.readd script d = some (v, m') → m'.reg = m.reg)
    (hcode : op.encode (.rn n) c = some code) (hn : regCell m.reg n = dataCell c)
    (hat : m.CodeAt m.pc code) :
    ((op.label (.rn n)).record (op.opcode (.rn n))).code.run (cpuExec script) m =
      (op.effect script c m).map fun y =>
        ((), y.2.setPc (m.pc + if y.1 then op.offset else 0)) := by
  have hop := op.opcode_rn n
  cases op with
  | inc | dec =>
    exact run_of_plain (r := some _) (fun _ h => Option.some.inj h ▸ rfl) (Ops.run_modR hn hop _)
  | alu o =>
    exact run_of_plain (r := some _) (fun _ h => Option.some.inj h ▸ rfl) (Ops.run_genAr hn hop o)
  | movA =>
    refine run_of_plain (r := some (m.setSfr ACC (m.sfr c))) (fun _ h => Option.some.inj h ▸ rfl) ?_
    rw [AddrOp.label, Label.record, Ops.movAr, Ops.toAcc, Prog.run_bind, Ops.run_getRx_op hn hop]
    rfl
  | fromA =>
    exact run_of_plain (r := some _) (fun _ h => Option.some.inj h ▸ rfl)
      (Ops.run_toR hn hop fun _ _ h => (Prod.mk.inj (Option.some.inj h)).2 ▸ rfl)
  | imm v =>
    obtain rfl := Option.some.inj hcode
    have hv : (Cpu.fetch 1).run (cpuExec script) m = some (v, m) :=
      congrArg (fun b => some (b, m)) (hat.fetch (k := 1) rfl)
    refine run_of_plain (r := some (m.setSfr c v)) (fun _ h => Option.some.inj h ▸ rfl) ?_
    refine (Ops.run_toR hn hop fun _ _ h => ?_).trans (by rw [hv]; rfl)
    exact (Prod.mk.inj (Option.some.inj h)).2 ▸ rfl
  | fromDirect d =>
    obtain rfl := Option.some.inj hcode
    have hread : Ops.direct1.run (cpuExec script) m = m.readd script d := by
      simp only [Ops.direct1, Prog.run_bind, Cpu.run_fetch, Option.bind_some, Cpu.run_readd]
      rw [show m.fetch 1 = d from hat.fetch (k := 1) rfl]
    refine run_of_plain (fun m' h => ?_) ((Ops.run_toR hn hop fun v m' h => ?_).trans
      (by rw [hread, Option.map_map]; rfl))
    · obtain ⟨y, hy, rfl⟩ := Option.map_eq_some_iff.1 h
      exact hpc d y.1 y.2 hy
    · exact hreg d v m' (hread.symm.trans h)
  | toDirect d =>
    obtain rfl := Option.some.inj hcode
    refine run_of_plain (hpc' d _) ?_
    rw [AddrOp.label, Label.record, Ops.movDr, Ops.toIram]
    simp only [Prog.run_bind, Cpu.run_fetch, Option.bind_some, Ops.run_getRx_op hn hop,
      Cpu.run_writed]
    rw [show m.fetch 1 = d from hat.fetch (k := 1) rfl]
  | xch =>
    exact run_of_plain (r := some _) (fun _ h => Option.some.inj h ▸ rfl)
      (Ops.run_xchAr hn hop hlow)
  | cjne v rel =>
    obtain rfl := Option.some.inj hcode
    refine (Ops.run_cjne (Ops.run_getRx_op hn hop) (hat.fetch (k := 1) rfl)
      (hat.fetch (k := 2) rfl)).trans ?_
    simp [AddrOp.effect, AddrOp.offset]
  | djnz rel =>
    obtain rfl := Option.some.inj hcode
    refine (Ops.run_djnzR hn hop (hat.fetch (k := 1) rfl)).trans ?_
    simp only [AddrOp.effect, AddrOp.offset, Option.map_some, bne_iff_ne]

end Effect

/-- The record advances `pc` by the length of the instruction. -/
lemma record_bytes (hcode : op.encode mode c = some code) (b : Byte) :
    ((op.label mode).record b).bytes = code.length := by
  cases mode with
  | direct => cases op <;> first
    | exact absurd hcode (Option.some_ne_none code).symm
    | exact Option.some.inj hcode ▸ rfl
  | atRi i =>
    have hi : ∀ i : Fin 2, i = 0 ∨ i = 1 := by decide
    rcases hi i with rfl | rfl
    all_goals
      cases op <;> first
        | exact absurd hcode (Option.some_ne_none code).symm
        | exact Option.some.inj hcode ▸ rfl
  | rn n => cases op <;> exact Option.some.inj hcode ▸ rfl

/-- Every form of an operation does what the operation does, as it is coded. -/
theorem exec_eq_effect (ht : m.ramsfrtrap = sfrInitTrap) (hlow : c < 0x80)
    (hcode : op.encode mode c = some code) (hmode : mode.Designates m c)
    (hat : m.CodeAt m.pc code) :
    m.exec script =
      ((op.asCoded mode).effect script c m).map (moved m.pc code.length op.offset) := by
  have htc : ∀ {m' : Machine σ}, m'.ramsfrtrap = sfrInitTrap → m'.ramsfrtrap c = false := by
    rintro m' ht'
    rw [ht']
    exact sfrInitTrap_of_lt hlow
  have hpsw : m.ramsfrtrap PSW = false := by
    rw [ht]
    decide
  have hread : ∀ d v m', m.readd script d = some (v, m') →
      m'.ramsfrtrap = m.ramsfrtrap ∧ m'.pc = m.pc ∧ m'.reg = m.reg := by
    intro d v m' h
    have heffects := readd_effects (pokesOnly_true script) h
    exact ⟨heffects.fixed.ramsfrtrap, heffects.fixed.pc, heffects.reg hpsw⟩
  have hwrite : ∀ d v m', m.writed script d v = some m' → m'.pc = m.pc := fun d v m' h =>
    (writed_effects (pokesOnly_true script) trivial h).fixed.pc
  have hrun : ((op.label mode).record (op.opcode mode)).code.run (cpuExec script) m =
      ((op.asCoded mode).effect script c m).map fun y =>
        ((), y.2.setPc (m.pc + if y.1 then op.offset else 0)) := by
    cases mode with
    | direct =>
      have hcoded : op.asCoded .direct = op := by simp [AddrOp.asCoded, Mode.isAtRi]
      rw [hcoded]
      exact direct_effect hlow (htc ht) (fun d v m' h => htc ((hread d v m' h).1.trans ht))
        (fun d v m' h => (hread d v m' h).2.1) hwrite hcode hat
    | atRi i =>
      exact atRi_effect hlow (htc ht) (fun d v m' h => (hread d v m' h).2.1) hwrite hcode hmode hat
    | rn n =>
      have hcoded : op.asCoded (.rn n) = op := by simp [AddrOp.asCoded, Mode.isAtRi]
      rw [hcoded]
      exact rn_effect hlow (fun d v m' h => (hread d v m' h).2.1) hwrite
        (fun d v m' h => (hread d v m' h).2.2) hcode hmode hat
  have hhead : code[0]? = some (op.opcode mode) := by
    cases mode <;> cases op <;> first
      | exact absurd hcode (Option.some_ne_none code).symm
      | exact Option.some.inj hcode ▸ rfl
  have hlen : code.length ≠ 0 := by
    rintro hzero
    rw [List.length_eq_zero_iff.1 hzero] at hhead
    exact absurd hhead (by simp)
  rw [exec, show m.fetch 0 = op.opcode mode from hat.fetch hhead, dispatch, insn,
    AddrOp.insnmap_opcode hcode, OpRec.emit, Prog.run_bind, hrun, record_bytes hcode, if_pos hlen]
  cases (op.asCoded mode).effect script c m with
  | none => rfl
  | some y =>
    simp only [Option.map_some, Option.bind_some, Cpu.run_advance, moved]
    rw [setPc_pc, BitVec.add_assoc, BitVec.add_assoc, BitVec.add_comm (BitVec.ofNat 16 code.length)]
    rfl

/-- The effect of an operation does not depend on `pc`. -/
lemma effect_setPc (w : Word) : op.effect script c (m.setPc w) =
    (op.effect script c m).map fun y => (y.1, y.2.setPc w) := by
  cases op with
  | fromDirect d =>
    rw [AddrOp.effect, AddrOp.effect, readd_setPc, Option.map_map, Option.map_map, Option.map_map,
      Option.map_map]
    rfl
  | toDirect d =>
    rw [AddrOp.effect, AddrOp.effect, show (m.setPc w).sfr c = m.sfr c from rfl, writed_setPc,
      Option.map_map, Option.map_map]
    rfl
  | _ => rfl

/-- An instruction that lies at `p` does to the cell what its operation does, and `pc` moves on by
its length. -/
lemma exec_at (script : Script σ) (ht : m.ramsfrtrap = sfrInitTrap) (hlow : c < 0x80)
    (hcode : op.encode mode c = some code) (hmode : mode.Designates m c) {p : Word}
    (hat : m.CodeAt p code) : (m.setPc p).exec script =
      ((op.asCoded mode).effect script c m).map (moved p code.length op.offset) := by
  have hmode' : mode.Designates (m.setPc p) c := by cases mode <;> exact hmode
  rw [exec_eq_effect (m := m.setPc p) ht hlow hcode hmode' hat, effect_setPc, Option.map_map]
  rfl

/-- An increment is no decrement: no cell ends up the same after both. -/
lemma inc_effect_ne_dec {r : Option (Bool × Machine σ)} {p q ofs : Word} {k k' : ℕ}
    (hinc : (AddrOp.inc.effect script c m).map (moved p k ofs) = r.map (moved p k ofs))
    (hdec : (AddrOp.dec.effect script c m).map (moved q k' ofs) = r.map (moved q k' ofs)) :
    False := by
  cases r with
  | none => exact absurd hinc (Option.some_ne_none _)
  | some y =>
    have hone := congrArg (fun m : Machine σ => m.sfr c) (Option.some.inj hinc)
    have htwo := congrArg (fun m : Machine σ => m.sfr c) (Option.some.inj hdec)
    have hval : ∀ v : Byte, ((m.setSfr c v).sfr c) = v := fun v => m.sfr_setSfr_self c v
    have heq : m.sfr c + 1 = m.sfr c - 1 :=
      (hval _).symm.trans (hone.trans (htwo.symm.trans (hval _)))
    revert heq
    generalize m.sfr c = v
    revert v
    decide

/-- Two forms of an operation have the same effect exactly if they are not `DEC @Ri` and another
form of `DEC`. -/
theorem modes_agree_iff (script : Script σ) {mode' : Mode} {code' : List Byte} {p q : Word}
    (ht : m.ramsfrtrap = sfrInitTrap) (hlow : c < 0x80) (hcode : op.encode mode c = some code)
    (hcode' : op.encode mode' c = some code') (hmode : mode.Designates m c)
    (hmode' : mode'.Designates m c) (hat : m.CodeAt p code) (hat' : m.CodeAt q code') :
    m.SameEffect script op.offset p code.length q code'.length ↔
      (op = .dec → mode.isAtRi = mode'.isAtRi) := by
  have hexec := exec_at script ht hlow hcode hmode hat
  have hexec' := exec_at script ht hlow hcode' hmode' hat'
  constructor
  · rintro ⟨r, hr, hr'⟩ rfl
    rw [hexec] at hr
    rw [hexec'] at hr'
    cases hri : mode.isAtRi with
    | false =>
      cases hri' : mode'.isAtRi with
      | false => rfl
      | true =>
        rw [AddrOp.asCoded, if_neg (by simp [hri])] at hr
        rw [AddrOp.asCoded, if_pos ⟨rfl, hri'⟩] at hr'
        exact (inc_effect_ne_dec hr' hr).elim
    | true =>
      cases hri' : mode'.isAtRi with
      | false =>
        rw [AddrOp.asCoded, if_pos ⟨rfl, hri⟩] at hr
        rw [AddrOp.asCoded, if_neg (by simp [hri'])] at hr'
        exact (inc_effect_ne_dec hr hr').elim
      | true => rfl
  · intro hdec
    have hcoded : op.asCoded mode = op.asCoded mode' := by
      unfold AddrOp.asCoded
      by_cases hop : op = .dec
      · rw [hdec hop]
      · rw [if_neg (fun h => hop h.1), if_neg (fun h => hop h.1)]
    refine ⟨(op.asCoded mode).effect script c m, hexec, ?_⟩
    rw [hexec', hcoded]

/-- The theorem at `INC 00H` and `INC R0`. -/
theorem modes_agree_iff_inc : (running [0x05, 0x00, 0x08]).SameEffect noHooks 0 0 2 2 1 ↔
    (AddrOp.inc = .dec → Mode.direct.isAtRi = (Mode.rn 0).isAtRi) := by
  have hcode : AddrOp.inc.encode .direct 0 = some [0x05, 0x00] := rfl
  have hcode' : AddrOp.inc.encode (.rn 0) 0 = some [0x08] := rfl
  have hat : (running [0x05, 0x00, 0x08]).CodeAt 0 [0x05, 0x00] := by decide
  have hat' : (running [0x05, 0x00, 0x08]).CodeAt 2 [0x08] := by decide
  have ht : (running [0x05, 0x00, 0x08]).ramsfrtrap = sfrInitTrap := rfl
  have hmode' : (Mode.rn 0).Designates (running [0x05, 0x00, 0x08]) 0 := rfl
  have hiff := modes_agree_iff noHooks ht (by decide) hcode hcode' trivial hmode' hat hat'
  exact hiff

/-- `DEC @R0` increments where `DEC 30H` decrements. -/
theorem dec_atr0_breaks_agreement : ¬∀ (m : Machine Unit) (op : AddrOp) (mode mode' : Mode)
    (c : Byte) (code code' : List Byte) (p q : Word), m.ramsfrtrap = sfrInitTrap → c < 0x80 →
    op.encode mode c = some code → op.encode mode' c = some code' → mode.Designates m c →
    mode'.Designates m c → m.CodeAt p code → m.CodeAt q code' →
    m.SameEffect noHooks op.offset p code.length q code'.length := by
  intro hall
  have hat : ((running [0x15, 0x30, 0x16]).setSfr 0 0x30).CodeAt 0 [0x15, 0x30] := by decide
  have hat' : ((running [0x15, 0x30, 0x16]).setSfr 0 0x30).CodeAt 2 [0x16] := by decide
  obtain ⟨r, hr, hr'⟩ := hall ((running [0x15, 0x30, 0x16]).setSfr 0 0x30) .dec .direct (.atRi 0)
    0x30 _ _ 0 2 rfl (by decide) rfl rfl trivial rfl hat hat'
  have hval : ((((running [0x15, 0x30, 0x16]).setSfr 0 0x30).setPc 0).exec noHooks).map
      (fun m => m.sfr 0x30) = some 0xff := by decide +kernel
  have hval' : ((((running [0x15, 0x30, 0x16]).setSfr 0 0x30).setPc 2).exec noHooks).map
      (fun m => m.sfr 0x30) = some 0x01 := by decide +kernel
  rw [hr, Option.map_map] at hval
  rw [hr', Option.map_map] at hval'
  have heq : some (0xff : Byte) = some 0x01 := hval.symm.trans hval'
  exact absurd heq (by decide)

end Machine

end Emu51

import Emu51.Machine.Alu
import Emu51.Machine.Sfr

/-!
# The operations instructions are made of

The code snippets of `ops.txt` use a small set of functions and macros of `core.c`. Each of them is
one operation here, so that an instruction is a program over these operations.
-/

namespace Emu51

/-- The registers that are macros for a fixed cell. -/
inductive CoreReg where
  | acc | b | psw | sp
  deriving DecidableEq

/-- The address of the cell behind the macro. -/
@[simp, reducible] def CoreReg.addr : CoreReg → Byte
  | .acc => ACC
  | .b => B
  | .psw => PSW
  | .sp => SP

/-- The operations. -/
inductive CpuOp where
  | fetch (ofs : Word)
  | readc (addr : Word)
  | readx (addr : Word)
  | writex (addr : Word) (v : Byte)
  | xramP2addr
  | readd (addr : Byte)
  | writed (addr v : Byte)
  | readi (addr : Byte)
  | writei (addr v : Byte)
  | getRx (n : BitVec 3)
  | setRx (n : BitVec 3) (v : Byte)
  | get (r : CoreReg)
  | set (r : CoreReg) (v : Byte)
  | getDptr
  | setDph (v : Byte)
  | setDpl (v : Byte)
  | getPc
  | setPc (w : Word)
  | irqlevelReti
  | setBreakpoint (mask val : BitVec 32)
  deriving DecidableEq

/-- What the operations return. -/
@[reducible] def CpuOp.Res : CpuOp → Type
  | .fetch _ => Byte
  | .readc _ => Byte
  | .readx _ => Byte
  | .writex _ _ => Unit
  | .xramP2addr => Byte
  | .readd _ => Byte
  | .writed _ _ => Unit
  | .readi _ => Byte
  | .writei _ _ => Unit
  | .getRx _ => Byte
  | .setRx _ _ => Unit
  | .get _ => Byte
  | .set _ _ => Unit
  | .getDptr => Word
  | .setDph _ => Unit
  | .setDpl _ => Unit
  | .getPc => Word
  | .setPc _ => Unit
  | .irqlevelReti => Unit
  | .setBreakpoint _ _ => Unit

/-- Code that runs on the emulated CPU. -/
abbrev Cpu (α : Type) := Prog CpuOp CpuOp.Res α

/-- What the operations do. -/
def cpuExec {σ : Type} (script : Script σ) : Prog.Handler CpuOp CpuOp.Res (Machine σ)
  | .fetch ofs, m => some (m.fetch ofs, m)
  | .readc addr, m => some (m.readc addr, m)
  | .readx addr, m => some (m.readx addr, m)
  | .writex addr v, m => some ((), m.writex addr v)
  | .xramP2addr, m => some (m.xramP2addr, m)
  | .readd addr, m => m.readd script addr
  | .writed addr v, m => (m.writed script addr v).map fun m' => ((), m')
  | .readi addr, m => some (m.readi addr, m)
  | .writei addr v, m => some ((), m.writei addr v)
  | .getRx n, m => some (m.rx n, m)
  | .setRx n v, m => some ((), m.setCell (regCell m.reg n) v)
  | .get r, m => some (m.sfr r.addr, m)
  | .set r v, m => some ((), m.setSfr r.addr v)
  | .getDptr, m => some (m.dptr, m)
  | .setDph v, m => some ((), m.setSfr m.dph v)
  | .setDpl v, m => some ((), m.setSfr m.dpl v)
  | .getPc, m => some (m.pc, m)
  | .setPc w, m => some ((), m.setPc w)
  | .irqlevelReti, m => some ((), m.irqlevelReti)
  | .setBreakpoint mask val, m => some ((), m.setBreakpoint mask val)

namespace Cpu

def fetch (ofs : Word) : Cpu Byte := .node (.fetch ofs) .done

def readc (addr : Word) : Cpu Byte := .node (.readc addr) .done

def readx (addr : Word) : Cpu Byte := .node (.readx addr) .done

def writex (addr : Word) (v : Byte) : Cpu Unit := .node (.writex addr v) .done

def xramP2addr : Cpu Byte := .node .xramP2addr .done

def readd (addr : Byte) : Cpu Byte := .node (.readd addr) .done

def writed (addr v : Byte) : Cpu Unit := .node (.writed addr v) .done

def readi (addr : Byte) : Cpu Byte := .node (.readi addr) .done

def writei (addr v : Byte) : Cpu Unit := .node (.writei addr v) .done

/-- `reg[n]`; `R0`, `R1` and `RX` are instances. -/
def getRx (n : BitVec 3) : Cpu Byte := .node (.getRx n) .done

def setRx (n : BitVec 3) (v : Byte) : Cpu Unit := .node (.setRx n v) .done

def get (r : CoreReg) : Cpu Byte := .node (.get r) .done

def set (r : CoreReg) (v : Byte) : Cpu Unit := .node (.set r v) .done

/-- `DPTR`. -/
def getDptr : Cpu Word := .node .getDptr .done

def setDph (v : Byte) : Cpu Unit := .node (.setDph v) .done

def setDpl (v : Byte) : Cpu Unit := .node (.setDpl v) .done

def getPc : Cpu Word := .node .getPc .done

def setPc (w : Word) : Cpu Unit := .node (.setPc w) .done

def irqlevelReti : Cpu Unit := .node .irqlevelReti .done

def setBreakpoint (mask val : BitVec 32) : Cpu Unit := .node (.setBreakpoint mask val) .done

/-! ## What the operations do -/

section Rules

variable {σ : Type} {script : Script σ} {m : Machine σ}

@[simp] lemma run_fetch (ofs : Word) :
    (fetch ofs).run (cpuExec script) m = some (m.fetch ofs, m) := rfl

@[simp] lemma wp_fetch (ofs : Word) {Q} :
    (fetch ofs).wp (cpuExec script) Q m ↔ Q [⟨.fetch ofs, m.fetch ofs⟩] (m.fetch ofs) m :=
      Prog.wp_op_of_some rfl

@[simp] lemma run_readc (addr : Word) :
    (readc addr).run (cpuExec script) m = some (m.readc addr, m) := rfl

@[simp] lemma wp_readc (addr : Word) {Q} :
    (readc addr).wp (cpuExec script) Q m ↔ Q [⟨.readc addr, m.readc addr⟩] (m.readc addr) m :=
      Prog.wp_op_of_some rfl

@[simp] lemma run_readx (addr : Word) :
    (readx addr).run (cpuExec script) m = some (m.readx addr, m) := rfl

@[simp] lemma wp_readx (addr : Word) {Q} :
    (readx addr).wp (cpuExec script) Q m ↔ Q [⟨.readx addr, m.readx addr⟩] (m.readx addr) m :=
      Prog.wp_op_of_some rfl

@[simp] lemma run_writex (addr : Word) (v : Byte) :
    (writex addr v).run (cpuExec script) m = some ((), m.writex addr v) := rfl

@[simp] lemma wp_writex (addr : Word) (v : Byte) {Q} :
    (writex addr v).wp (cpuExec script) Q m ↔ Q [⟨.writex addr v, ()⟩] () (m.writex addr v) :=
      Prog.wp_op_of_some rfl

@[simp] lemma run_xramP2addr :
    xramP2addr.run (cpuExec script) m = some (m.xramP2addr, m) := rfl

@[simp] lemma wp_xramP2addr {Q} :
    xramP2addr.wp (cpuExec script) Q m ↔ Q [⟨.xramP2addr, m.xramP2addr⟩] m.xramP2addr m :=
      Prog.wp_op_of_some rfl

@[simp] lemma run_readi (addr : Byte) :
    (readi addr).run (cpuExec script) m = some (m.readi addr, m) := rfl

@[simp] lemma wp_readi (addr : Byte) {Q} :
    (readi addr).wp (cpuExec script) Q m ↔ Q [⟨.readi addr, m.readi addr⟩] (m.readi addr) m :=
      Prog.wp_op_of_some rfl

@[simp] lemma run_writei (addr v : Byte) :
    (writei addr v).run (cpuExec script) m = some ((), m.writei addr v) := rfl

@[simp] lemma wp_writei (addr v : Byte) {Q} :
    (writei addr v).wp (cpuExec script) Q m ↔ Q [⟨.writei addr v, ()⟩] () (m.writei addr v) :=
      Prog.wp_op_of_some rfl

@[simp] lemma run_getRx (n : BitVec 3) :
    (getRx n).run (cpuExec script) m = some (m.rx n, m) := rfl

@[simp] lemma wp_getRx (n : BitVec 3) {Q} :
    (getRx n).wp (cpuExec script) Q m ↔ Q [⟨.getRx n, m.rx n⟩] (m.rx n) m := Prog.wp_op_of_some rfl

@[simp] lemma run_setRx (n : BitVec 3) (v : Byte) :
    (setRx n v).run (cpuExec script) m = some ((), m.setCell (regCell m.reg n) v) := rfl

@[simp] lemma wp_setRx (n : BitVec 3) (v : Byte) {Q} :
    (setRx n v).wp (cpuExec script) Q m ↔ Q [⟨.setRx n v, ()⟩] () (m.setCell (regCell m.reg n) v) :=
      Prog.wp_op_of_some rfl

@[simp] lemma run_get (r : CoreReg) :
    (get r).run (cpuExec script) m = some (m.sfr r.addr, m) := rfl

@[simp] lemma wp_get (r : CoreReg) {Q} :
    (get r).wp (cpuExec script) Q m ↔ Q [⟨.get r, m.sfr r.addr⟩] (m.sfr r.addr) m :=
      Prog.wp_op_of_some rfl

@[simp] lemma run_set (r : CoreReg) (v : Byte) :
    (set r v).run (cpuExec script) m = some ((), m.setSfr r.addr v) := rfl

@[simp] lemma wp_set (r : CoreReg) (v : Byte) {Q} :
    (set r v).wp (cpuExec script) Q m ↔ Q [⟨.set r v, ()⟩] () (m.setSfr r.addr v) :=
      Prog.wp_op_of_some rfl

@[simp] lemma run_getDptr :
    getDptr.run (cpuExec script) m = some (m.dptr, m) := rfl

@[simp] lemma wp_getDptr {Q} :
    getDptr.wp (cpuExec script) Q m ↔ Q [⟨.getDptr, m.dptr⟩] m.dptr m := Prog.wp_op_of_some rfl

@[simp] lemma run_setDph (v : Byte) :
    (setDph v).run (cpuExec script) m = some ((), m.setSfr m.dph v) := rfl

@[simp] lemma wp_setDph (v : Byte) {Q} :
    (setDph v).wp (cpuExec script) Q m ↔ Q [⟨.setDph v, ()⟩] () (m.setSfr m.dph v) :=
      Prog.wp_op_of_some rfl

@[simp] lemma run_setDpl (v : Byte) :
    (setDpl v).run (cpuExec script) m = some ((), m.setSfr m.dpl v) := rfl

@[simp] lemma wp_setDpl (v : Byte) {Q} :
    (setDpl v).wp (cpuExec script) Q m ↔ Q [⟨.setDpl v, ()⟩] () (m.setSfr m.dpl v) :=
      Prog.wp_op_of_some rfl

@[simp] lemma run_getPc :
    getPc.run (cpuExec script) m = some (m.pc, m) := rfl

@[simp] lemma wp_getPc {Q} :
    getPc.wp (cpuExec script) Q m ↔ Q [⟨.getPc, m.pc⟩] m.pc m := Prog.wp_op_of_some rfl

@[simp] lemma run_setPc (w : Word) :
    (setPc w).run (cpuExec script) m = some ((), m.setPc w) := rfl

@[simp] lemma wp_setPc (w : Word) {Q} :
    (setPc w).wp (cpuExec script) Q m ↔ Q [⟨.setPc w, ()⟩] () (m.setPc w) := Prog.wp_op_of_some rfl

@[simp] lemma run_irqlevelReti :
    irqlevelReti.run (cpuExec script) m = some ((), m.irqlevelReti) := rfl

@[simp] lemma wp_irqlevelReti {Q} :
    irqlevelReti.wp (cpuExec script) Q m ↔ Q [⟨.irqlevelReti, ()⟩] () m.irqlevelReti :=
      Prog.wp_op_of_some rfl

@[simp] lemma run_setBreakpoint (mask val : BitVec 32) :
    (setBreakpoint mask val).run (cpuExec script) m = some ((), m.setBreakpoint mask val) := rfl

@[simp] lemma wp_setBreakpoint (mask val : BitVec 32) {Q} :
    (setBreakpoint mask val).wp (cpuExec script) Q m ↔ Q [⟨.setBreakpoint mask val, ()⟩] ()
    (m.setBreakpoint mask val) := Prog.wp_op_of_some rfl

@[simp] lemma run_readd (addr : Byte) :
    (readd addr).run (cpuExec script) m = m.readd script addr := Prog.run_op _ _

@[simp] lemma wp_readd (addr : Byte) {Q} : (readd addr).wp (cpuExec script) Q m ↔
    ∀ v m', m.readd script addr = some (v, m') → Q [⟨.readd addr, v⟩] v m' := Prog.wp_op

@[simp] lemma run_writed (addr v : Byte) : (writed addr v).run (cpuExec script) m =
    (m.writed script addr v).map fun m' => ((), m') := Prog.run_op _ _

@[simp] lemma wp_writed (addr v : Byte) {Q} : (writed addr v).wp (cpuExec script) Q m ↔
    ∀ m', m.writed script addr v = some m' → Q [⟨.writed addr v, ()⟩] () m' := by
  refine Iff.trans Prog.wp_op ?_
  constructor
  · intro hQ m' hm'
    exact hQ () m' (by rw [cpuExec, hm', Option.map_some])
  · rintro hQ ⟨⟩ m' hm'
    obtain ⟨m₁, hm₁, h₁⟩ := Option.map_eq_some_iff.1 hm'
    obtain rfl := (Prod.mk.inj h₁).2
    exact hQ m₁ hm₁

end Rules

/-- `pc += n`. -/
def advance (n : Word) : Cpu Unit := do
  let pc ← getPc
  setPc (pc + n)

/-- `pc += (int8_t)ofs`. -/
def branch (ofs : Byte) : Cpu Unit := advance (ofs.signExtend 16)

/-- `PUSH(x)`, that is `writei(++SP, x)`. -/
def push (x : Cpu Byte) : Cpu Unit := do
  let sp ← get .sp
  set .sp (sp + 1)
  let v ← x
  writei (sp + 1) v

/-- `POP()`, that is `readi(SP--)`. -/
def pop : Cpu Byte := do
  let sp ← get .sp
  set .sp (sp - 1)
  readi sp

/-- `readx8`. -/
def readx8 (addr : Byte) : Cpu Byte := do
  let h ← xramP2addr
  readx (word h addr)

/-- `writex8`. -/
def writex8 (addr v : Byte) : Cpu Unit := do
  let h ← xramP2addr
  writex (word h addr) v

/-- A function of the arithmetic unit applied to two operands. -/
def alu (f : Byte → Byte → Byte → Byte × Byte) (op1 op2 : Byte) : Cpu Byte := do
  let psw ← get .psw
  let (res, psw') := f op1 op2 psw
  set .psw psw'
  pure res

/-- A call of `alu_op`; the logical operations are macros that leave `PSW` alone. -/
def aluOp (o : AluOp) (op1 op2 : Byte) : Cpu Byte :=
  match o with
  | .add => alu aluAdd op1 op2
  | .addc => alu aluAddc op1 op2
  | .subb => alu aluSubb op1 op2
  | .orl => pure (op1 ||| op2)
  | .anl => pure (op1 &&& op2)
  | .xrl => pure (op1 ^^^ op2)

/-- The operations of `alu_op` read and store `PSW`, and nothing else. -/
lemma aluOp_all {Q : CpuOp → Prop} (hget : Q (.get .psw)) (hset : ∀ v, Q (.set .psw v)) (o : AluOp)
    (op1 op2 : Byte) : (aluOp o op1 op2).All Q := by
  have halu : ∀ f, (alu f op1 op2).All Q := fun f => ⟨hget, fun _ => ⟨hset _, fun _ => trivial⟩⟩
  cases o with
  | add => exact halu aluAdd
  | addc => exact halu aluAddc
  | subb => exact halu aluSubb
  | orl => trivial
  | anl => trivial
  | xrl => trivial

section Rules

variable {σ : Type} {script : Script σ} {m : Machine σ}

@[simp] lemma wp_advance (n : Word) {Q} : (advance n).wp (cpuExec script) Q m ↔
    Q [⟨.getPc, m.pc⟩, ⟨.setPc (m.pc + n), ()⟩] () (m.setPc (m.pc + n)) := by
  rw [advance, Prog.wp_bind, wp_getPc, wp_setPc]
  rfl

@[simp] lemma wp_branch (ofs : Byte) {Q} : (branch ofs).wp (cpuExec script) Q m ↔
    Q [⟨.getPc, m.pc⟩, ⟨.setPc (m.pc + ofs.signExtend 16), ()⟩] ()
      (m.setPc (m.pc + ofs.signExtend 16)) := wp_advance _

@[simp] lemma wp_pop {Q} : pop.wp (cpuExec script) Q m ↔
    Q [⟨.get .sp, m.sfr SP⟩, ⟨.set .sp (m.sfr SP - 1), ()⟩,
        ⟨.readi (m.sfr SP), (m.setSfr SP (m.sfr SP - 1)).readi (m.sfr SP)⟩]
      ((m.setSfr SP (m.sfr SP - 1)).readi (m.sfr SP)) (m.setSfr SP (m.sfr SP - 1)) := by
  rw [pop, Prog.wp_bind, wp_get, Prog.wp_bind, wp_set, wp_readi]
  rfl

@[simp] lemma run_advance (n : Word) :
    (advance n).run (cpuExec script) m = some ((), m.setPc (m.pc + n)) := rfl

@[simp] lemma run_branch (ofs : Byte) :
    (branch ofs).run (cpuExec script) m = some ((), m.setPc (m.pc + ofs.signExtend 16)) := rfl

@[simp] lemma run_alu (f : Byte → Byte → Byte → Byte × Byte) (op1 op2 : Byte) :
    (alu f op1 op2).run (cpuExec script) m =
      some ((f op1 op2 (m.sfr PSW)).1, m.setSfr PSW (f op1 op2 (m.sfr PSW)).2) := rfl

@[simp] lemma run_aluOp (o : AluOp) (op1 op2 : Byte) :
    (aluOp o op1 op2).run (cpuExec script) m =
      some ((o.apply op1 op2 (m.sfr PSW)).1, m.setSfr PSW (o.apply op1 op2 (m.sfr PSW)).2) := by
  cases o with
  | add => rfl
  | addc => rfl
  | subb => rfl
  | orl => simp [aluOp, AluOp.apply]
  | anl => simp [aluOp, AluOp.apply]
  | xrl => simp [aluOp, AluOp.apply]

/-- A call of a function of the arithmetic unit, where the trace does not matter. -/
lemma wp_alu (f : Byte → Byte → Byte → Byte × Byte) (op1 op2 : Byte) {Q} :
    (alu f op1 op2).wp (cpuExec script) (fun _ => Q) m ↔
      Q (f op1 op2 (m.sfr PSW)).1 (m.setSfr PSW (f op1 op2 (m.sfr PSW)).2) := by
  rw [alu, Prog.wp_bind, wp_get, Prog.wp_bind, wp_set]
  exact Prog.wp_done _ _

/-- A call of `alu_op`, where the trace does not matter. -/
lemma wp_aluOp (o : AluOp) (op1 op2 : Byte) {Q} :
    (aluOp o op1 op2).wp (cpuExec script) (fun _ => Q) m ↔
      Q (o.apply op1 op2 (m.sfr PSW)).1 (m.setSfr PSW (o.apply op1 op2 (m.sfr PSW)).2) := by
  cases o with
  | add => exact wp_alu aluAdd op1 op2
  | addc => exact wp_alu aluAddc op1 op2
  | subb => exact wp_alu aluSubb op1 op2
  | orl => simp [aluOp, AluOp.apply]
  | anl => simp [aluOp, AluOp.apply]
  | xrl => simp [aluOp, AluOp.apply]

end Rules

/-! ## Bit addresses -/

/-- The table `bitaddr`. -/
def bitaddrTable : List Byte :=
  [0x20, 0x21, 0x22, 0x23, 0x24, 0x25, 0x26, 0x27,
   0x28, 0x29, 0x2a, 0x2b, 0x2c, 0x2d, 0x2e, 0x2f,
   0x80, 0x88, 0x90, 0x98, 0xa0, 0xa8, 0xb0, 0xb8,
   0xc0, 0xc8, 0xd0, 0xd8, 0xe0, 0xe8, 0xf0, 0xf8]

/-- `bitaddr[bit >> 3]`. -/
def bitaddr (bit : Byte) : Byte := bitaddrTable.getD (bit >>> 3).toNat 0

/-- `1 << (bit & 7)`. -/
def bitMask (bit : Byte) : Byte := 1 <<< (bit &&& 7).toNat

/-- `readb`. -/
def readb (bit : Byte) : Cpu Bool := do
  let v ← readd (bitaddr bit)
  pure (v &&& bitMask bit != 0)

/-- The byte `v` with the bits of the mask cleared, or set if `value` says so. -/
def withBit (v mask : Byte) (value : Bool) : Byte :=
  let tmp := v &&& ~~~mask
  if value then tmp ||| mask else tmp

/-- `writeb`. -/
def writeb (bit : Byte) (value : Bool) : Cpu Unit := do
  let v ← readd (bitaddr bit)
  writed (bitaddr bit) (withBit v (bitMask bit) value)

end Cpu

end Emu51

import Emu51.Machine.Step
import Emu51.Machine.System

/-!
# Register-indirect operands

An `@Ri` operand is a cell of internal RAM, which `readi` and `writei` address. The records that use
`readd` and `writed` for it reach a special function register instead when `Ri` is `0x80` or more.
What an instruction accesses is read off the trace of its code.
-/

namespace Emu51

variable {σ : Type}

/-! ## Accesses -/

/-- The performed operations of an instruction. -/
abbrev Trace := List (Σ o : CpuOp, o.Res)

/-- The address an operation hands to `readd` or `writed`. -/
def CpuOp.direct : CpuOp → Option Byte
  | .readd a => a
  | .writed a _ => a
  | _ => none

/-- The cell that an operation accesses by address, and whether it writes. -/
def CpuOp.access : CpuOp → Option (Bool × Cell)
  | .readd a => (false, dataCell a)
  | .writed a _ => (true, dataCell a)
  | .readi a => (false, iramCell a)
  | .writei a _ => (true, iramCell a)
  | _ => none

/-- The cells accessed by address, in order. -/
def accesses (t : Trace) : List (Bool × Cell) := t.filterMap fun e => e.1.access

/-- The operation depends on nothing but code, working registers, internal RAM, `ACC` and `PSW`, and
changes nothing else. -/
def CpuOp.Local (trap : Byte → Bool) : CpuOp → Prop
  | .readd a | .writed a _ => a < 0x80 ∧ trap a = false
  | .get r | .set r _ => r = .acc ∨ r = .psw
  | .fetch _ | .readi _ | .writei _ _ | .getRx _ | .setRx _ _ | .getPc | .setPc _ => True
  | .readc _ | .readx _ | .writex _ _ | .xramP2addr | .getDptr | .setDph _ | .setDpl _ => False
  | .irqlevelReti | .setBreakpoint _ _ => False

namespace Label

/-- The pointer register of the records with an `@Ri` operand in internal RAM. -/
def atRi : Label → Option (BitVec 3)
  | incAtr0 | decAtr0 | genR0 _ | mov76 | mov86 | movA6 | movE6 | movF6 => some 0
  | cjneB6 | xchC6 | xchdAtr0 => some 0
  | incAtr1 | decAtr1 | genR1 _ | mov77 | mov87 | movA7 | movE7 | movF7 => some 1
  | cjneB7 | xchC7 | xchdAtr1 => some 1
  | _ => none

/-- The records among them that have a direct operand as well. -/
def hasDirect : Label → Bool
  | mov86 | mov87 | movA6 | movA7 => true
  | _ => false

/-- The records among them that use `readi` and `writei`. -/
def viaIram : Label → Bool
  | mov76 | mov77 | mov86 | mov87 | movA6 | movA7 | movE6 | movE7 | movF6 | movF7 => true
  | cjneB6 | cjneB7 | xchC6 | xchC7 => true
  | _ => false

/-- The accesses the records should make, where `c` is the cell of the `@Ri` operand and `d` that of
the direct one. -/
def operands (l : Label) (c d : Cell) : List (Bool × Cell) :=
  match l with
  | incAtr0 | incAtr1 | decAtr0 | decAtr1 | xchC6 | xchC7 | xchdAtr0 | xchdAtr1 =>
      [(false, c), (true, c)]
  | genR0 _ | genR1 _ | movE6 | movE7 | cjneB6 | cjneB7 => [(false, c)]
  | mov76 | mov77 | movF6 | movF7 => [(true, c)]
  | mov86 | mov87 => [(false, c), (true, d)]
  | movA6 | movA7 => [(false, d), (true, c)]
  | _ => []

end Label

/-! ## Hidden cells -/

/-- The cell is a special function register other than `ACC` and `PSW`. -/
def Hidden (c : Cell) : Prop := ∃ a : Byte, 0x80 ≤ a ∧ a ≠ ACC ∧ a ≠ PSW ∧ c = dataCell a

namespace Machine

/-- The two states agree on everything but hidden cells. -/
structure AgreeOff (m₁ m₂ : Machine σ) : Prop where
  rest : m₂ = { m₁ with ramsfr := m₂.ramsfr }
  cells : ∀ c, ¬Hidden c → m₂.ramsfr c = m₁.ramsfr c

/-- The hidden cells are unchanged. -/
def KeepsHidden (m m' : Machine σ) : Prop := ∀ c, Hidden c → m'.ramsfr c = m.ramsfr c

/-- The `@Ri` operand of the instruction at `pc` is a cell of internal RAM: the instruction accesses
just the cells it should, no trap is taken because of the operand, and, where there is no direct
operand, neither does the instruction depend on the hidden cells nor does it change them. -/
structure IndirectInIram (script : Script σ) (m : Machine σ) (l : Label) (i : BitVec 3)
    (m' : Machine σ) : Prop where
  operands : accesses ((insn (m.fetch 0)).trace (cpuExec script) m) =
    l.operands (iramCell (m.rx i)) (dataCell (m.fetch 1))
  traps : ∀ e ∈ (insn (m.fetch 0)).trace (cpuExec script) m, ∀ a, e.1.direct = some a →
    m.ramsfrtrap a = true → l.hasDirect = true ∧ a = m.fetch 1
  hidden : l.hasDirect = false → KeepsHidden m m' ∧ ∀ m₂, AgreeOff m m₂ →
    ∃ m₂', m₂.exec script = some m₂' ∧ AgreeOff m' m₂' ∧ KeepsHidden m₂ m₂'

end Machine

/-! ## Accesses of the records -/

section Records

variable {script : Script σ} {m : Machine σ} {i : BitVec 3}

/-- What a trace has in common with the traces that only continue it by moving `pc`. -/
lemma OpRec.wp_emit_trace {P : Trace → Prop}
    (hP : ∀ t w w', P t → P (t ++ [⟨.getPc, w⟩, ⟨.setPc w', ()⟩])) {r : OpRec}
    (h : r.code.wp (cpuExec script) (fun t _ _ => P t) m) :
    r.emit.wp (cpuExec script) (fun t _ _ => P t) m := by
  rw [emit, Prog.wp_bind]
  refine Prog.wp_mono h fun t _ m' ht => ?_
  split
  · rw [Cpu.wp_advance]
    exact hP _ _ _ ht
  · rw [Prog.pure_eq_done, Prog.wp_done, List.append_nil]
    exact ht

/-- The trace consists of local operations and accesses the given cells. -/
def Touches (trap : Byte → Bool) (cs : List (Bool × Cell)) (t : Trace) : Prop :=
  accesses t = cs ∧ ∀ e ∈ t, e.1.Local trap

/-- An empty run touches no cell. -/
lemma touches_nil {trap : Byte → Bool} {cs : List (Bool × Cell)} :
    Touches trap cs [] ↔ cs = [] := by
  simp [Touches, accesses, eq_comm]

/-- The cells a run touches are those its first operation touches and then those of the rest. -/
lemma touches_cons {trap : Byte → Bool} {cs : List (Bool × Cell)} {e : Σ o : CpuOp, o.Res}
    {t : Trace} : Touches trap cs (e :: t) ↔
      e.1.Local trap ∧ ∃ cs', cs = e.1.access.toList ++ cs' ∧ Touches trap cs' t := by
  have haccess : accesses (e :: t) = e.1.access.toList ++ accesses t := by
    rw [accesses, List.filterMap_cons]
    cases e.1.access <;> rfl
  rw [Touches, haccess, List.forall_mem_cons]
  constructor
  · rintro ⟨rfl, hlocal, ht⟩
    exact ⟨hlocal, _, rfl, rfl, ht⟩
  · rintro ⟨hlocal, cs', rfl, rfl, ht⟩
    exact ⟨rfl, hlocal, ht⟩

/-- Operations that access nothing do not count, in front of those that do. -/
lemma touches_append {trap : Byte → Bool} {cs : List (Bool × Cell)} {t t' : Trace}
    (ht : Touches trap [] t) : Touches trap cs (t ++ t') ↔ Touches trap cs t' := by
  have haccess : accesses (t ++ t') = accesses t' := by
    rw [accesses, List.filterMap_append]
    exact congrArg (· ++ accesses t') ht.1
  rw [Touches, haccess, Touches]
  refine and_congr_right fun _ => ?_
  simp only [List.forall_mem_append]
  exact and_iff_right ht.2

/-- Code that works on `ACC`, `PSW`, `pc` and code memory only. -/
def Inner (trap : Byte → Bool) (o : CpuOp) : Prop := o.Local trap ∧ o.access = none

/-- Code made of inner operations reads and writes registers of the core only, and so touches no
cell at all. -/
lemma touches_of_inner (script : Script σ) {α : Type} {trap : Byte → Bool} {p : Cpu α}
    (hp : p.All (Inner trap)) (m : Machine σ) : p.wp (cpuExec script)
    (fun t _ _ => Touches trap [] t) m := by
  intro a m' _
  have hall := hp.of_mem_trace (h := cpuExec script) m
  refine ⟨?_, fun e he => (hall e he).1⟩
  rw [accesses, List.filterMap_eq_nil_iff]
  exact fun e he => (hall e he).2

/-- The arithmetic of the core works on the accumulator, `B` and `PSW` and touches nothing else. -/
lemma alu_inner (trap : Byte → Bool) (f : Byte → Byte → Byte → Byte × Byte) (a b : Byte) :
    (Cpu.alu f a b).All (Inner trap) := by
  simp [Cpu.alu, Cpu.get, Cpu.set, Inner, CpuOp.Local, CpuOp.access]

/-- Every operation of the arithmetic unit, with both operands at hand, stays within the core. -/
lemma aluOp_inner (trap : Byte → Bool) (o : AluOp) (a b : Byte) :
    (Cpu.aluOp o a b).All (Inner trap) := by
  cases o with
  | add => exact alu_inner trap aluAdd a b
  | addc => exact alu_inner trap aluAddc a b
  | subb => exact alu_inner trap aluSubb a b
  | orl => trivial
  | anl => trivial
  | xrl => trivial

/-- A branch only moves `pc`, whatever offset it is given. -/
lemma branch_inner (trap : Byte → Bool) (ofs : Byte) : (Cpu.branch ofs).All (Inner trap) := by
  simp [Cpu.branch, Cpu.advance, Cpu.getPc, Cpu.setPc, Inner, CpuOp.Local, CpuOp.access]

/-! ### Records that use `readi` and `writei` -/

/-- `MOV A, @Ri` reads the internal cell in the register and touches no other. -/
lemma toAcc_touches (n : ℕ) :
    (Ops.toAcc (Ops.indirect i) n).code.wp (cpuExec script)
      (fun t _ _ => Touches m.ramsfrtrap [(false, iramCell (m.rx i))] t) m := by
  simp [Ops.toAcc, Ops.indirect, Prog.wp_bind, touches_cons, touches_nil, CpuOp.access, CpuOp.Local]

/-- `MOV @Ri, #imm` writes the internal cell in the register and touches no other. -/
lemma toAtr_fetch_touches (n : ℕ) :
    (Ops.toAtr i (Cpu.fetch 1) n).code.wp (cpuExec script)
      (fun t _ _ => Touches m.ramsfrtrap [(true, iramCell (m.rx i))] t) m := by
  simp [Ops.toAtr, Prog.wp_bind, touches_cons, touches_nil, CpuOp.access, CpuOp.Local]

/-- `MOV @Ri, A` writes the internal cell in the register and touches no other. -/
lemma toAtr_acc_touches (n : ℕ) :
    (Ops.toAtr i (Cpu.get .acc) n).code.wp (cpuExec script)
      (fun t _ _ => Touches m.ramsfrtrap [(true, iramCell (m.rx i))] t) m := by
  simp [Ops.toAtr, Prog.wp_bind, touches_cons, touches_nil, CpuOp.access, CpuOp.Local]

/-- `XCH A, @Ri` reads the internal cell in the register and then writes the same cell. -/
lemma xchAtr_touches :
    (Ops.xchAtr i).code.wp (cpuExec script) (fun t _ _ => Touches m.ramsfrtrap
      [(false, iramCell (m.rx i)), (true, iramCell (m.rx i))] t) m := by
  simp [Ops.xchAtr, Prog.wp_bind, touches_cons, touches_nil, CpuOp.access, CpuOp.Local]

/-- `CJNE @Ri, #imm, rel` reads the internal cell in the register and only compares it. -/
lemma cjne_touches :
    (Ops.cjne (Ops.indirect i) (Cpu.fetch 1)).code.wp (cpuExec script)
      (fun t _ _ => Touches m.ramsfrtrap [(false, iramCell (m.rx i))] t) m := by
  have htail : ∀ b : Byte, (if b ≠ 0 then Cpu.fetch 2 >>= fun ofs => Cpu.branch ofs
      else pure () : Cpu Unit).All (Inner m.ramsfrtrap) := by
    intro b
    split
    · exact ⟨⟨trivial, rfl⟩, fun ofs => branch_inner _ ofs⟩
    · trivial
  have hrest := touches_of_inner script
    ((alu_inner m.ramsfrtrap aluCmp (m.readi (m.rx i)) (m.fetch 1)).bind htail) m
  simp only [Ops.cjne, Ops.indirect, Prog.wp_bind, Cpu.wp_getRx, Cpu.wp_readi, Cpu.wp_fetch]
  rw [Prog.wp_bind] at hrest
  refine Prog.wp_mono hrest fun t b m' ht => Prog.wp_mono ht fun t' _ _ htouch => ?_
  simpa [touches_cons, CpuOp.access, CpuOp.Local] using htouch

/-! ### Records that use `readd` and `writed` -/

section Low

variable (hlow : m.rx i < 0x80) (ht : m.ramsfrtrap (m.rx i) = false)
include hlow ht

/-- The generated arithmetic records read the internal cell in the register for their operand. -/
lemma genRi_touches (o : AluOp) : (Ops.genRi o i).code.wp (cpuExec script)
    (fun t _ _ => Touches m.ramsfrtrap [(false, iramCell (m.rx i))] t) m := by
  have hinner := touches_of_inner script
    (aluOp_inner m.ramsfrtrap o (m.sfr ACC) (m.sfr (m.rx i))) m
  simp only [Ops.genRi, Prog.wp_bind, Cpu.wp_get, Cpu.wp_getRx, Cpu.wp_readd,
    Machine.readd_of_untrapped ht]
  rintro v m' ⟨⟩
  refine Prog.wp_mono hinner fun t _ _ htouch => ?_
  rw [Cpu.wp_set, iramCell_of_lt hlow]
  simp [touches_append htouch, touches_cons, touches_nil, CpuOp.access, CpuOp.Local]
  exact ⟨hlow, ht⟩

/-- Over an untrapped cell `INC @Ri` and the like read the cell in the register and write it back.
-/
lemma modAtr_touches (f : Byte → Byte) : (Ops.modAtr f i).code.wp (cpuExec script)
    (fun t _ _ => Touches m.ramsfrtrap
      [(false, iramCell (m.rx i)), (true, iramCell (m.rx i))] t) m := by
  simp only [Ops.modAtr, Prog.wp_bind, Cpu.wp_getRx, Cpu.wp_readd, Cpu.wp_writed,
    Machine.readd_of_untrapped ht]
  rintro v m' ⟨⟩ m'' -
  rw [iramCell_of_lt hlow]
  simp [touches_cons, touches_nil, CpuOp.access, CpuOp.Local]
  exact ⟨hlow, ht⟩

/-- Over an untrapped cell `XCHD A, @Ri` reads the cell in the register and writes it back. -/
lemma xchdAtr_touches : (Ops.xchdAtr i).code.wp (cpuExec script)
    (fun t _ _ => Touches m.ramsfrtrap
      [(false, iramCell (m.rx i)), (true, iramCell (m.rx i))] t) m := by
  simp only [Ops.xchdAtr, Prog.wp_bind, Cpu.wp_get, Cpu.wp_getRx, Cpu.wp_readd, Cpu.wp_writed,
    Cpu.wp_set, Machine.readd_of_untrapped ht]
  rintro v m' ⟨⟩ m'' -
  rw [iramCell_of_lt hlow]
  simp [touches_cons, touches_nil, CpuOp.access, CpuOp.Local]
  exact ⟨hlow, ht⟩

end Low

/-! ### Records with a direct operand -/

/-- The trace accesses the given cells and hands no address but `d` to `readd` and `writed`. -/
def Names (d : Byte) (cs : List (Bool × Cell)) (t : Trace) : Prop :=
  accesses t = cs ∧ ∀ e ∈ t, ∀ a, e.1.direct = some a → a = d

/-- `MOV direct, @Ri` reads the internal cell in the register and writes the cell its second byte
names. -/
lemma toIram_names (n : ℕ) : (Ops.toIram (Ops.indirect i) n).code.wp (cpuExec script)
    (fun t _ _ => Names (m.fetch 1)
      [(false, iramCell (m.rx i)), (true, dataCell (m.fetch 1))] t) m := by
  simp only [Ops.toIram, Ops.indirect, Prog.wp_bind, Cpu.wp_fetch, Cpu.wp_getRx, Cpu.wp_readi,
    Cpu.wp_writed, List.cons_append, List.nil_append]
  intro m' _
  refine ⟨rfl, ?_⟩
  simp [CpuOp.direct]

/-- `MOV @Ri, direct` reads the cell its second byte names and writes the internal cell in the
register. -/
lemma toAtr_names (n : ℕ) : (Ops.toAtr i Ops.direct1 n).code.wp (cpuExec script)
    (fun t _ _ => Names (m.fetch 1)
      [(false, dataCell (m.fetch 1)), (true, iramCell (m.rx i))] t) m := by
  simp only [Ops.toAtr, Ops.direct1, Prog.wp_bind, Cpu.wp_getRx, Cpu.wp_fetch, Cpu.wp_readd,
    Cpu.wp_writei, List.cons_append, List.nil_append]
  intro v m' _
  refine ⟨rfl, ?_⟩
  simp [CpuOp.direct]

/-! ### The first access of the records that use `readd` -/

/-- The trace starts its accesses with `readd(Ri)`. -/
def StartsDirect (a : Byte) (t : Trace) : Prop :=
  (∃ cs, accesses t = (false, dataCell a) :: cs) ∧ ∃ v : Byte, ⟨.readd a, v⟩ ∈ t

/-- The records that modify `@Ri` begin with a direct access to the address in the register, traps
included. -/
lemma modAtr_starts (f : Byte → Byte) : (Ops.modAtr f i).code.wp (cpuExec script)
    (fun t _ _ => StartsDirect (m.rx i) t) m := by
  simp only [Ops.modAtr, Prog.wp_bind, Cpu.wp_getRx, Cpu.wp_readd, Cpu.wp_writed]
  intro v m₁ _ m₂ _
  exact ⟨⟨_, rfl⟩, v, by simp⟩

/-- `XCHD A, @Ri` begins with a direct access to the address in the register, traps included. -/
lemma xchdAtr_starts : (Ops.xchdAtr i).code.wp (cpuExec script)
    (fun t _ _ => StartsDirect (m.rx i) t) m := by
  simp only [Ops.xchdAtr, Prog.wp_bind, Cpu.wp_get, Cpu.wp_getRx, Cpu.wp_readd, Cpu.wp_writed,
    Cpu.wp_set]
  intro v m₁ _ m₂ _
  exact ⟨⟨_, rfl⟩, v, by simp⟩

/-- The generated records with `@Ri` begin with a direct read at the address in the register, traps
included. -/
lemma genRi_starts (o : AluOp) : (Ops.genRi o i).code.wp (cpuExec script)
    (fun t _ _ => StartsDirect (m.rx i) t) m := by
  simp only [Ops.genRi, Prog.wp_bind, Cpu.wp_get, Cpu.wp_getRx, Cpu.wp_readd, Cpu.wp_set]
  intro v m₁ _ res m₂ _
  exact ⟨⟨_, rfl⟩, v, by simp⟩

end Records

/-! ## Local code does not see hidden cells -/

/-- No cell of the internal memory is among the hidden ones, not even above `0x7f`. -/
lemma not_hidden_iram (a : Byte) : ¬Hidden (iramCell a) := by
  rintro ⟨b, hb, -, -, hcell⟩
  exact iramCell_ne_sfr a hb hcell

/-- In the lower half a direct address names internal memory, which is not hidden. -/
lemma not_hidden_of_lt {a : Byte} (ha : a < 0x80) : ¬Hidden (dataCell a) := by
  rw [← iramCell_of_lt ha]
  exact not_hidden_iram a

/-- The registers `R0` to `R7` are cells of internal memory, and so not hidden. -/
lemma not_hidden_reg (r : RegBase) (n : BitVec 3) : ¬Hidden (regCell r n) := by
  rintro ⟨b, hb, -, -, hcell⟩
  exact regCell_ne_sfr r n (BitVec.le_trans (by decide) hb) hcell

/-- Of the special function registers, the accumulator and `PSW` are the ones that are not hidden.
-/
lemma not_hidden_core {r : CoreReg} (hr : r = .acc ∨ r = .psw) : ¬Hidden (dataCell r.addr) := by
  rintro ⟨b, -, hacc, hpsw, hcell⟩
  rw [dataCell_inj] at hcell
  rcases hr with rfl | rfl
  · exact hacc hcell.symm
  · exact hpsw hcell.symm

namespace Machine

variable {script : Script σ} {m m' m₁ m₂ s s' t : Machine σ}

/-- Two runs from `m₁` and `m₂` that have not noticed the difference and have changed no hidden
cell. -/
structure Twin (m₁ m₂ s t : Machine σ) : Prop where
  agree : AgreeOff s t
  left : KeepsHidden m₁ s
  right : KeepsHidden m₂ t
  trap : s.ramsfrtrap = m₁.ramsfrtrap

/-- Twins stay twins when the same value is stored to the same visible cell of both. -/
lemma Twin.setCell (h : Twin m₁ m₂ s t) {c : Cell} (hc : ¬Hidden c) (v : Byte) :
    Twin m₁ m₂ (s.setCell c v) (t.setCell c v) := by
  have hkeep : ∀ (m : Machine σ) d, Hidden d → (m.setCell c v).ramsfr d = m.ramsfr d := by
    intro m d hd
    rw [setCell_apply, if_neg]
    rintro rfl
    exact hc hd
  refine ⟨⟨?_, fun d hd => ?_⟩, fun d hd => ?_, fun d hd => ?_, h.trap⟩
  · rw [Machine.setCell, h.agree.rest]
    rfl
  · rw [setCell_apply, setCell_apply, h.agree.cells d hd]
  · rw [hkeep s d hd, h.left d hd]
  · rw [hkeep t d hd, h.right d hd]

/-- Twins stay twins when both jump to the same place. -/
lemma Twin.setPc (h : Twin m₁ m₂ s t) (w : Word) : Twin m₁ m₂ (s.setPc w) (t.setPc w) where
  agree := ⟨by rw [Machine.setPc, h.agree.rest]; rfl, h.agree.cells⟩
  left := h.left
  right := h.right
  trap := h.trap

/-- A local operation gives the same answer on both sides and keeps them twins. -/
lemma cpuExec_twin {o : CpuOp} (ho : o.Local m₁.ramsfrtrap) (h : Twin m₁ m₂ s t) {r : o.Res}
    (hr : cpuExec script o s = some (r, s')) :
    ∃ t', cpuExec script o t = some (r, t') ∧ Twin m₁ m₂ s' t' := by
  have hreg : t.reg = s.reg := by rw [h.agree.rest]
  have hpc : t.pc = s.pc := by rw [h.agree.rest]
  have htrap : t.ramsfrtrap = s.ramsfrtrap := by rw [h.agree.rest]
  cases o with
  | readd a =>
    have huntrapped : s.ramsfrtrap a = false := (congrFun h.trap a).trans ho.2
    rw [cpuExec, readd_of_untrapped huntrapped] at hr
    obtain ⟨rfl, rfl⟩ := Prod.mk.inj (Option.some.inj hr)
    refine ⟨t, ?_, h⟩
    rw [cpuExec, readd_of_untrapped ((congrFun htrap a).trans huntrapped), sfr,
      h.agree.cells _ (not_hidden_of_lt ho.1)]
  | writed a v =>
    have huntrapped : s.ramsfrtrap a = false := (congrFun h.trap a).trans ho.2
    rw [cpuExec, writed_of_untrapped huntrapped] at hr
    obtain ⟨-, rfl⟩ := Prod.mk.inj (Option.some.inj hr)
    refine ⟨t.setSfr a v, ?_, h.setCell (not_hidden_of_lt ho.1) v⟩
    rw [cpuExec, writed_of_untrapped ((congrFun htrap a).trans huntrapped), Option.map_some]
  | fetch ofs =>
    obtain ⟨rfl, rfl⟩ := Prod.mk.inj (Option.some.inj hr)
    exact ⟨t, by rw [cpuExec, h.agree.rest]; rfl, h⟩
  | readi a =>
    obtain ⟨rfl, rfl⟩ := Prod.mk.inj (Option.some.inj hr)
    exact ⟨t, by rw [cpuExec, readi, h.agree.cells _ (not_hidden_iram a)], h⟩
  | writei a v =>
    obtain ⟨-, rfl⟩ := Prod.mk.inj (Option.some.inj hr)
    exact ⟨_, rfl, h.setCell (not_hidden_iram a) v⟩
  | getRx n =>
    obtain ⟨rfl, rfl⟩ := Prod.mk.inj (Option.some.inj hr)
    exact ⟨t, by rw [cpuExec, rx, hreg, h.agree.cells _ (not_hidden_reg _ n)], h⟩
  | setRx n v =>
    obtain ⟨-, rfl⟩ := Prod.mk.inj (Option.some.inj hr)
    refine ⟨_, rfl, ?_⟩
    rw [hreg]
    exact h.setCell (not_hidden_reg _ n) v
  | get q =>
    obtain ⟨rfl, rfl⟩ := Prod.mk.inj (Option.some.inj hr)
    exact ⟨t, by rw [cpuExec, sfr, h.agree.cells _ (not_hidden_core ho)], h⟩
  | set q v =>
    obtain ⟨-, rfl⟩ := Prod.mk.inj (Option.some.inj hr)
    exact ⟨_, rfl, h.setCell (not_hidden_core ho) v⟩
  | getPc =>
    obtain ⟨rfl, rfl⟩ := Prod.mk.inj (Option.some.inj hr)
    exact ⟨t, by rw [cpuExec, hpc], h⟩
  | setPc w =>
    obtain ⟨-, rfl⟩ := Prod.mk.inj (Option.some.inj hr)
    exact ⟨_, rfl, h.setPc w⟩
  | _ => exact absurd ho id

/-- An instruction that consists of local operations neither depends on hidden cells nor changes
them. -/
lemma exec_hidden
    (hlocal : ∀ e ∈ (insn (m.fetch 0)).trace (cpuExec script) m, e.1.Local m.ramsfrtrap)
    (h : m.exec script = some m') (hagree : AgreeOff m m₂) :
    ∃ m₂', m₂.exec script = some m₂' ∧ AgreeOff m' m₂' ∧ KeepsHidden m m' ∧ KeepsHidden m₂ m₂' := by
  obtain ⟨⟨u, s⟩, hrun, rfl⟩ := Option.map_eq_some_iff.1 h
  have htwin : Twin m m₂ m m₂ := ⟨hagree, fun _ _ => rfl, fun _ _ => rfl, rfl⟩
  obtain ⟨t, ht, hend⟩ := Prog.run_simulates (h := cpuExec script) (g := cpuExec script)
    (R := Twin m m₂) (Q := fun o : CpuOp => o.Local m.ramsfrtrap)
    (fun o s t r s' ho hst hr => cpuExec_twin ho hst hr) hlocal htwin hrun
  have hfetch : m₂.fetch 0 = m.fetch 0 := by
    rw [hagree.rest]
    rfl
  refine ⟨t, ?_, hend.agree, hend.left, hend.right⟩
  rw [exec, dispatch, hfetch, ht, Option.map_some]

end Machine

/-! ## All records with an `@Ri` operand -/

section Spec

variable {script : Script σ} {m m' : Machine σ} {l : Label} {i : BitVec 3}

/-- The records without a direct operand, where the operand is in internal RAM. -/
lemma record_touches (script : Script σ) (hi : l.atRi = some i) (hd : l.hasDirect = false)
    (hok : l.viaIram = true ∨ (m.rx i < 0x80 ∧ m.ramsfrtrap (m.rx i) = false)) (op : Byte) :
    (l.record op).code.wp (cpuExec script) (fun t _ _ =>
      Touches m.ramsfrtrap (l.operands (iramCell (m.rx i)) (dataCell (m.fetch 1))) t) m := by
  cases l with
  | movE6 | movE7 =>
    obtain rfl := Option.some.inj hi
    exact toAcc_touches 1
  | mov76 | mov77 =>
    obtain rfl := Option.some.inj hi
    exact toAtr_fetch_touches 2
  | movF6 | movF7 =>
    obtain rfl := Option.some.inj hi
    exact toAtr_acc_touches 1
  | xchC6 | xchC7 =>
    obtain rfl := Option.some.inj hi
    exact xchAtr_touches
  | cjneB6 | cjneB7 =>
    obtain rfl := Option.some.inj hi
    exact cjne_touches
  | incAtr0 | incAtr1 | decAtr0 | decAtr1 =>
    obtain rfl := Option.some.inj hi
    obtain ⟨hlow, ht⟩ := hok.resolve_left Bool.false_ne_true
    exact modAtr_touches hlow ht _
  | xchdAtr0 | xchdAtr1 =>
    obtain rfl := Option.some.inj hi
    obtain ⟨hlow, ht⟩ := hok.resolve_left Bool.false_ne_true
    exact xchdAtr_touches hlow ht
  | genR0 o | genR1 o =>
    obtain rfl := Option.some.inj hi
    obtain ⟨hlow, ht⟩ := hok.resolve_left Bool.false_ne_true
    exact genRi_touches hlow ht o
  | mov86 | mov87 | movA6 | movA7 => exact absurd hd (by decide)
  | _ => exact absurd hi (Option.some_ne_none i).symm

/-- The records that have both `@Ri` and a direct operand access these two, each in its own way. -/
lemma record_names (script : Script σ) (hi : l.atRi = some i) (hd : l.hasDirect = true)
    (op : Byte) : (l.record op).code.wp (cpuExec script) (fun t _ _ =>
      Names (m.fetch 1) (l.operands (iramCell (m.rx i)) (dataCell (m.fetch 1))) t) m := by
  cases l with
  | mov86 | mov87 =>
    obtain rfl := Option.some.inj hi
    exact toIram_names 2
  | movA6 | movA7 =>
    obtain rfl := Option.some.inj hi
    exact toAtr_names 2
  | _ => exact absurd hd Bool.false_ne_true

/-- The records that use `readd` with the register's value start with a direct access at this
address. -/
lemma record_starts (hi : l.atRi = some i) (hv : l.viaIram = false) (op : Byte) :
    (l.record op).code.wp (cpuExec script) (fun t _ _ => StartsDirect (m.rx i) t) m := by
  cases l with
  | incAtr0 | incAtr1 | decAtr0 | decAtr1 =>
    obtain rfl := Option.some.inj hi
    exact modAtr_starts _
  | xchdAtr0 | xchdAtr1 =>
    obtain rfl := Option.some.inj hi
    exact xchdAtr_starts
  | genR0 o | genR1 o =>
    obtain rfl := Option.some.inj hi
    exact genRi_starts o
  | _ => first | exact absurd hv (by decide) | exact absurd hi (Option.some_ne_none i).symm

/-- They should start by reading the operand, and have no direct operand. -/
lemma operands_of_not_viaIram (hi : l.atRi = some i) (hv : l.viaIram = false) (c d : Cell) :
    l.hasDirect = false ∧ ∃ cs, l.operands c d = (false, c) :: cs := by
  cases l <;> first
    | exact ⟨rfl, _, rfl⟩
    | exact absurd hv (by decide)
    | exact absurd hi (Option.some_ne_none i).symm

/-- Advancing `pc` behind the code of a record accesses no cell. -/
lemma Touches.advance {trap : Byte → Bool} {cs : List (Bool × Cell)} {t : Trace}
    (h : Touches trap cs t) (w w' : Word) :
    Touches trap cs (t ++ [⟨.getPc, w⟩, ⟨.setPc w', ()⟩]) := by
  obtain ⟨rfl, hlocal⟩ := h
  refine ⟨by simp [accesses, CpuOp.access], ?_⟩
  rw [List.forall_mem_append]
  exact ⟨hlocal, by simp [CpuOp.Local]⟩

/-- Moving `pc` on afterwards adds no cell to those the run names. -/
lemma Names.advance {d : Byte} {cs : List (Bool × Cell)} {t : Trace} (h : Names d cs t)
    (w w' : Word) : Names d cs (t ++ [⟨.getPc, w⟩, ⟨.setPc w', ()⟩]) := by
  obtain ⟨rfl, hnames⟩ := h
  refine ⟨by simp [accesses, CpuOp.access], ?_⟩
  rw [List.forall_mem_append]
  exact ⟨hnames, by simp [CpuOp.direct]⟩

/-- Moving `pc` on afterwards does not change how the run starts. -/
lemma StartsDirect.advance {a : Byte} {t : Trace} (h : StartsDirect a t) (w w' : Word) :
    StartsDirect a (t ++ [⟨.getPc, w⟩, ⟨.setPc w', ()⟩]) := by
  obtain ⟨⟨cs, hcs⟩, v, hv⟩ := h
  refine ⟨⟨cs, ?_⟩, v, List.mem_append_left _ hv⟩
  rw [← hcs]
  simp [accesses, CpuOp.access]

/-- The operand of an `@Ri` instruction is in internal RAM exactly if the instruction uses `readi`
and `writei`, or `Ri` is below `0x80` (where nothing is trapped). -/
theorem exec_indirect_iff (hi : (insnmap (m.fetch 0)).atRi = some i)
    (h : m.exec script = some m') :
    m.IndirectInIram script (insnmap (m.fetch 0)) i m' ↔
      (insnmap (m.fetch 0)).viaIram = true ∨ (m.rx i < 0x80 ∧ m.ramsfrtrap (m.rx i) = false) := by
  obtain ⟨⟨u, s⟩, hrun, rfl⟩ := Option.map_eq_some_iff.1 h
  constructor
  · intro hspec
    by_contra hno
    obtain ⟨hv, hlow⟩ := not_or.1 hno
    rw [Bool.not_eq_true] at hv
    obtain ⟨hd, cs, hcs⟩ := operands_of_not_viaIram hi hv (iramCell (m.rx i)) (dataCell (m.fetch 1))
    obtain ⟨⟨cs', hcs'⟩, v, hmem⟩ :=
      OpRec.wp_emit_trace (fun _ w w' ht => ht.advance w w') (record_starts hi hv (m.fetch 0)) _ _
        hrun
    by_cases hri : m.rx i < 0x80
    · have htrap : m.ramsfrtrap (m.rx i) = true := by
        rw [← Bool.not_eq_false]
        exact fun hfalse => hlow ⟨hri, hfalse⟩
      have hdirect := (hspec.traps _ hmem _ rfl htrap).1
      exact absurd (hd.symm.trans hdirect) Bool.false_ne_true
    · have hcells := hcs'.symm.trans (hspec.operands.trans hcs)
      have hcell := congrArg Prod.snd (List.cons.inj hcells).1
      exact iramCell_ne_dataCell (BitVec.not_lt.1 hri) _ hcell.symm
  · intro hok
    cases hd : (insnmap (m.fetch 0)).hasDirect with
    | false =>
      have htouch := OpRec.wp_emit_trace (fun _ w w' ht => ht.advance w w')
        (record_touches script hi hd hok (m.fetch 0)) _ _ hrun
      refine ⟨htouch.1, fun e he a ha htrap => ?_, fun _ => ?_⟩
      · have hlocal := htouch.2 e he
        have hfree : m.ramsfrtrap a = false := by
          obtain ⟨o, r⟩ := e
          cases o <;> first
            | exact absurd ha (Option.some_ne_none a).symm
            | exact Option.some.inj ha ▸ hlocal.2
        exact absurd (hfree.symm.trans htrap) Bool.false_ne_true
      · refine ⟨?_, fun m₂ hagree => ?_⟩
        · have hself : Machine.AgreeOff m m := ⟨rfl, fun _ _ => rfl⟩
          obtain ⟨_, -, -, hkeep, -⟩ := Machine.exec_hidden htouch.2 h hself
          exact hkeep
        · obtain ⟨m₂', hexec, hagree', -, hkeep⟩ := Machine.exec_hidden htouch.2 h hagree
          exact ⟨m₂', hexec, hagree', hkeep⟩
    | true =>
      have hnames := OpRec.wp_emit_trace (fun _ w w' ht => ht.advance w w')
        (record_names script hi hd (m.fetch 0)) _ _ hrun
      refine ⟨hnames.1, fun e he a ha _ => ⟨hd, hnames.2 e he a ha⟩, fun hn => ?_⟩
      exact absurd (hd.symm.trans hn) (Bool.false_ne_true ·.symm)

/-- The theorem at `INC @R0`, one of the records that go through `readd`. -/
theorem exec_indirect_iff_inc : ∃ m' : Machine Unit,
    (Machine.running [0x06]).IndirectInIram noHooks .incAtr0 0 m' ↔
      Label.incAtr0.viaIram = true ∨ ((Machine.running [0x06]).rx 0 < 0x80 ∧
        (Machine.running [0x06]).ramsfrtrap ((Machine.running [0x06]).rx 0) = false) := by
  have hexec : (Machine.running [0x06]).exec noHooks =
      some (((Machine.running [0x06]).setSfr 0 1).setPc 1) := rfl
  exact ⟨_, exec_indirect_iff rfl hexec⟩

/-- `INC @R0` with `R0 = 90H` increments a special function register. -/
theorem inc_atr0_leaves_iram : ¬∀ (m m' : Machine Unit) (i : BitVec 3),
    (insnmap (m.fetch 0)).atRi = some i → m.exec noHooks = some m' →
    m.IndirectInIram noHooks (insnmap (m.fetch 0)) i m' := by
  intro hall
  have hspec := hall ((Machine.running [0x06]).setSfr 0 0x90) _ 0 rfl rfl
  exact absurd hspec.operands (by decide +kernel)

end Spec

end Emu51

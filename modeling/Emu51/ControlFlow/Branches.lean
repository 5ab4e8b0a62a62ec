import Emu51.Machine.Effects
import Emu51.Machine.Profile
import Emu51.Machine.SetPc
import Emu51.Machine.System

/-!
# Sequential flow and relative branches

Apart from the jumps, calls and returns, an instruction advances `pc` by its length, and a relative
branch adds its last byte if its condition holds. The lengths are those of the table for the trace
printout, which is kept by hand beside the byte counts of the records and the code of the branches.
-/

namespace Emu51

variable {σ : Type}

/-! ## Lengths -/

/-- The table `insn_bytes`. -/
def insnBytesTable : List ℕ := [
  1, 2, 3, 1, 1, 2, 1, 1, 1, 1, 1, 1, 1, 1, 1, 1,
  3, 2, 3, 1, 1, 2, 1, 1, 1, 1, 1, 1, 1, 1, 1, 1,
  3, 2, 1, 1, 2, 2, 1, 1, 1, 1, 1, 1, 1, 1, 1, 1,
  3, 2, 1, 1, 2, 2, 1, 1, 1, 1, 1, 1, 1, 1, 1, 1,
  2, 2, 2, 3, 2, 2, 1, 1, 1, 1, 1, 1, 1, 1, 1, 1,
  2, 2, 2, 3, 2, 2, 1, 1, 1, 1, 1, 1, 1, 1, 1, 1,
  2, 2, 2, 3, 2, 2, 1, 1, 1, 1, 1, 1, 1, 1, 1, 1,
  2, 2, 2, 1, 2, 3, 2, 2, 2, 2, 2, 2, 2, 2, 2, 2,
  2, 2, 2, 1, 1, 3, 2, 2, 2, 2, 2, 2, 2, 2, 2, 2,
  3, 2, 2, 1, 2, 2, 1, 1, 1, 1, 1, 1, 1, 1, 1, 1,
  2, 2, 2, 1, 1, 1, 2, 2, 2, 2, 2, 2, 2, 2, 2, 2,
  2, 2, 2, 1, 3, 3, 3, 3, 3, 3, 3, 3, 3, 3, 3, 3,
  2, 2, 2, 1, 1, 2, 1, 1, 1, 1, 1, 1, 1, 1, 1, 1,
  2, 2, 2, 1, 1, 3, 1, 1, 2, 2, 2, 2, 2, 2, 2, 2,
  1, 2, 1, 1, 1, 2, 1, 1, 1, 1, 1, 1, 1, 1, 1, 1,
  1, 2, 1, 1, 1, 2, 1, 1, 1, 1, 1, 1, 1, 1, 1, 1]

/-- `insn_bytes[op]`. -/
def insnBytes (op : Byte) : ℕ := insnBytesTable.getD op.toNat 0

/-- The relative branches. -/
inductive Branch where
  | sjmp | jbc | jb | jnb | jc | jnc | jz | jnz
  | cjneA | cjneB5 | cjneB6 | cjneB7 | cjneR | djnzI | djnzR
  deriving DecidableEq

namespace Label

/-- The instructions that go to an address of their own: `LJMP`, `AJMP`, `LCALL`, `ACALL`, `RET`,
`RETI` and `JMP @A+DPTR`. -/
def goesTo : Label → Bool
  | ljmp | ajmp | lcall | acall | ret | reti | jmpAd => true
  | _ => false

/-- The relative branch behind a label. -/
def branch : Label → Option Branch
  | sjmp => some .sjmp
  | jbc => some .jbc
  | jb => some .jb
  | jnb => some .jnb
  | jc => some .jc
  | jnc => some .jnc
  | jz => some .jz
  | jnz => some .jnz
  | cjneA => some .cjneA
  | cjneB5 => some .cjneB5
  | cjneB6 => some .cjneB6
  | cjneB7 => some .cjneB7
  | cjneR => some .cjneR
  | djnzI => some .djnzI
  | djnzR => some .djnzR
  | _ => none

end Label

/-- The byte count of a record that lets `gen` advance `pc` is its length. -/
lemma record_bytes_eq {op : Byte} (hgoes : (insnmap op).goesTo = false)
    (hbranch : (insnmap op).branch = none) :
    ((insnmap op).record op).bytes = insnBytes op := by
  revert op
  decide +kernel

/-! ## Instructions without a branch -/

/-- The operation leaves `pc` alone. -/
def CpuOp.KeepsPc : CpuOp → Prop
  | .setPc _ => False
  | _ => True

/-- A record that assigns to `pc` goes to an address of its own or branches. -/
lemma jumps_eq_false {l : Label} (hgoes : l.goesTo = false) (hbranch : l.branch = none) :
    l.jumps = false := by
  cases l <;> first
    | rfl
    | exact absurd hgoes.symm Bool.false_ne_true
    | exact absurd hbranch (Option.some_ne_none _)

/-- The code of a record that neither jumps nor branches leaves `pc` alone. -/
lemma code_keepsPc {l : Label} (hgoes : l.goesTo = false) (hbranch : l.branch = none) (op : Byte) :
    (l.record op).code.All CpuOp.KeepsPc := by
  refine (record_may l op).mono fun o ho => ?_
  cases o with
  | setPc w => exact absurd ((jumps_eq_false hgoes hbranch).symm.trans ho) Bool.false_ne_true
  | _ => trivial

namespace Machine

variable {script : Script σ} {m m' : Machine σ}

/-- A direct read leaves `pc` alone, hooks and all. -/
lemma readd_pc {a : Byte} {y : Byte × Machine σ} (h : readd script a m = some y) : y.2.pc = m.pc :=
  (readd_effects (pokesOnly_true script) h).fixed.pc

/-- A direct write leaves `pc` alone, hooks and all. -/
lemma writed_pc {a v : Byte} (h : writed script a v m = some m') : m'.pc = m.pc :=
  (writed_effects (pokesOnly_true script) trivial h).fixed.pc

/-- Of all operations only those that set `pc` move it. -/
lemma cpuExec_keepsPc {o : CpuOp} (ho : o.KeepsPc) {r : o.Res}
    (h : cpuExec script o m = some (r, m')) : m'.pc = m.pc := by
  cases o with
  | setPc w => exact absurd ho id
  | readd a => exact readd_pc h
  | writed a v =>
    obtain ⟨m₁, hm₁, heq⟩ := Option.map_eq_some_iff.1 h
    obtain ⟨-, rfl⟩ := Prod.mk.inj heq
    exact writed_pc hm₁
  | writex a v =>
    obtain ⟨-, rfl⟩ := Prod.mk.inj (Option.some.inj h)
    exact (m.sameCore_writex a v).pc
  | _ =>
    obtain ⟨-, rfl⟩ := Prod.mk.inj (Option.some.inj h)
    rfl

/-- An instruction without a jump or a branch advances `pc` by its length. -/
lemma dispatch_pc {op : Byte} (hgoes : (insnmap op).goesTo = false)
    (hbranch : (insnmap op).branch = none) (h : dispatch script op m = some m') :
    m'.pc = m.pc + BitVec.ofNat 16 (insnBytes op) := by
  obtain ⟨⟨u, m₂⟩, hrun, rfl⟩ := Option.map_eq_some_iff.1 h
  unfold insn OpRec.emit at hrun
  rw [Prog.run_bind] at hrun
  obtain ⟨⟨u₁, m₁⟩, hcode, hadvance⟩ := Option.bind_eq_some_iff.1 hrun
  have hpc : m₁.pc = m.pc := (code_keepsPc hgoes hbranch op).run_invariant (h := cpuExec script)
    (I := fun m' => m'.pc = m.pc) (fun _ _ _ _ ho hs he => (cpuExec_keepsPc ho he).trans hs)
      rfl hcode
  rw [record_bytes_eq hgoes hbranch] at hadvance
  split_ifs at hadvance with hbytes
  · obtain ⟨-, rfl⟩ := Prod.mk.inj (Option.some.inj (hadvance.symm.trans (Cpu.run_advance _)))
    rw [setPc_pc, hpc]
  · obtain ⟨-, rfl⟩ := Prod.mk.inj (Option.some.inj hadvance)
    rw [not_not.1 hbytes, hpc]
    exact (BitVec.add_zero m.pc).symm

end Machine

/-! ## Relative branches -/

namespace Branch

/-- What a branch looks at: two bytes, and the state after they have been read. -/
def reads (script : Script σ) (op : Byte) (m : Machine σ) : Branch →
    Option (Byte × Byte × Machine σ)
  | sjmp => some (0, 0, m)
  | jbc | jb | jnb =>
      (m.readd script (Cpu.bitaddr (m.fetch 1))).map fun y => (y.1, Cpu.bitMask (m.fetch 1), y.2)
  | jc | jnc => some (m.sfr PSW, PSW_C, m)
  | jz | jnz => some (m.sfr ACC, 0, m)
  | cjneA => some (m.sfr ACC, m.fetch 1, m)
  | cjneB5 => (m.readd script (m.fetch 1)).map fun y => (m.sfr ACC, y.1, y.2)
  | cjneB6 => some (m.readi (m.rx 0), m.fetch 1, m)
  | cjneB7 => some (m.readi (m.rx 1), m.fetch 1, m)
  | cjneR => some (m.rx (op.setWidth 3), m.fetch 1, m)
  | djnzI => (m.readd script (m.fetch 1)).map fun y => (y.1, 1, y.2)
  | djnzR => some (m.rx (op.setWidth 3), 1, m)

/-- The condition: a bit or the carry is set or clear, the accumulator is zero or not, the operands
differ, or the decremented value is not zero. -/
def holds (x y : Byte) : Branch → Bool
  | sjmp => true
  | jbc | jb | jc => x &&& y != 0
  | jnb | jnc => x &&& y == 0
  | jz => x == 0
  | jnz => x != 0
  | cjneA | cjneB5 | cjneB6 | cjneB7 | cjneR => x != y
  | djnzI | djnzR => x - 1 != 0

/-- What a branch does beside moving `pc`: `JBC` clears the bit if it is set, `CJNE` compares, and
`DJNZ` stores the decremented value. -/
def writes (script : Script σ) (op : Byte) (m : Machine σ) (x y : Byte) (m₁ : Machine σ) :
    Branch → Option (Machine σ)
  | jbc =>
      if x &&& y ≠ 0 then
        (m₁.readd script (Cpu.bitaddr (m.fetch 1))).bind fun z =>
          z.2.writed script (Cpu.bitaddr (m.fetch 1)) (z.1 &&& ~~~y)
      else some m₁
  | cjneA | cjneB5 | cjneB6 | cjneB7 | cjneR =>
      some (m₁.setSfr PSW (if x < y then m₁.sfr PSW ||| PSW_C else m₁.sfr PSW &&& ~~~PSW_C))
  | djnzI => m₁.writed script (m.fetch 1) (x - 1)
  | djnzR => some (m₁.setCell (regCell m₁.reg (op.setWidth 3)) (x - 1))
  | _ => some m₁

/-- The last byte of a branch. `CJNE A, direct` fetches it only after it has read its operand. -/
def lastByte (op : Byte) (m m₁ : Machine σ) : Branch → Byte
  | cjneB5 => m₁.fetch (BitVec.ofNat 16 (insnBytes op - 1))
  | _ => m.fetch (BitVec.ofNat 16 (insnBytes op - 1))

/-- Where a branch leads. -/
def target (op : Byte) (m : Machine σ) (taken : Bool) (ofs : Byte) : Word :=
  m.pc + BitVec.ofNat 16 (insnBytes op) + if taken then ofs.signExtend 16 else 0

/-- The direct address of the operand, for the branches that have one. -/
def direct (m : Machine σ) : Branch → Option Byte
  | jbc | jb | jnb => some (Cpu.bitaddr (m.fetch 1))
  | cjneB5 | djnzI => some (m.fetch 1)
  | _ => none

/-- The cell a branch stores in where no trap intervenes, with its new contents. -/
def stores (op : Byte) (m : Machine σ) (x y : Byte) : Branch → Option (Cell × Byte)
  | jbc => if x &&& y ≠ 0 then some (dataCell (Cpu.bitaddr (m.fetch 1)), x &&& ~~~y) else none
  | cjneA | cjneB5 | cjneB6 | cjneB7 | cjneR =>
      some (dataCell PSW, if x < y then m.sfr PSW ||| PSW_C else m.sfr PSW &&& ~~~PSW_C)
  | djnzI => some (dataCell (m.fetch 1), x - 1)
  | djnzR => some (regCell m.reg (op.setWidth 3), x - 1)
  | _ => none

/-- The number of bytes of a branch. -/
def bytes : Branch → ℕ
  | sjmp | jc | jnc | jz | jnz | djnzR => 2
  | _ => 3

end Branch

/-- The length of a branch in the table is that of its code. -/
lemma insnBytes_branch {op : Byte} {b : Branch} (h : (insnmap op).branch = some b) :
    insnBytes op = b.bytes := by
  have hall : ∀ op : Byte, ∀ b ∈ (insnmap op).branch, insnBytes op = b.bytes := by decide +kernel
  exact hall op b h

namespace Machine

variable {script : Script σ} {m m' : Machine σ}

/-- The result of a relative branch. -/
def BranchTo (script : Script σ) (op : Byte) (b : Branch) (m m' : Machine σ) : Prop :=
  ∃ x y m₁ m₂, b.reads script op m = some (x, y, m₁) ∧ b.writes script op m x y m₁ = some m₂ ∧
    m' = m₂.setPc (Branch.target op m (b.holds x y) (b.lastByte op m m₁))

/-! ## The code of the branches -/

/-- A branch that depends on a condition adds the offset to `pc` exactly if it holds. -/
lemma run_branch_if {c : Prop} [Decidable c] {b : Bool} (hb : b = true ↔ c) (ofs : Byte)
    (m : Machine σ) : (if c then Cpu.branch ofs else pure () : Cpu Unit).run (cpuExec script) m =
      some ((), m.setPc (m.pc + if b then ofs.signExtend 16 else 0)) := by
  by_cases hc : c
  · rw [if_pos hc, if_pos (hb.2 hc)]
    rfl
  · have hpc : m.setPc (m.pc + 0) = m := setPc_eq_self (BitVec.add_zero m.pc)
    rw [if_neg hc, if_neg (fun hbt => hc (hb.1 hbt)), hpc]
    rfl

/-- A branch on a condition with code after it. -/
lemma run_branch_if_then {c : Prop} [Decidable c] {b : Bool} (hb : b = true ↔ c) (ofs : Byte)
    (p : Cpu Unit) (m : Machine σ) :
    (if c then Cpu.branch ofs >>= fun _ => p else p : Cpu Unit).run (cpuExec script) m =
      p.run (cpuExec script) (m.setPc (m.pc + if b then ofs.signExtend 16 else 0)) := by
  have hsplit : (if c then Cpu.branch ofs >>= fun _ => p else p : Cpu Unit) =
      (if c then Cpu.branch ofs else pure () : Cpu Unit) >>= fun _ => p := by
    split <;> rfl
  rw [hsplit, Prog.run_bind, run_branch_if hb, Option.bind_some]

/-- The length may be added before or after the offset. -/
lemma add_length_comm (pc ofs n : Word) : pc + ofs + n = pc + n + ofs := by
  rw [BitVec.add_assoc, BitVec.add_comm ofs, ← BitVec.add_assoc]

/-- `JB` and `JNB` differ in what they test of the bit. -/
lemma run_bitBranch (cond : Byte → Byte → Prop) [∀ bit, DecidablePred (cond bit)] {c : Byte → Bool}
    (hc : ∀ v, c v = true ↔ cond (m.fetch 1) v) :
    (do
      let bit ← Cpu.fetch 1
      let ofs ← Cpu.fetch 2
      Cpu.advance 3
      let v ← Cpu.readd (Cpu.bitaddr bit)
      if cond bit v then Cpu.branch ofs else pure () : Cpu Unit).run (cpuExec script) m =
      (m.readd script (Cpu.bitaddr (m.fetch 1))).map fun y =>
        ((), y.2.setPc (m.pc + 3 + if c y.1 then (m.fetch 2).signExtend 16 else 0)) := by
  simp only [Prog.run_bind, Cpu.run_fetch, Option.bind_some, Cpu.run_advance, Cpu.run_readd,
    readd_setPc]
  cases m.readd script (Cpu.bitaddr (m.fetch 1)) with
  | none => rfl
  | some y => exact run_branch_if (hc y.1) (m.fetch 2) (y.2.setPc (m.pc + 3))

/-- `JB` adds the offset to the address behind it exactly if the bit is set. -/
lemma run_jb : Ops.jb.code.run (cpuExec script) m =
    (m.readd script (Cpu.bitaddr (m.fetch 1))).map fun y => ((), y.2.setPc (m.pc + 3 +
      if y.1 &&& Cpu.bitMask (m.fetch 1) != 0 then (m.fetch 2).signExtend 16 else 0)) :=
  run_bitBranch (fun bit v => v &&& Cpu.bitMask bit ≠ 0) fun _ => bne_iff_ne

/-- `JNB` adds the offset to the address behind it exactly if the bit is clear. -/
lemma run_jnb : Ops.jnb.code.run (cpuExec script) m =
    (m.readd script (Cpu.bitaddr (m.fetch 1))).map fun y => ((), y.2.setPc (m.pc + 3 +
      if y.1 &&& Cpu.bitMask (m.fetch 1) == 0 then (m.fetch 2).signExtend 16 else 0)) :=
  run_bitBranch (fun bit v => v &&& Cpu.bitMask bit = 0) fun _ => beq_iff_eq

/-- A branch on a register of the core adds the offset to the address behind it exactly if the
condition holds. -/
lemma run_branchOn (r : CoreReg) (cond : Byte → Bool) :
    (Ops.branchOn r cond).code.run (cpuExec script) m =
      some ((), m.setPc (m.pc + 2 +
        if cond (m.sfr r.addr) then (m.fetch 1).signExtend 16 else 0)) :=
  run_branch_if Iff.rfl (m.fetch 1) (m.setPc (m.pc + 2))

/-- `SJMP` always adds the offset to the address behind it. -/
lemma run_sjmp : Ops.sjmp.code.run (cpuExec script) m =
    some ((), m.setPc (m.pc + 2 + (m.fetch 1).signExtend 16)) := by
  rw [BitVec.add_assoc]
  rfl

/-- `JBC` reads the bit, and writes it only if it is set, which reads it a second time. -/
lemma run_jbc : Ops.jbc.code.run (cpuExec script) m =
    (m.readd script (Cpu.bitaddr (m.fetch 1))).bind fun y =>
      (Branch.jbc.writes script 0 m y.1 (Cpu.bitMask (m.fetch 1)) y.2).map fun m₂ =>
        ((), m₂.setPc (m.pc + 3 + if y.1 &&& Cpu.bitMask (m.fetch 1) != 0
          then (m.fetch 2).signExtend 16 else 0)) := by
  unfold Ops.jbc Branch.writes
  simp only [Prog.run_bind, Cpu.run_fetch, Option.bind_some, Cpu.run_advance, Cpu.run_readd,
    readd_setPc]
  cases m.readd script (Cpu.bitaddr (m.fetch 1)) with
  | none => rfl
  | some y =>
    rw [Option.map_some, Option.bind_some, Option.bind_some]
    by_cases hbit : y.1 &&& Cpu.bitMask (m.fetch 1) ≠ 0
    · rw [if_pos hbit, if_pos hbit, if_pos (bne_iff_ne.2 hbit)]
      simp only [Prog.run_bind, Cpu.run_readd, readd_setPc]
      cases y.2.readd script (Cpu.bitaddr (m.fetch 1)) with
      | none => rfl
      | some z =>
        simp only [Option.map_some, Option.bind_some, Cpu.run_writed, writed_setPc, Option.map_map]
        cases z.2.writed script (Cpu.bitaddr (m.fetch 1))
          (z.1 &&& ~~~Cpu.bitMask (m.fetch 1)) with
        | none => rfl
        | some m₂ => rfl
    · have hclear : (y.1 &&& Cpu.bitMask (m.fetch 1) != 0) = false :=
        bne_eq_false_iff_eq.2 (not_not.1 hbit)
      have hadd : m.pc + 3 + 0 = m.pc + 3 := BitVec.add_zero _
      rw [if_neg hbit, if_neg hbit, hclear, if_neg Bool.false_ne_true, hadd]
      rfl

/-- `alu_cmp` returns zero for equal operands, and its new `PSW` has the carry of the comparison. -/
lemma aluCmp_eq (x y psw : Byte) : aluCmp x y psw =
    (x - y, if x < y then psw ||| PSW_C else psw &&& ~~~PSW_C) := by
  have hset : ∀ p : Byte, p &&& ~~~PSW_C ||| PSW_C = p ||| PSW_C := by decide
  have hclear : ∀ p : Byte, p &&& ~~~PSW_C ||| 0 = p &&& ~~~PSW_C := by decide
  unfold aluCmp flagIf
  by_cases h : x < y
  · rw [if_pos h, if_pos (decide_eq_true h), hset]
  · rw [if_neg h, if_neg (by simpa using h), hclear]

/-- `CJNE`, where `y` may be read from a register. -/
lemma run_cjne {x y : Cpu Byte} {a : Byte} (hx : x.run (cpuExec script) m = some (a, m))
    (hy : ∀ z, y.run (cpuExec script) m = some z → z.2.pc = m.pc) :
    (Ops.cjne x y).emit.run (cpuExec script) m = (y.run (cpuExec script) m).map fun z =>
      ((), (z.2.setSfr PSW (if a < z.1 then z.2.sfr PSW ||| PSW_C
        else z.2.sfr PSW &&& ~~~PSW_C)).setPc
          (m.pc + 3 + if a != z.1 then (z.2.fetch 2).signExtend 16 else 0)) := by
  unfold OpRec.emit Ops.cjne
  dsimp only
  rw [if_pos (by decide), Prog.run_bind, Prog.run_bind, hx, Option.bind_some, Prog.run_bind]
  cases hz : y.run (cpuExec script) m with
  | none => rfl
  | some z =>
    have hne : (a != z.1) = true ↔ a - z.1 ≠ 0 := by
      rw [bne_iff_ne, Ne, Ne, not_iff_not]
      constructor
      · rintro rfl
        exact BitVec.sub_self _
      · exact fun h => by bv_omega
    rw [Option.bind_some, Option.map_some, Prog.run_bind, Cpu.run_alu, Option.bind_some, aluCmp_eq]
    dsimp only
    have hpc : z.2.pc = m.pc := hy z hz
    by_cases hdiff : a - z.1 ≠ 0
    · have hadd : z.2.pc + (z.2.fetch 2).signExtend 16 + 3 =
          m.pc + 3 + (z.2.fetch 2).signExtend 16 := by
        rw [hpc, add_length_comm]
      rw [if_pos hdiff, if_pos (hne.2 hdiff), ← hadd]
      rfl
    · have hadd : z.2.pc + 3 = m.pc + 3 + 0 := by
        rw [hpc]
        exact (BitVec.add_zero _).symm
      rw [if_neg hdiff, if_neg (fun h => hdiff (hne.1 h)), ← hadd]
      rfl

/-- `CJNE` with an immediate operand sets the carry by the comparison and branches if the two
differ. -/
lemma run_cjne_immediate {x : Cpu Byte} {a : Byte} (hx : x.run (cpuExec script) m = some (a, m)) :
    (Ops.cjne x (Cpu.fetch 1)).emit.run (cpuExec script) m =
      some ((), (m.setSfr PSW (if a < m.fetch 1 then m.sfr PSW ||| PSW_C
        else m.sfr PSW &&& ~~~PSW_C)).setPc
          (m.pc + 3 + if a != m.fetch 1 then (m.fetch 2).signExtend 16 else 0)) := by
  rw [run_cjne hx, Cpu.run_fetch]
  · rfl
  · intro z hz
    obtain rfl := Option.some.inj hz
    rfl

/-- `DJNZ` with a direct operand branches before it stores. -/
lemma run_djnzI : Ops.djnzI.emit.run (cpuExec script) m =
    (m.readd script (m.fetch 1)).bind fun y =>
    (y.2.writed script (m.fetch 1) (y.1 - 1)).map fun m₂ =>
      ((), m₂.setPc (m.pc + 3 + if y.1 - 1 != 0 then (m.fetch 2).signExtend 16 else 0)) := by
  unfold OpRec.emit Ops.djnzI
  dsimp only
  rw [if_pos (by decide)]
  simp only [Prog.run_bind, Cpu.run_fetch, Option.bind_some, Cpu.run_readd]
  cases hy : m.readd script (m.fetch 1) with
  | none => rfl
  | some y =>
    rw [Option.bind_some, Option.bind_some, run_branch_if_then (b := y.1 - 1 != 0) bne_iff_ne,
      Cpu.run_writed, writed_setPc]
    cases y.2.writed script (m.fetch 1) (y.1 - 1) with
    | none => rfl
    | some m₂ =>
      have hpc : y.2.pc = m.pc := readd_pc hy
      rw [← add_length_comm, ← hpc]
      rfl

/-- `DJNZ Rn, rel` counts the register down and adds the offset exactly if the register has not come
to 0. -/
lemma run_djnzR (op : Byte) : (Ops.djnzR op).emit.run (cpuExec script) m =
    some ((), (m.setCell (regCell m.reg (op.setWidth 3)) (m.rx (op.setWidth 3) - 1)).setPc
      (m.pc + 2 + if m.rx (op.setWidth 3) - 1 != 0 then (m.fetch 1).signExtend 16 else 0)) := by
  unfold OpRec.emit Ops.djnzR
  dsimp only
  rw [if_pos (by decide)]
  simp only [Prog.run_bind, Cpu.run_fetch, Option.bind_some, Cpu.run_getRx, Cpu.run_setRx]
  rw [run_branch_if (b := m.rx (op.setWidth 3) - 1 != 0) bne_iff_ne, Option.bind_some,
    Cpu.run_advance, setPc_pc, setCell_pc, add_length_comm]
  rfl

/-- A record of length 0 moves `pc` itself, and nothing is added behind its code. -/
lemma emit_of_zero {r : OpRec} (h : r.bytes = 0) : r.emit = r.code := by
  unfold OpRec.emit
  rw [if_neg (not_not.2 h)]
  exact Prog.bind_done r.code

/-- A relative branch reads its operands, does what it has to beside branching, and goes to its
target. -/
lemma dispatch_branch {op : Byte} {b : Branch} (hb : (insnmap op).branch = some b)
    (h : dispatch script op m = some m') : BranchTo script op b m m' := by
  have hlen := insnBytes_branch hb
  obtain ⟨⟨u, m₂⟩, hrun, rfl⟩ := Option.map_eq_some_iff.1 h
  unfold insn at hrun
  generalize insnmap op = l at hb hrun
  unfold BranchTo Branch.target Branch.lastByte
  cases l with
  | sjmp =>
    obtain rfl := Option.some.inj hb
    rw [Label.record, emit_of_zero rfl, run_sjmp] at hrun
    obtain ⟨-, rfl⟩ := Prod.mk.inj (Option.some.inj hrun)
    exact ⟨0, 0, m, m, rfl, rfl, by rw [hlen]; rfl⟩
  | jbc =>
    obtain rfl := Option.some.inj hb
    rw [Label.record, emit_of_zero rfl, run_jbc] at hrun
    obtain ⟨y, hy, hmap⟩ := Option.bind_eq_some_iff.1 hrun
    obtain ⟨m₃, hm₃, heq⟩ := Option.map_eq_some_iff.1 hmap
    obtain ⟨-, rfl⟩ := Prod.mk.inj heq
    exact ⟨_, _, y.2, m₃, by rw [Branch.reads, hy]; rfl, hm₃, by rw [hlen]; rfl⟩
  | jb =>
    obtain rfl := Option.some.inj hb
    rw [Label.record, emit_of_zero rfl, run_jb] at hrun
    obtain ⟨y, hy, heq⟩ := Option.map_eq_some_iff.1 hrun
    obtain ⟨-, rfl⟩ := Prod.mk.inj heq
    exact ⟨_, _, y.2, y.2, by rw [Branch.reads, hy]; rfl, rfl, by rw [hlen]; rfl⟩
  | jnb =>
    obtain rfl := Option.some.inj hb
    rw [Label.record, emit_of_zero rfl, run_jnb] at hrun
    obtain ⟨y, hy, heq⟩ := Option.map_eq_some_iff.1 hrun
    obtain ⟨-, rfl⟩ := Prod.mk.inj heq
    exact ⟨_, _, y.2, y.2, by rw [Branch.reads, hy]; rfl, rfl, by rw [hlen]; rfl⟩
  | jc =>
    obtain rfl := Option.some.inj hb
    rw [Label.record, emit_of_zero rfl, Ops.jc, run_branchOn] at hrun
    obtain ⟨-, rfl⟩ := Prod.mk.inj (Option.some.inj hrun)
    exact ⟨_, _, m, m, rfl, rfl, by rw [hlen]; rfl⟩
  | jnc =>
    obtain rfl := Option.some.inj hb
    rw [Label.record, emit_of_zero rfl, Ops.jnc, run_branchOn] at hrun
    obtain ⟨-, rfl⟩ := Prod.mk.inj (Option.some.inj hrun)
    exact ⟨_, _, m, m, rfl, rfl, by rw [hlen]; rfl⟩
  | jz =>
    obtain rfl := Option.some.inj hb
    rw [Label.record, emit_of_zero rfl, Ops.jz, run_branchOn] at hrun
    obtain ⟨-, rfl⟩ := Prod.mk.inj (Option.some.inj hrun)
    exact ⟨_, _, m, m, rfl, rfl, by rw [hlen]; rfl⟩
  | jnz =>
    obtain rfl := Option.some.inj hb
    rw [Label.record, emit_of_zero rfl, Ops.jnz, run_branchOn] at hrun
    obtain ⟨-, rfl⟩ := Prod.mk.inj (Option.some.inj hrun)
    exact ⟨_, _, m, m, rfl, rfl, by rw [hlen]; rfl⟩
  | cjneA =>
    obtain rfl := Option.some.inj hb
    rw [Label.record, Ops.cjneA, run_cjne_immediate (Cpu.run_get .acc)] at hrun
    obtain ⟨-, rfl⟩ := Prod.mk.inj (Option.some.inj hrun)
    exact ⟨_, _, m, _, rfl, rfl, by rw [hlen]; rfl⟩
  | cjneB5 =>
    obtain rfl := Option.some.inj hb
    have hdirect : Ops.direct1.run (cpuExec script) m = m.readd script (m.fetch 1) :=
      Prog.run_op _ _
    rw [Label.record, Ops.cjneB5, run_cjne (Cpu.run_get .acc) fun z hz => readd_pc (hdirect ▸ hz),
      hdirect] at hrun
    obtain ⟨y, hy, heq⟩ := Option.map_eq_some_iff.1 hrun
    obtain ⟨-, rfl⟩ := Prod.mk.inj heq
    exact ⟨_, _, y.2, _, by rw [Branch.reads, hy]; rfl, rfl, by rw [hlen]; rfl⟩
  | cjneB6 =>
    obtain rfl := Option.some.inj hb
    rw [Label.record, Ops.cjneB6, run_cjne_immediate (a := m.readi (m.rx 0)) rfl] at hrun
    obtain ⟨-, rfl⟩ := Prod.mk.inj (Option.some.inj hrun)
    exact ⟨_, _, m, _, rfl, rfl, by rw [hlen]; rfl⟩
  | cjneB7 =>
    obtain rfl := Option.some.inj hb
    rw [Label.record, Ops.cjneB7, run_cjne_immediate (a := m.readi (m.rx 1)) rfl] at hrun
    obtain ⟨-, rfl⟩ := Prod.mk.inj (Option.some.inj hrun)
    exact ⟨_, _, m, _, rfl, rfl, by rw [hlen]; rfl⟩
  | cjneR =>
    obtain rfl := Option.some.inj hb
    rw [Label.record, Ops.cjneR, run_cjne_immediate (Cpu.run_getRx (op.setWidth 3))] at hrun
    obtain ⟨-, rfl⟩ := Prod.mk.inj (Option.some.inj hrun)
    exact ⟨_, _, m, _, rfl, rfl, by rw [hlen]; rfl⟩
  | djnzI =>
    obtain rfl := Option.some.inj hb
    rw [Label.record, run_djnzI] at hrun
    obtain ⟨y, hy, hmap⟩ := Option.bind_eq_some_iff.1 hrun
    obtain ⟨m₃, hm₃, heq⟩ := Option.map_eq_some_iff.1 hmap
    obtain ⟨-, rfl⟩ := Prod.mk.inj heq
    exact ⟨_, _, y.2, m₃, by rw [Branch.reads, hy]; rfl, hm₃, by rw [hlen]; rfl⟩
  | djnzR =>
    obtain rfl := Option.some.inj hb
    rw [Label.record, run_djnzR] at hrun
    obtain ⟨-, rfl⟩ := Prod.mk.inj (Option.some.inj hrun)
    exact ⟨_, _, m, _, rfl, rfl, by rw [hlen]; rfl⟩
  | _ => exact absurd hb (Option.some_ne_none b).symm

/-! ## Branches that meet no trap -/

/-- Store in a cell, if there is one to store in. -/
def storeAt (m : Machine σ) : Option (Cell × Byte) → Machine σ
  | none => m
  | some (c, v) => m.setCell c v

/-- Where the operand is not trapped, reading it changes nothing, and the branch stores in one cell
at most. -/
lemma branch_untrapped {op : Byte} {b : Branch} {x y : Byte} {m₁ m₂ : Machine σ}
    (ht : ∀ a, b.direct m = some a → m.ramsfrtrap a = false)
    (hreads : b.reads script op m = some (x, y, m₁))
    (hwrites : b.writes script op m x y m₁ = some m₂) :
    m₁ = m ∧ m₂ = m.storeAt (b.stores op m x y) := by
  have hread : ∀ {a}, b.direct m = some a → m.readd script a = some (m.sfr a, m) :=
    fun ha => readd_of_untrapped (ht _ ha)
  have hwrite : ∀ {a}, b.direct m = some a → ∀ v, m.writed script a v = some (m.setSfr a v) :=
    fun ha v => writed_of_untrapped (ht _ ha)
  unfold Branch.reads at hreads
  unfold Branch.writes at hwrites
  unfold Branch.stores
  cases b with
  | jbc =>
    rw [hread rfl] at hreads
    obtain ⟨rfl, hrest⟩ := Prod.mk.inj (Option.some.inj hreads)
    obtain ⟨rfl, rfl⟩ := Prod.mk.inj hrest
    refine ⟨rfl, ?_⟩
    dsimp only at hwrites ⊢
    split_ifs at hwrites ⊢
    · rw [hread rfl, Option.bind_some, hwrite rfl] at hwrites
      exact (Option.some.inj hwrites).symm
    · exact (Option.some.inj hwrites).symm
  | jb | jnb | cjneB5 =>
    rw [hread rfl] at hreads
    obtain ⟨rfl, hrest⟩ := Prod.mk.inj (Option.some.inj hreads)
    obtain ⟨rfl, rfl⟩ := Prod.mk.inj hrest
    exact ⟨rfl, (Option.some.inj hwrites).symm⟩
  | djnzI =>
    rw [hread rfl] at hreads
    obtain ⟨rfl, hrest⟩ := Prod.mk.inj (Option.some.inj hreads)
    obtain ⟨rfl, rfl⟩ := Prod.mk.inj hrest
    refine ⟨rfl, ?_⟩
    dsimp only at hwrites
    rw [hwrite rfl] at hwrites
    exact (Option.some.inj hwrites).symm
  | _ =>
    obtain ⟨-, hrest⟩ := Prod.mk.inj (Option.some.inj hreads)
    obtain ⟨-, rfl⟩ := Prod.mk.inj hrest
    exact ⟨rfl, (Option.some.inj hwrites).symm⟩

/-- An instruction that does not go to an address of its own advances `pc` by its length in the
table, or is a relative branch. A branch whose operand is not trapped stores in one cell at most and
changes nothing else. -/
theorem exec_flow (script : Script σ) {m m' : Machine σ}
    (hgoes : (insnmap (m.fetch 0)).goesTo = false) (h : m.exec script = some m') :
    ((insnmap (m.fetch 0)).branch = none →
      m'.pc = m.pc + BitVec.ofNat 16 (insnBytes (m.fetch 0))) ∧
    ∀ b, (insnmap (m.fetch 0)).branch = some b → BranchTo script (m.fetch 0) b m m' ∧
      ((∀ a, b.direct m = some a → m.ramsfrtrap a = false) →
        ∃ x y, b.reads script (m.fetch 0) m = some (x, y, m) ∧
          m' = (m.storeAt (b.stores (m.fetch 0) m x y)).setPc (Branch.target (m.fetch 0) m
            (b.holds x y) (m.fetch (BitVec.ofNat 16 (insnBytes (m.fetch 0) - 1))))) := by
  refine ⟨fun hnone => dispatch_pc hgoes hnone h, fun b hb => ?_⟩
  have hto := dispatch_branch hb h
  refine ⟨hto, fun ht => ?_⟩
  obtain ⟨x, y, m₁, m₂, hreads, hwrites, rfl⟩ := hto
  obtain ⟨rfl, rfl⟩ := branch_untrapped ht hreads hwrites
  refine ⟨x, y, hreads, ?_⟩
  unfold Branch.lastByte
  cases b <;> rfl

/-- The theorem for `DJNZ 30H, -3` with a zero at `30H`. -/
theorem exec_flow_djnz : ∃ m' : Machine Unit,
    BranchTo noHooks 0xd5 .djnzI (running [0xd5, 0x30, 0xfd]) m' ∧ m'.pc = 0 := by
  have heval : ((running [0xd5, 0x30, 0xfd]).exec noHooks).map pc = some 0 := by decide +kernel
  obtain ⟨m', hm', hpc⟩ := Option.map_eq_some_iff.1 heval
  have hop : (running [0xd5, 0x30, 0xfd]).fetch 0 = 0xd5 := by decide +kernel
  have hflow := ((exec_flow noHooks (by decide +kernel) hm').2 .djnzI (by decide +kernel)).1
  rw [hop] at hflow
  exact ⟨m', hflow, hpc⟩

end Machine
end Emu51

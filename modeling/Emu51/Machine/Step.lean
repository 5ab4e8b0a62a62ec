import Emu51.Machine.Ops.Move

/-!
# One instruction

`gen.c` turns the records of `ops.txt` and `genops.py` into the dispatch table `insnmap` and one
labelled block of code a record. This file has the labels, the table and `nextop`, and puts them
together to one step of `run_8051`.

Two records of `ops.txt` never reach the table: `subb_94` and `subb_95` are overwritten by the
records `genops.py` generates for the same opcodes.
-/

namespace Emu51

/-- The labels of the generated code: the names of the records. -/
inductive Label where
  | nop | undef | ljmp | incA | decA | sjmp | lcall | acall | jbc | jb | jnb | jc | jnc | jz | jnz
  | ret | reti | ajmp | incIram | incR | incAtr0 | incAtr1 | decAtr0 | decAtr1 | decIram | decR
  | rrA | rrcA | rlA | rlcA | jmpAd
  | mov74 | mov75 | mov76 | mov77 | movRi | movc83 | mov85 | mov86 | mov87 | movDr | mov90
  | movBitC | movCBit | movA6 | movA7 | movcAd | incD | movRd | cplBit | cplC
  | cjneA | cjneB5 | cjneB6 | cjneB7 | cjneR | pushD | clrB | clrC | swapA
  | xchAd | xchC6 | xchC7 | xchAr | popD | setB | setbC | daA | djnzI | xchdAtr0 | xchdAtr1 | djnzR
  | movxE0 | movxE2 | movxE3 | clrA | movE5 | movE6 | movE7 | movAr | movxF0 | movxF2 | movxF3
  | cplA | movF5 | movF6 | movF7 | movRa | mul | div | anlCbit | anlCnbit | orlCbit | orlCnbit
  | genAi (o : AluOp) | genAd (o : AluOp) | genR0 (o : AluOp) | genR1 (o : AluOp)
  | genAr (o : AluOp) | gen2Ia (o : AluOp) | gen2Id (o : AluOp)
  deriving DecidableEq

namespace Label

/-- The record behind a label. The opcode matters to the records that stand for several. -/
def record (l : Label) (op : Byte) : OpRec :=
  match l with
  | nop => Ops.nop
  | undef => Ops.undef
  | ljmp => Ops.ljmp
  | incA => Ops.incA
  | decA => Ops.decA
  | sjmp => Ops.sjmp
  | lcall => Ops.lcall
  | acall => Ops.acall
  | jbc => Ops.jbc
  | jb => Ops.jb
  | jnb => Ops.jnb
  | jc => Ops.jc
  | jnc => Ops.jnc
  | jz => Ops.jz
  | jnz => Ops.jnz
  | ret => Ops.ret
  | reti => Ops.reti
  | ajmp => Ops.ajmp op
  | incIram => Ops.incIram
  | incR => Ops.incR op
  | incAtr0 => Ops.incAtr0
  | incAtr1 => Ops.incAtr1
  | decAtr0 => Ops.decAtr0
  | decAtr1 => Ops.decAtr1
  | decIram => Ops.decIram
  | decR => Ops.decR op
  | rrA => Ops.rrA
  | rrcA => Ops.rrcA
  | rlA => Ops.rlA
  | rlcA => Ops.rlcA
  | jmpAd => Ops.jmpAd
  | mov74 => Ops.mov74
  | mov75 => Ops.mov75
  | mov76 => Ops.mov76
  | mov77 => Ops.mov77
  | movRi => Ops.movRi op
  | movc83 => Ops.movc83
  | mov85 => Ops.mov85
  | mov86 => Ops.mov86
  | mov87 => Ops.mov87
  | movDr => Ops.movDr op
  | mov90 => Ops.mov90
  | movBitC => Ops.movBitC
  | movCBit => Ops.movCBit
  | movA6 => Ops.movA6
  | movA7 => Ops.movA7
  | movcAd => Ops.movcAd
  | incD => Ops.incD
  | movRd => Ops.movRd op
  | cplBit => Ops.cplBit
  | cplC => Ops.cplC
  | cjneA => Ops.cjneA
  | cjneB5 => Ops.cjneB5
  | cjneB6 => Ops.cjneB6
  | cjneB7 => Ops.cjneB7
  | cjneR => Ops.cjneR op
  | pushD => Ops.pushD
  | clrB => Ops.clrB
  | clrC => Ops.clrC
  | swapA => Ops.swapA
  | xchAd => Ops.xchAd
  | xchC6 => Ops.xchC6
  | xchC7 => Ops.xchC7
  | xchAr => Ops.xchAr op
  | popD => Ops.popD
  | setB => Ops.setB
  | setbC => Ops.setbC
  | daA => Ops.daA
  | djnzI => Ops.djnzI
  | xchdAtr0 => Ops.xchdAtr0
  | xchdAtr1 => Ops.xchdAtr1
  | djnzR => Ops.djnzR op
  | movxE0 => Ops.movxE0
  | movxE2 => Ops.movxE2
  | movxE3 => Ops.movxE3
  | clrA => Ops.clrA
  | movE5 => Ops.movE5
  | movE6 => Ops.movE6
  | movE7 => Ops.movE7
  | movAr => Ops.movAr op
  | movxF0 => Ops.movxF0
  | movxF2 => Ops.movxF2
  | movxF3 => Ops.movxF3
  | cplA => Ops.cplA
  | movF5 => Ops.movF5
  | movF6 => Ops.movF6
  | movF7 => Ops.movF7
  | movRa => Ops.movRa op
  | mul => Ops.mul
  | div => Ops.div
  | anlCbit => Ops.anlCbit
  | anlCnbit => Ops.anlCnbit
  | orlCbit => Ops.orlCbit
  | orlCnbit => Ops.orlCnbit
  | genAi o => Ops.genAi o
  | genAd o => Ops.genAd o
  | genR0 o => Ops.genRi o 0
  | genR1 o => Ops.genRi o 1
  | genAr o => Ops.genAr o op
  | gen2Ia o => Ops.gen2Ia o
  | gen2Id o => Ops.gen2Id o

/-- A row of eight entries of the table that share a label. -/
def row8 (l : Label) : List Label := List.replicate 8 l

/-- The sixteen entries `genops.py` fills for one operation, twelve of them. -/
def genRow (o : AluOp) : List Label := [genAi o, genAd o, genR0 o, genR1 o] ++ row8 (genAr o)

end Label

open Label in
/-- The table `insnmap` that `gen` emits, sixteen entries a row. -/
def insnmapTable : List Label := List.flatten
  [ [nop, ajmp, ljmp, rrA, incA, incIram, incAtr0, incAtr1], row8 incR,
    [jbc, acall, lcall, rrcA, decA, decIram, decAtr0, decAtr1], row8 decR,
    [jb, ajmp, ret, rlA], genRow .add,
    [jnb, acall, reti, rlcA], genRow .addc,
    [jc, ajmp, gen2Ia .orl, gen2Id .orl], genRow .orl,
    [jnc, acall, gen2Ia .anl, gen2Id .anl], genRow .anl,
    [jz, ajmp, gen2Ia .xrl, gen2Id .xrl], genRow .xrl,
    [jnz, acall, orlCbit, jmpAd, mov74, mov75, mov76, mov77], row8 movRi,
    [sjmp, ajmp, anlCbit, movc83, div, mov85, mov86, mov87], row8 movDr,
    [mov90, acall, movBitC, movcAd], genRow .subb,
    [orlCnbit, ajmp, movCBit, incD, mul, undef, movA6, movA7], row8 movRd,
    [anlCnbit, acall, cplBit, cplC, cjneA, cjneB5, cjneB6, cjneB7], row8 cjneR,
    [pushD, ajmp, clrB, clrC, swapA, xchAd, xchC6, xchC7], row8 xchAr,
    [popD, acall, setB, setbC, daA, djnzI, xchdAtr0, xchdAtr1], row8 djnzR,
    [movxE0, ajmp, movxE2, movxE3, clrA, movE5, movE6, movE7], row8 movAr,
    [movxF0, acall, movxF2, movxF3, cplA, movF5, movF6, movF7], row8 movRa ]

/-- `insnmap[op]`. -/
def insnmap (op : Byte) : Label := insnmapTable.getD op.toNat .nop

/-- The table has an entry for every opcode, so `insnmap` never takes the default. -/
example : insnmapTable.length = 256 := by decide +kernel

/-- The code `goto *insnmap[op]` executes, up to the next `FETCH`. -/
def insn (op : Byte) : Cpu Unit := ((insnmap op).record op).emit

/-! ## The instruction loop -/

/-- `handle_breakpoint` of `main.c`. Two of the bytes it reads are only printed. -/
def handleBreakpoint (fullPc : BitVec 32) : Cpu Unit :=
  if fullPc ≠ 0x261f5 then Cpu.setBreakpoint 0xffffff 0x261f5
  else do
    let sp ← Cpu.readd SP
    let addrh ← Cpu.readi sp
    let addrl ← Cpu.readi (sp - 1)
    let _ ← Cpu.readi 0x79
    let _ ← Cpu.readi 0x7a
    let _ ← Cpu.readd DPL0
    Cpu.setBreakpoint 0xffff ((word addrh addrl).setWidth 32)

/-- What `handle_breakpoint` does: read registers and internal RAM, and move the breakpoint. -/
lemma handleBreakpoint_all {Q : CpuOp → Prop} (hreadd : ∀ a, Q (.readd a))
    (hreadi : ∀ a, Q (.readi a))
    (hset : ∀ mask val, Q (.setBreakpoint mask val)) (fullPc : BitVec 32) :
    (handleBreakpoint fullPc).All Q := by
  unfold handleBreakpoint
  split_ifs
  · exact ⟨hset _ _, fun _ => trivial⟩
  · exact ⟨hreadd _, fun _ => ⟨hreadi _, fun _ => ⟨hreadi _, fun _ => ⟨hreadi _, fun _ => ⟨hreadi _,
      fun _ => ⟨hreadd _, fun _ => ⟨hset _ _, fun _ => trivial⟩⟩⟩⟩⟩⟩⟩

namespace Machine

variable {σ : Type}

/-- The breakpoint address `pc + (pcx << 16)`. -/
def fullPc (m : Machine σ) : BitVec 32 := m.pc.setWidth 32 + (m.pcx.setWidth 32 <<< 16)

/-- `nextop` after the look at the interrupts: fetch the opcode, look for a breakpoint. -/
def fetchOp (script : Script σ) (m : Machine σ) : Option (Byte × Machine σ) :=
  let op := m.fetch 0
  if m.fullPc &&& m.bpmask = m.bpval then
    ((handleBreakpoint m.fullPc).run (cpuExec script) m).map fun y => (op, y.2)
  else some (op, m)

/-- `nextop`. -/
def nextop (script : Script σ) (m : Machine σ) : Option (Byte × Machine σ) :=
  fetchOp script m.pollIrq

/-- The execution of one opcode. -/
def dispatch (script : Script σ) (op : Byte) (m : Machine σ) : Option (Machine σ) :=
  ((insn op).run (cpuExec script) m).map fun y => y.2

/-- The instruction at `pc`, without what `nextop` does in front of it. -/
def exec (script : Script σ) (m : Machine σ) : Option (Machine σ) := dispatch script (m.fetch 0) m

/-- One round of `run_8051`. -/
def step (script : Script σ) (m : Machine σ) : Option (Machine σ) :=
  (nextop script m).bind fun y => dispatch script y.1 y.2

/-- A round that succeeds has fetched an opcode and then performed it. -/
lemma step_eq_some {script : Script σ} {m m' : Machine σ} (h : m.step script = some m') :
    ∃ op m₁, nextop script m = some (op, m₁) ∧ dispatch script op m₁ = some m' := by
  obtain ⟨⟨op, m₁⟩, hnext, hexec⟩ := Option.bind_eq_some_iff.1 h
  exact ⟨op, m₁, hnext, hexec⟩

/-- Where `SP` and `DPL` are ordinary cells, `handle_breakpoint` only moves the breakpoint. -/
lemma run_handleBreakpoint (script : Script σ) {m : Machine σ} (hsp : m.ramsfrtrap SP = false)
    (hdpl : m.ramsfrtrap DPL0 = false) (fullPc : BitVec 32) : ∃ mask val,
      (handleBreakpoint fullPc).run (cpuExec script) m = some ((), m.setBreakpoint mask val) := by
  unfold handleBreakpoint
  split_ifs
  · exact ⟨_, _, Cpu.run_setBreakpoint _ _⟩
  · refine ⟨0xffff, (word (m.readi (m.sfr SP)) (m.readi (m.sfr SP - 1))).setWidth 32, ?_⟩
    simp only [Prog.run_bind, Cpu.run_readi, Option.bind_some, Cpu.run_readd,
      readd_of_untrapped hsp, readd_of_untrapped hdpl, Cpu.run_setBreakpoint]

/-- With the trap table of `sfr_init`, `nextop` takes an interrupt and may move the breakpoint. -/
lemma nextop_eq (script : Script σ) {m : Machine σ} (ht : m.ramsfrtrap = sfrInitTrap) :
    ∃ mask val, nextop script m = some (m.pollIrq.fetch 0, m.pollIrq.setBreakpoint mask val) := by
  have htrap : m.pollIrq.ramsfrtrap = sfrInitTrap := by
    obtain ⟨l, hl | ⟨x, y, w, hl⟩⟩ := m.pollIrq_eq <;> rw [hl] <;> exact ht
  have hsp : m.pollIrq.ramsfrtrap SP = false := (congrFun htrap SP).trans (by decide)
  have hdpl : m.pollIrq.ramsfrtrap DPL0 = false := (congrFun htrap DPL0).trans (by decide)
  unfold nextop fetchOp
  dsimp only
  split_ifs
  · obtain ⟨mask, val, hrun⟩ := run_handleBreakpoint script hsp hdpl m.pollIrq.fullPc
    exact ⟨mask, val, by rw [hrun, Option.map_some]⟩
  · exact ⟨m.pollIrq.bpmask, m.pollIrq.bpval, rfl⟩

/-- An opcode does what the code of its record does, and then `pc` advances. -/
lemma dispatch_eq (script : Script σ) {op : Byte} {l : Label} (hl : insnmap op = l)
    (m : Machine σ) :
    dispatch script op m = ((l.record op).code.run (cpuExec script) m).map fun y =>
      y.2.setPc (y.2.pc + BitVec.ofNat 16 (l.record op).bytes) := by
  unfold dispatch insn OpRec.emit
  rw [hl, Prog.run_bind]
  cases (l.record op).code.run (cpuExec script) m with
  | none => rfl
  | some y =>
    rw [Option.bind_some, Option.map_some]
    split_ifs with hbytes
    · rfl
    · rw [not_not.1 hbytes]
      exact congrArg some (setPc_eq_self (BitVec.add_zero y.2.pc)).symm

/-- The same for code that is known to succeed. -/
lemma dispatch_of_run {script : Script σ} {op : Byte} {l : Label} {m m' : Machine σ}
    (hl : insnmap op = l) (hrun : (l.record op).code.run (cpuExec script) m = some ((), m')) :
    dispatch script op m = some (m'.setPc (m'.pc + BitVec.ofNat 16 (l.record op).bytes)) := by
  rw [dispatch_eq script hl, hrun, Option.map_some]

/-- What the code behind an opcode establishes holds after its execution. -/
lemma dispatch_of_wp {script : Script σ} {op : Byte} {m m' : Machine σ} {P : Machine σ → Prop}
    (hP : (insn op).wp (cpuExec script) (fun _ _ => P) m) (h : dispatch script op m = some m') :
    P m' := by
  obtain ⟨y, hy, rfl⟩ := Option.map_eq_some_iff.1 h
  exact hP y.1 y.2 hy

/-- The opcode is the one at `pc`, and what every operation of `handle_breakpoint` preserves still
holds. -/
lemma fetchOp_invariant {script : Script σ} {I : Machine σ → Prop} {D : CpuOp → Prop}
    (hI : ∀ (o : CpuOp) m r m', D o → I m → cpuExec script o m = some (r, m') → I m')
    (hD : ∀ w, (handleBreakpoint w).All D) {m m' : Machine σ} {op : Byte} (hm : I m)
    (h : fetchOp script m = some (op, m')) : op = m.fetch 0 ∧ I m' := by
  unfold fetchOp at h
  dsimp only at h
  split_ifs at h
  · obtain ⟨⟨u, m₂⟩, hy, heq⟩ := Option.map_eq_some_iff.1 h
    obtain ⟨rfl, rfl⟩ := Prod.mk.inj heq
    exact ⟨rfl, (hD _).run_invariant (h := cpuExec script)
      (fun o s r s' ho hs he => hI o s r s' ho hs he) hm hy⟩
  · obtain ⟨rfl, rfl⟩ := Prod.mk.inj (Option.some.inj h)
    exact ⟨rfl, hm⟩

/-- What every operation preserves, the code behind an opcode preserves. -/
lemma dispatch_invariant {script : Script σ} {I : Machine σ → Prop}
    (hI : ∀ (o : CpuOp) m r m', I m → cpuExec script o m = some (r, m') → I m') {op : Byte}
    {m m' : Machine σ} (hm : I m) (h : dispatch script op m = some m') : I m' := by
  obtain ⟨⟨u, m₂⟩, hy, rfl⟩ := Option.map_eq_some_iff.1 h
  exact Prog.run_invariant (h := cpuExec script) (Q := fun _ => True)
    (fun o s r s' _ hs he => hI o s r s' hs he) (fun _ _ => trivial) hm hy

end Machine

end Emu51

import Emu51.Firmware.Assembly

/-!
# Assembled instructions

The bytes of an assembled instruction are executed by a record of the emulator's tables. For an
instruction that leaves the stack alone the record does to a view what the instruction means in the
listing (`View.executes`).
-/

namespace Emu51

variable {σ : Type}

/-! ## Code in memory -/

/-- An instruction is encoded in as many bytes as its size says. -/
lemma Insn.length_encode {addr : ℕ → Word} {next : Word} {i : Insn ℕ} {bs : List Byte}
    (h : i.encode addr next = some bs) : bs.length = i.size := by
  unfold Insn.encode at h
  -- an instruction has an encoding, or one if the offset or the page fits
  split at h
  all_goals first
    | obtain rfl := Option.some.inj h
      rfl
    | obtain ⟨d, -, rfl⟩ := Option.map_eq_some_iff.1 h
      rfl
    | obtain ⟨-, heq⟩ := Option.ite_none_right_eq_some.1 h
      obtain rfl := Option.some.inj heq
      rfl

/-- The bytes of one instruction among those of all. -/
lemma assembleFrom_getElem {addr : ℕ → Word} {a : Word} {is : List (Insn ℕ)} {bs : List Byte}
    (h : assembleFrom addr a is = some bs) {p : ℕ} {i : Insn ℕ} (hi : is[p]? = some i) :
    ∃ bs', i.encode addr (a + BitVec.ofNat 16 ((is.take (p + 1)).map Insn.size).sum) = some bs' ∧
      ∀ k (hk : k < bs'.length), bs[((is.take p).map Insn.size).sum + k]? = some bs'[k] := by
  induction is generalizing a bs p with
  | nil => exact absurd hi (by simp)
  | cons j is ih =>
    obtain ⟨bs₁, hfirst, hrest⟩ := Option.bind_eq_some_iff.1 h
    obtain ⟨bs₂, hbs₂, rfl⟩ := Option.map_eq_some_iff.1 hrest
    cases p with
    | zero =>
      obtain rfl : j = i := by simpa using hi
      refine ⟨bs₁, by simpa using hfirst, fun k hk => ?_⟩
      simp [List.getElem?_append_left hk, List.getElem?_eq_getElem hk]
    | succ p =>
      obtain ⟨bs', henc, hget⟩ := ih hbs₂ (by simpa using hi)
      refine ⟨bs', ?_, fun k hk => ?_⟩
      · rw [← henc, List.take_succ_cons, List.map_cons, List.sum_cons, BitVec.ofNat_add,
          BitVec.add_assoc]
      · have hskip : bs₁.length ≤ j.size + (((is.take p).map Insn.size).sum + k) := by
          rw [Insn.length_encode hfirst]
          exact Nat.le_add_right _ _
        rw [List.take_succ_cons, List.map_cons, List.sum_cons, Nat.add_assoc,
          List.getElem?_append_right hskip, Insn.length_encode hfirst, Nat.add_sub_cancel_left]
        exact hget k hk

/-- The bytes are in memory from the address on. -/
def BytesAt (readc : Word → Byte) (w : Word) (bs : List Byte) : Prop :=
  ∀ k (hk : k < bs.length), readc (w + BitVec.ofNat 16 k) = bs[k]

namespace BytesAt

variable {readc : Word → Byte} {w : Word} {x y z : Byte} {bs bs' : List Byte}

/-- The first byte of the code is at the address where the code lies. -/
lemma zero (h : BytesAt readc w (x :: bs)) : readc w = x := by
  have hx := h 0 (Nat.zero_lt_succ _)
  rwa [show w + BitVec.ofNat 16 0 = w from BitVec.add_zero w] at hx

/-- The second byte of the code is at the next address. -/
lemma one (h : BytesAt readc w (x :: y :: bs)) : readc (w + 1) = y := h 1 (by simp)

/-- The third byte of the code is two addresses on. -/
lemma two (h : BytesAt readc w (x :: y :: z :: bs)) : readc (w + 2) = z := h 2 (by simp)

/-- The first byte is at the address and the others lie from the next one on. -/
lemma cons (h : BytesAt readc w (x :: bs)) : readc w = x ∧ BytesAt readc (w + 1) bs := by
  refine ⟨h.zero, fun k hk => ?_⟩
  have hnext := h (k + 1) (Nat.succ_lt_succ hk)
  rw [BitVec.ofNat_add, BitVec.add_comm (BitVec.ofNat 16 k), ← BitVec.add_assoc] at hnext
  exact hnext

/-- Of two pieces one after the other, the second lies where the first ends. -/
lemma append (h : BytesAt readc w (bs ++ bs')) :
    BytesAt readc w bs ∧ BytesAt readc (w + BitVec.ofNat 16 bs.length) bs' := by
  constructor
  · intro k hk
    rw [h k (by rw [List.length_append]; omega), List.getElem_append_left hk]
  · intro k hk
    rw [BitVec.add_assoc, ← BitVec.ofNat_add, h _ (by rw [List.length_append]; omega),
      List.getElem_append_right (Nat.le_add_right ..)]
    congr 1
    omega

end BytesAt

/-- What the memory holds at a position of the code. -/
lemma Loaded.at {readc : Word → Byte} {code : List (Insn ℕ)} {base : Word}
    (h : Loaded readc code base) {p : ℕ} {i : Insn ℕ} (hi : code[p]? = some i) :
    ∃ bs, i.encode (codeAddr code base) (codeAddr code base (p + 1)) = some bs ∧
      BytesAt readc (codeAddr code base p) bs := by
  obtain ⟨bs, hbs, hread⟩ := h
  obtain ⟨bs', henc, hget⟩ := assembleFrom_getElem hbs hi
  refine ⟨bs', henc, fun k hk => ?_⟩
  obtain ⟨hlt, heq⟩ := List.getElem?_eq_some_iff.1 (hget k hk)
  rw [codeAddr, BitVec.add_assoc, ← BitVec.ofNat_add, hread _ hlt, heq]

/-- The next instruction comes after the bytes of this one. -/
lemma codeAddr_succ {code : List (Insn ℕ)} (base : Word) {p : ℕ} {i : Insn ℕ}
    (hi : code[p]? = some i) :
    codeAddr code base (p + 1) = codeAddr code base p + BitVec.ofNat 16 i.size := by
  rw [codeAddr, codeAddr, List.take_add_one, hi, List.map_append, List.sum_append, BitVec.ofNat_add,
    BitVec.add_assoc]
  simp

/-! ## Operations on views -/

namespace View

variable {e : Scope σ} {v : View σ} {l : Label}

section Rules

@[simp] lemma run_fetch (ofs : Word) :
    (Cpu.fetch ofs).run (viewExec e) v = some (e.readc (v.pc + ofs), v) := rfl

/-- Code reads a register of its view by the register's direct address. -/
lemma run_readd {a x : Byte} (h : v.regs.read e.dev a = some x) :
    (Cpu.readd a).run (viewExec e) v = some (x, v) := by
  have hop : (Cpu.readd a).run (viewExec e) v = (v.regs.read e.dev a).map fun x => (x, v) :=
    Prog.run_op _ _
  rw [hop, h, Option.map_some]

/-- Code writes a register of its view by the register's direct address. -/
lemma run_writed {a x : Byte} {s : Regs σ} (h : v.regs.write e.dev a x = some s) :
    (Cpu.writed a x).run (viewExec e) v = some ((), { v with regs := s }) := by
  have hop : (Cpu.writed a x).run (viewExec e) v =
      (v.regs.write e.dev a x).map fun s => ((), { v with regs := s }) := Prog.run_op _ _
  rw [hop, h, Option.map_some]

/-- Code reads the internal memory that it owns, and the view does not change. -/
lemma run_readi {a : Byte} (h : e.Owns a) :
    (Cpu.readi a).run (viewExec e) v = some (v.cells a, v) :=
  (Prog.run_op (h := viewExec e) _ v).trans (if_pos h)

/-- Code writes the internal memory it owns, and nothing else moves. -/
lemma run_writei {a : Byte} (h : e.Owns a) (x : Byte) : (Cpu.writei a x).run (viewExec e) v =
    some ((), { v with cells := Function.update v.cells a x }) :=
  (Prog.run_op (h := viewExec e) _ v).trans (if_pos h)

/-- Where the window stays, code reads `R0` to `R7`. -/
lemma run_getRx (h : e.window = true) (n : BitVec 3) :
    (Cpu.getRx n).run (viewExec e) v = some (v.regs.r n, v) :=
  (Prog.run_op (h := viewExec e) _ v).trans (if_pos h)

/-- Where the window stays, code writes `R0` to `R7`. -/
lemma run_setRx {s : Regs σ} {n : BitVec 3} {x : Byte} (h : v.regs.setReg e n x = some s) :
    (Cpu.setRx n x).run (viewExec e) v = some ((), { v with regs := s }) := by
  obtain ⟨hw, heq⟩ := Option.ite_none_right_eq_some.1 h
  obtain rfl := Option.some.inj heq
  exact (Prog.run_op (h := viewExec e) _ v).trans (if_pos hw)

@[simp] lemma run_get_acc : (Cpu.get .acc).run (viewExec e) v = some (v.regs.acc, v) := rfl

@[simp] lemma run_get_sp : (Cpu.get .sp).run (viewExec e) v = some (v.sp, v) := rfl

@[simp] lemma run_set_acc (x : Byte) :
    (Cpu.set .acc x).run (viewExec e) v = some ((), { v with regs.acc := x }) := rfl

@[simp] lemma run_set_sp (x : Byte) :
    (Cpu.set .sp x).run (viewExec e) v = some ((), { v with sp := x }) := rfl

@[simp] lemma run_getPc : Cpu.getPc.run (viewExec e) v = some (v.pc, v) := rfl

@[simp] lemma run_setPc (w : Word) :
    (Cpu.setPc w).run (viewExec e) v = some ((), { v with pc := w }) := rfl

@[simp] lemma run_advance (n : Word) :
    (Cpu.advance n).run (viewExec e) v = some ((), { v with pc := v.pc + n }) := rfl

@[simp] lemma run_branch (ofs : Byte) : (Cpu.branch ofs).run (viewExec e) v =
    some ((), { v with pc := v.pc + ofs.signExtend 16 }) := rfl

@[simp] lemma run_alu (f : Byte → Byte → Byte → Byte × Byte) (x y : Byte) :
    (Cpu.alu f x y).run (viewExec e) v =
      some ((f x y v.regs.psw).1, { v with regs.psw := (f x y v.regs.psw).2 }) := rfl

@[simp] lemma run_aluOp (o : AluOp) (x y : Byte) : (Cpu.aluOp o x y).run (viewExec e) v =
    some ((o.apply x y v.regs.psw).1, { v with regs.psw := (o.apply x y v.regs.psw).2 }) := by
  cases o <;> rfl

end Rules

/-- An opcode does what the code of its record does, and then `pc` advances. -/
lemma step_of_run {t : View σ} {op : Byte} {w : Word} (hop : e.readc v.pc = op)
    (hl : insnmap op = l) (hrun : (l.record op).code.run (viewExec e) v = some ((), t))
    (hpc : t.pc + BitVec.ofNat 16 (l.record op).bytes = w) :
    step e v = some { t with pc := w } := by
  unfold step insn OpRec.emit
  rw [hop, hl, Prog.run_bind, hrun, Option.bind_some, ← hpc]
  split_ifs with hbytes
  · rfl
  · rw [not_not.1 hbytes, show t.pc + BitVec.ofNat 16 0 = t.pc from BitVec.add_zero t.pc]
    rfl

/-- The same for a record that only moves `pc`, whose length is not added then. -/
lemma step_of_jump {op : Byte} {w w' : Word} (hop : e.readc v.pc = op) (hl : insnmap op = l)
    (hbytes : (l.record op).bytes = 0)
    (hrun : (l.record op).code.run (viewExec e) v = some ((), { v with pc := w })) (hw : w = w') :
    step e v = some { v with pc := w' } := by
  refine step_of_run (t := { v with pc := w }) hop hl hrun ?_
  rw [hbytes, ← hw]
  exact BitVec.add_zero w

/-! ## Records -/

section Records

variable {x : Cpu Byte} {y d : Byte} {s : Regs σ} {n : ℕ}

/-- A direct operand is the register that the second byte names. -/
lemma run_direct1 (hd : e.readc (v.pc + 1) = d) (hy : v.regs.read e.dev d = some y) :
    Ops.direct1.run (viewExec e) v = some (y, v) := by
  simp only [Ops.direct1, Prog.run_bind, run_fetch, Option.bind_some, hd, run_readd hy]

/-- A move to the accumulator changes the accumulator only. -/
lemma run_toAcc (hx : x.run (viewExec e) v = some (y, v)) :
    (Ops.toAcc x n).code.run (viewExec e) v = some ((), { v with regs.acc := y }) := by
  simp only [Ops.toAcc, Prog.run_bind, hx, Option.bind_some, run_set_acc]

/-- A move to a direct address writes the register that the second byte names. -/
lemma run_toIram (hd : e.readc (v.pc + 1) = d) (hx : x.run (viewExec e) v = some (y, v))
    (hs : v.regs.write e.dev d y = some s) :
    (Ops.toIram x n).code.run (viewExec e) v = some ((), { v with regs := s }) := by
  simp only [Ops.toIram, Prog.run_bind, run_fetch, Option.bind_some, hd, hx, run_writed hs]

/-- A move to a register writes the register that the opcode selects. -/
lemma run_toR {op : Byte} {i : BitVec 3} (hop : op.setWidth 3 = i)
    (hx : x.run (viewExec e) v = some (y, v)) (hs : v.regs.setReg e i y = some s) :
    (Ops.toR op x n).code.run (viewExec e) v = some ((), { v with regs := s }) := by
  simp only [Ops.toR, Prog.run_bind, hx, Option.bind_some, hop, run_setRx hs]

/-- A record that applies an operation of the arithmetic unit to the accumulator and an operand. -/
lemma run_alu_operand (o : AluOp) (hx : x.run (viewExec e) v = some (y, v)) :
    (do
      let acc ← Cpu.get .acc
      let z ← x
      let res ← Cpu.aluOp o acc z
      Cpu.set .acc res : Cpu Unit).run (viewExec e) v =
    some ((), { v with regs :=
      { v.regs with
        acc := (o.apply v.regs.acc y v.regs.psw).1
        psw := (o.apply v.regs.acc y v.regs.psw).2 } }) := by
  simp only [Prog.run_bind, run_get_acc, Option.bind_some, hx, run_aluOp, run_set_acc]

/-- A record that branches on a register of the view adds the offset exactly if the condition holds.
-/
lemma run_branchOn (r : CoreReg) (cond : Byte → Bool) (hd : e.readc (v.pc + 1) = d)
    (hr : ∀ w, (Cpu.get r).run (viewExec e) { v with pc := w } = some (y, { v with pc := w })) :
    (Ops.branchOn r cond).code.run (viewExec e) v =
      some ((), { v with pc := v.pc + 2 + if cond y then d.signExtend 16 else 0 }) := by
  simp only [Ops.branchOn, Prog.run_bind, run_fetch, run_advance, Option.bind_some, hd, hr]
  split_ifs
  · rfl
  · rw [show v.pc + 2 + 0 = v.pc + 2 from BitVec.add_zero _]
    rfl

/-- A record that branches on a bit of a register adds the offset exactly if the condition holds. -/
lemma run_branch_bit {bit : Byte} {c : Byte → Prop} [DecidablePred c]
    (hbit : e.readc (v.pc + 1) = bit) (hd : e.readc (v.pc + 2) = d)
    (hy : v.regs.bitByte e bit = some y) :
    (do
      let bit ← Cpu.fetch 1
      let ofs ← Cpu.fetch 2
      Cpu.advance 3
      let x ← Cpu.readd (Cpu.bitaddr bit)
      if c (x &&& Cpu.bitMask bit) then Cpu.branch ofs else pure () : Cpu Unit).run (viewExec e) v =
    some ((), { v with
      pc := v.pc + 3 + if c (y &&& Cpu.bitMask bit) then d.signExtend 16 else 0 }) := by
  have hread : (Cpu.readd (Cpu.bitaddr bit)).run (viewExec e) { v with pc := v.pc + 3 } =
      some (y, { v with pc := v.pc + 3 }) := run_readd hy
  simp only [Prog.run_bind, run_fetch, run_advance, Option.bind_some, hbit, hd, hread]
  split_ifs
  · rfl
  · rw [show v.pc + 3 + 0 = v.pc + 3 from BitVec.add_zero _]
    rfl

/-- `CJNE A, #imm, rel` compares, sets the carry and branches if the two differ. -/
lemma run_cjneA (hy : e.readc (v.pc + 1) = y) (hd : e.readc (v.pc + 2) = d) :
    Ops.cjneA.code.run (viewExec e) v = some ((), { v with
      regs := { v.regs with psw := (aluCmp v.regs.acc y v.regs.psw).2 }
      pc := v.pc + if (aluCmp v.regs.acc y v.regs.psw).1 ≠ 0 then d.signExtend 16 else 0 }) := by
  simp only [Ops.cjneA, Ops.cjne, Prog.run_bind, run_get_acc, run_fetch, run_alu, Option.bind_some,
    hy]
  split_ifs
  · simp only [Prog.run_bind, run_fetch, run_branch, Option.bind_some, hd]
  · rw [show v.pc + 0 = v.pc from BitVec.add_zero _]
    rfl

/-- `DJNZ Rn, rel` counts the register down and branches if it is not 0. -/
lemma run_djnzR {op : Byte} {i : BitVec 3} (hop : op.setWidth 3 = i)
    (hd : e.readc (v.pc + 1) = d) (hs : v.regs.setReg e i (v.regs.r i - 1) = some s) :
    (Ops.djnzR op).code.run (viewExec e) v = some ((), { v with
      regs := s
      pc := v.pc + if v.regs.r i - 1 ≠ 0 then d.signExtend 16 else 0 }) := by
  have hw : e.window = true := (Option.ite_none_right_eq_some.1 hs).1
  simp only [Ops.djnzR, Prog.run_bind, run_fetch, Option.bind_some, hop, run_getRx hw, hd,
    run_setRx hs]
  split_ifs
  · rfl
  · rw [show v.pc + 0 = v.pc from BitVec.add_zero _]
    rfl

end Records

/-! ## Instructions -/

/-- A relative offset, added to the address behind the instruction, leads to its target. -/
lemma add_relOffset {target next : Word} {d : Byte} (h : relOffset target next = some d) :
    next + d.signExtend 16 = target := by
  obtain ⟨htarget, heq⟩ := Option.ite_none_right_eq_some.1 h
  obtain rfl := Option.some.inj heq
  exact htarget

/-- The opcodes that have the number of a register in them. -/
lemma insnmap_regOp (n : BitVec 3) :
    insnmap (regOp 0xe8 n) = .movAr ∧ insnmap (regOp 0xf8 n) = .movRa ∧
      insnmap (regOp 0x78 n) = .movRi ∧ insnmap (regOp 0xa8 n) = .movRd ∧
        insnmap (regOp 0xd8 n) = .djnzR := by
  revert n
  decide +kernel

/-- In all opcodes that name a register, its number is in the low three bits. -/
lemma setWidth_regOp (n : BitVec 3) : (regOp 0xe8 n).setWidth 3 = n ∧
    (regOp 0xf8 n).setWidth 3 = n ∧ (regOp 0x78 n).setWidth 3 = n ∧
      (regOp 0xa8 n).setWidth 3 = n ∧ (regOp 0xd8 n).setWidth 3 = n := by
  revert n
  decide

/-- Every operation of the arithmetic unit has a row of opcodes, by operand: the next byte, a direct
address, a register. -/
lemma insnmap_row (o : AluOp) : insnmap (o.row + 4) = .genAi o ∧ insnmap (o.row + 5) = .genAd o ∧
    ∀ n, insnmap (regOp (o.row + 8) n) = .genAr o ∧ (regOp (o.row + 8) n).setWidth 3 = n := by
  cases o <;> decide +kernel

/-- Assembled and in memory, the instruction does what `Insn.eval` says. The next one is at position
`p`. -/
def Executes (e : Scope σ) (i : Insn ℕ) : Prop :=
  ∀ {addr : ℕ → Word} {p q : ℕ} {bs : List Byte} {s : Regs σ} {v : View σ},
    i.encode addr (addr p) = some bs → BytesAt e.readc v.pc bs →
    v.pc + BitVec.ofNat 16 i.size = addr p → i.eval e p v.regs = some (s, q) →
    step e v = some { v with regs := s, pc := addr q }

/-- A conditional jump goes to its label or to the next instruction, as the encoded offset leads
there. -/
lemma addr_jump {addr : ℕ → Word} {p l : ℕ} {w n : Word} {d : Byte} (c : Prop) [Decidable c]
    (hd : relOffset (addr l) (addr p) = some d) (hn : w + n = addr p) :
    w + n + (if c then d.signExtend 16 else 0) = addr (if c then l else p) := by
  rw [hn]
  split_ifs
  · exact add_relOffset hd
  · exact BitVec.add_zero _

section Moves

variable (o : Operand) (f : AccInsn) (d a x : Byte) (n : BitVec 3) (w : Word)

/-- `MOV A` with any of its operands does on the view what the listing says. -/
lemma executes_movA : Executes e (.movA o) := by
  intro addr p q bs s v henc hbytes hnext heval
  obtain ⟨x, hx, heq⟩ := Option.map_eq_some_iff.1 heval
  obtain ⟨rfl, rfl⟩ := Prod.mk.inj heq
  cases o with
  | imm y =>
    obtain rfl := Option.some.inj henc
    obtain rfl := Option.some.inj hx
    refine step_of_run hbytes.zero rfl (run_toAcc ?_) hnext
    rw [run_fetch, hbytes.one]
  | dir a =>
    obtain rfl := Option.some.inj henc
    exact step_of_run hbytes.zero rfl (run_toAcc (run_direct1 hbytes.one hx)) hnext
  | reg n =>
    obtain rfl := Option.some.inj henc
    obtain ⟨hw, heq⟩ := Option.ite_none_right_eq_some.1 hx
    obtain rfl := Option.some.inj heq
    refine step_of_run hbytes.zero (insnmap_regOp n).1 (run_toAcc ?_) hnext
    rw [(setWidth_regOp n).1, run_getRx hw]

/-- `MOV direct, A` does on the view what the listing says. -/
lemma executes_movDirA : Executes e (.movDirA d) := by
  intro addr p q bs s v henc hbytes hnext heval
  obtain ⟨s', hs, heq⟩ := Option.map_eq_some_iff.1 heval
  obtain ⟨rfl, rfl⟩ := Prod.mk.inj heq
  obtain rfl := Option.some.inj henc
  exact step_of_run hbytes.zero rfl (run_toIram hbytes.one run_get_acc hs) hnext

/-- `MOV direct, #imm` does on the view what the listing says. -/
lemma executes_movDirImm : Executes e (.movDirImm d x) := by
  intro addr p q bs s v henc hbytes hnext heval
  obtain ⟨s', hs, heq⟩ := Option.map_eq_some_iff.1 heval
  obtain ⟨rfl, rfl⟩ := Prod.mk.inj heq
  obtain rfl := Option.some.inj henc
  refine step_of_run hbytes.zero rfl (run_toIram hbytes.one ?_ hs) hnext
  rw [run_fetch, hbytes.two]

/-- `MOV direct, direct` does, and its bytes have the source in front of the target. -/
lemma executes_movDirDir : Executes e (.movDirDir d a) := by
  intro addr p q bs s v henc hbytes hnext heval
  obtain ⟨x, hx, hrest⟩ := Option.bind_eq_some_iff.1 heval
  obtain ⟨s', hs, heq⟩ := Option.map_eq_some_iff.1 hrest
  obtain ⟨rfl, rfl⟩ := Prod.mk.inj heq
  obtain rfl := Option.some.inj henc
  refine step_of_run (l := .mov85) (t := { v with regs := s' }) hbytes.zero rfl ?_ hnext
  change Ops.mov85.code.run _ _ = _
  simp only [Ops.mov85, Prog.run_bind, run_fetch, Option.bind_some, hbytes.two,
    run_direct1 hbytes.one hx, run_writed hs]

/-- `MOV Rn, A` does on the view what the listing says. -/
lemma executes_movRegA : Executes e (.movRegA n) := by
  intro addr p q bs s v henc hbytes hnext heval
  obtain ⟨s', hs, heq⟩ := Option.map_eq_some_iff.1 heval
  obtain ⟨rfl, rfl⟩ := Prod.mk.inj heq
  obtain rfl := Option.some.inj henc
  exact step_of_run hbytes.zero (insnmap_regOp n).2.1
    (run_toR (setWidth_regOp n).2.1 run_get_acc hs) hnext

/-- `MOV Rn, #imm` does on the view what the listing says. -/
lemma executes_movRegImm : Executes e (.movRegImm n x) := by
  intro addr p q bs s v henc hbytes hnext heval
  obtain ⟨s', hs, heq⟩ := Option.map_eq_some_iff.1 heval
  obtain ⟨rfl, rfl⟩ := Prod.mk.inj heq
  obtain rfl := Option.some.inj henc
  refine step_of_run hbytes.zero (insnmap_regOp n).2.2.1
    (run_toR (setWidth_regOp n).2.2.1 ?_ hs) hnext
  rw [run_fetch, hbytes.one]

/-- `MOV Rn, direct` does on the view what the listing says. -/
lemma executes_movRegDir : Executes e (.movRegDir n a) := by
  intro addr p q bs s v henc hbytes hnext heval
  obtain ⟨x, hx, hrest⟩ := Option.bind_eq_some_iff.1 heval
  obtain ⟨s', hs, heq⟩ := Option.map_eq_some_iff.1 hrest
  obtain ⟨rfl, rfl⟩ := Prod.mk.inj heq
  obtain rfl := Option.some.inj henc
  exact step_of_run hbytes.zero (insnmap_regOp n).2.2.2.1
    (run_toR (setWidth_regOp n).2.2.2.1 (run_direct1 hbytes.one hx) hs) hnext

/-- `MOV DPTR, #imm` loads both halves of the data pointer. -/
lemma executes_movDptr : Executes e (.movDptr w) := by
  intro addr p q bs s v henc hbytes hnext heval
  obtain ⟨rfl, rfl⟩ := Prod.mk.inj (Option.some.inj heval)
  obtain rfl := Option.some.inj henc
  refine step_of_run (l := .mov90)
    (t := { v with regs := { v.regs with dph := hi w, dpl := lo w } }) hbytes.zero rfl ?_ hnext
  rw [← hbytes.one, ← hbytes.two]
  rfl

/-- The instructions that work on the accumulator alone do what the listing says. -/
lemma executes_onA : Executes e (.onA f) := by
  intro addr p q bs s v henc hbytes hnext heval
  obtain ⟨rfl, rfl⟩ := Prod.mk.inj (Option.some.inj heval)
  obtain rfl := Option.some.inj henc
  cases f with
  | clr => exact step_of_run (l := .clrA) hbytes.zero rfl rfl hnext
  | swap => exact step_of_run (l := .swapA) hbytes.zero rfl rfl hnext
  | rr => exact step_of_run (l := .rrA) hbytes.zero rfl rfl hnext
  | dec => exact step_of_run (l := .decA) hbytes.zero rfl rfl hnext

/-- `XCH A, direct` swaps the accumulator with the register. -/
lemma executes_xch : Executes e (.xch a) := by
  intro addr p q bs s v henc hbytes hnext heval
  obtain ⟨x, hx, hrest⟩ := Option.bind_eq_some_iff.1 heval
  obtain ⟨s', hs, heq⟩ := Option.map_eq_some_iff.1 hrest
  obtain ⟨rfl, rfl⟩ := Prod.mk.inj heq
  obtain rfl := Option.some.inj henc
  have hwrite : (Cpu.writed a v.regs.acc).run (viewExec e)
      { v with regs := { v.regs with acc := x } } = some ((), { v with regs := s' }) :=
    run_writed hs
  refine step_of_run (l := .xchAd) (t := { v with regs := s' }) hbytes.zero rfl ?_ hnext
  change Ops.xchAd.code.run _ _ = _
  simp only [Ops.xchAd, Prog.run_bind, run_get_acc, run_fetch, Option.bind_some, hbytes.one,
    run_readd hx, run_set_acc, hwrite]

end Moves

section Arithmetic

variable (o : AluOp) (x : Operand) (bit : Byte)

/-- The arithmetic instructions with any of their operands do what the listing says. -/
lemma executes_alu : Executes e (.alu o x) := by
  intro addr p q bs s v henc hbytes hnext heval
  obtain ⟨y, hy, heq⟩ := Option.map_eq_some_iff.1 heval
  obtain ⟨rfl, rfl⟩ := Prod.mk.inj heq
  cases x with
  | imm x =>
    obtain rfl := Option.some.inj henc
    obtain rfl := Option.some.inj hy
    refine step_of_run hbytes.zero (insnmap_row o).1 (run_alu_operand o ?_) hnext
    rw [run_fetch, hbytes.one]
  | dir a =>
    obtain rfl := Option.some.inj henc
    have hdirect := run_alu_operand o (run_direct1 hbytes.one hy)
    exact step_of_run (l := .genAd o) hbytes.zero (insnmap_row o).2.1 hdirect hnext
  | reg n =>
    obtain rfl := Option.some.inj henc
    obtain ⟨hw, heq⟩ := Option.ite_none_right_eq_some.1 hy
    obtain rfl := Option.some.inj heq
    obtain ⟨hop, hn⟩ := (insnmap_row o).2.2 n
    refine step_of_run hbytes.zero hop (run_alu_operand o ?_) hnext
    rw [hn, run_getRx hw]

/-- `CLR bit` clears the bit in its register. -/
lemma executes_clrBit : Executes e (.clrBit bit) := by
  intro addr p q bs s v henc hbytes hnext heval
  obtain ⟨x, hx, hrest⟩ := Option.bind_eq_some_iff.1 heval
  obtain ⟨s', hs, heq⟩ := Option.map_eq_some_iff.1 hrest
  obtain ⟨rfl, rfl⟩ := Prod.mk.inj heq
  obtain rfl := Option.some.inj henc
  refine step_of_run (l := .clrB) (t := { v with regs := s' }) hbytes.zero rfl ?_ hnext
  change Ops.clrB.code.run _ _ = _
  simp only [Ops.clrB, Cpu.writeb, Prog.run_bind, run_fetch, Option.bind_some, hbytes.one,
    run_readd hx, run_writed hs]

/-- `SETB bit` sets the bit in its register. -/
lemma executes_setBit : Executes e (.setBit bit) := by
  intro addr p q bs s v henc hbytes hnext heval
  obtain ⟨x, hx, hrest⟩ := Option.bind_eq_some_iff.1 heval
  obtain ⟨s', hs, heq⟩ := Option.map_eq_some_iff.1 hrest
  obtain ⟨rfl, rfl⟩ := Prod.mk.inj heq
  obtain rfl := Option.some.inj henc
  refine step_of_run (l := .setB) (t := { v with regs := s' }) hbytes.zero rfl ?_ hnext
  change Ops.setB.code.run _ _ = _
  simp only [Ops.setB, Prog.run_bind, run_fetch, Option.bind_some, hbytes.one, run_readd hx,
    run_writed hs]

end Arithmetic

section Jumps

variable (l : ℕ) (x bit : Byte) (n : BitVec 3)

/-- `SJMP` goes to its label, as the offset it is encoded with leads there. -/
lemma executes_sjmp : Executes e (.sjmp l) := by
  intro addr p q bs s v henc hbytes hnext heval
  obtain ⟨rfl, rfl⟩ := Prod.mk.inj (Option.some.inj heval)
  obtain ⟨d, hd, rfl⟩ := Option.map_eq_some_iff.1 henc
  have hrun : Ops.sjmp.code.run (viewExec e) v =
      some ((), { v with pc := v.pc + (2 + d.signExtend 16) }) := by
    simp only [Ops.sjmp, Prog.run_bind, run_getPc, run_fetch, Option.bind_some, hbytes.one,
      run_setPc]
  refine step_of_jump (l := .sjmp) hbytes.zero rfl rfl hrun ?_
  rw [← BitVec.add_assoc, show v.pc + 2 = addr p from hnext, add_relOffset hd]

/-- `JC` goes to its label if the carry is set, and on otherwise. -/
lemma executes_jc : Executes e (.jc l) := by
  intro addr p q bs s v henc hbytes hnext heval
  obtain ⟨rfl, rfl⟩ := Prod.mk.inj (Option.some.inj heval)
  obtain ⟨d, hd, rfl⟩ := Option.map_eq_some_iff.1 henc
  have hrun := run_branchOn .psw (fun psw => psw &&& PSW_C != 0) (y := v.regs.psw)
    hbytes.one fun w => rfl
  exact step_of_jump (l := .jc) hbytes.zero rfl rfl hrun (addr_jump _ hd hnext)

/-- `JZ` goes to its label if the accumulator is 0, and on otherwise. -/
lemma executes_jz : Executes e (.jz l) := by
  intro addr p q bs s v henc hbytes hnext heval
  obtain ⟨rfl, rfl⟩ := Prod.mk.inj (Option.some.inj heval)
  obtain ⟨d, hd, rfl⟩ := Option.map_eq_some_iff.1 henc
  have hrun := run_branchOn .acc (fun acc => acc == 0) (y := v.regs.acc) hbytes.one
    fun w => rfl
  exact step_of_jump (l := .jz) hbytes.zero rfl rfl hrun (addr_jump _ hd hnext)

/-- `JNZ` goes to its label unless the accumulator is 0. -/
lemma executes_jnz : Executes e (.jnz l) := by
  intro addr p q bs s v henc hbytes hnext heval
  obtain ⟨rfl, rfl⟩ := Prod.mk.inj (Option.some.inj heval)
  obtain ⟨d, hd, rfl⟩ := Option.map_eq_some_iff.1 henc
  have hrun := run_branchOn .acc (fun acc => acc != 0) (y := v.regs.acc) hbytes.one
    fun w => rfl
  exact step_of_jump (l := .jnz) hbytes.zero rfl rfl hrun (addr_jump _ hd hnext)

/-- `JB` goes to its label if the bit is set, and on otherwise. -/
lemma executes_jb : Executes e (.jb bit l) := by
  intro addr p q bs s v henc hbytes hnext heval
  obtain ⟨x, hx, heq⟩ := Option.map_eq_some_iff.1 heval
  obtain ⟨rfl, rfl⟩ := Prod.mk.inj heq
  obtain ⟨d, hd, rfl⟩ := Option.map_eq_some_iff.1 henc
  have hrun := run_branch_bit (c := (· ≠ 0)) hbytes.one hbytes.two hx
  exact step_of_jump (l := .jb) hbytes.zero rfl rfl hrun (addr_jump _ hd hnext)

/-- `JNB` goes to its label unless the bit is set. -/
lemma executes_jnb : Executes e (.jnb bit l) := by
  intro addr p q bs s v henc hbytes hnext heval
  obtain ⟨x, hx, heq⟩ := Option.map_eq_some_iff.1 heval
  obtain ⟨rfl, rfl⟩ := Prod.mk.inj heq
  obtain ⟨d, hd, rfl⟩ := Option.map_eq_some_iff.1 henc
  have hrun := run_branch_bit (c := (· = 0)) hbytes.one hbytes.two hx
  exact step_of_jump (l := .jnb) hbytes.zero rfl rfl hrun (addr_jump _ hd hnext)

/-- `CJNE A, #imm` sets the carry and goes to its label if the two differ. -/
lemma executes_cjneA : Executes e (.cjneA x l) := by
  intro addr p q bs s v henc hbytes hnext heval
  obtain ⟨rfl, rfl⟩ := Prod.mk.inj (Option.some.inj heval)
  obtain ⟨d, hd, rfl⟩ := Option.map_eq_some_iff.1 henc
  have hrun := run_cjneA hbytes.one hbytes.two
  refine step_of_run (l := .cjneA) hbytes.zero rfl hrun ?_
  rw [← addr_jump _ hd hnext, BitVec.add_assoc, BitVec.add_assoc]
  exact congrArg (v.pc + ·) (BitVec.add_comm _ _)

/-- `DJNZ Rn` counts the register down and goes to its label unless that makes 0. -/
lemma executes_djnz : Executes e (.djnz n l) := by
  intro addr p q bs s v henc hbytes hnext heval
  obtain ⟨s', hs, heq⟩ := Option.map_eq_some_iff.1 heval
  obtain ⟨rfl, rfl⟩ := Prod.mk.inj heq
  obtain ⟨d, hd, rfl⟩ := Option.map_eq_some_iff.1 henc
  have hrun := run_djnzR (setWidth_regOp n).2.2.2.2 hbytes.one hs
  refine step_of_run hbytes.zero (insnmap_regOp n).2.2.2.2 hrun ?_
  rw [← addr_jump _ hd hnext, BitVec.add_assoc, BitVec.add_assoc]
  exact congrArg (v.pc + ·) (BitVec.add_comm _ _)

end Jumps

/-- Every instruction that leaves the stack alone does on the view what the listing says. -/
theorem executes (i : Insn ℕ) : Executes e i := by
  cases i with
  | movA o => exact executes_movA o
  | movDirA d => exact executes_movDirA d
  | movDirImm d x => exact executes_movDirImm d x
  | movDirDir d a => exact executes_movDirDir d a
  | movRegA n => exact executes_movRegA n
  | movRegImm n x => exact executes_movRegImm x n
  | movRegDir n a => exact executes_movRegDir a n
  | movDptr w => exact executes_movDptr w
  | onA f => exact executes_onA f
  | xch a => exact executes_xch a
  | alu o x => exact executes_alu o x
  | clrBit bit => exact executes_clrBit bit
  | setBit bit => exact executes_setBit bit
  | incDptr =>
    intro addr p q bs s v henc hbytes hnext heval
    obtain ⟨rfl, rfl⟩ := Prod.mk.inj (Option.some.inj heval)
    obtain rfl := Option.some.inj henc
    exact step_of_run (l := .incD) hbytes.zero rfl rfl hnext
  | movcA =>
    intro addr p q bs s v henc hbytes hnext heval
    obtain ⟨rfl, rfl⟩ := Prod.mk.inj (Option.some.inj heval)
    obtain rfl := Option.some.inj henc
    exact step_of_run (l := .movcAd) hbytes.zero rfl rfl hnext
  | movxA =>
    intro addr p q bs s v henc hbytes hnext heval
    obtain ⟨rfl, rfl⟩ := Prod.mk.inj (Option.some.inj heval)
    obtain rfl := Option.some.inj henc
    exact step_of_run (l := .movxE0) hbytes.zero rfl rfl hnext
  | rrcA =>
    intro addr p q bs s v henc hbytes hnext heval
    obtain ⟨rfl, rfl⟩ := Prod.mk.inj (Option.some.inj heval)
    obtain rfl := Option.some.inj henc
    exact step_of_run (l := .rrcA) hbytes.zero rfl rfl hnext
  | mulAB =>
    intro addr p q bs s v henc hbytes hnext heval
    obtain ⟨rfl, rfl⟩ := Prod.mk.inj (Option.some.inj heval)
    obtain rfl := Option.some.inj henc
    exact step_of_run (l := .mul) hbytes.zero rfl rfl hnext
  | clrC =>
    intro addr p q bs s v henc hbytes hnext heval
    obtain ⟨rfl, rfl⟩ := Prod.mk.inj (Option.some.inj heval)
    obtain rfl := Option.some.inj henc
    exact step_of_run (l := .clrC) hbytes.zero rfl rfl hnext
  | sjmp l => exact executes_sjmp l
  | jc l => exact executes_jc l
  | jz l => exact executes_jz l
  | jnz l => exact executes_jnz l
  | jb bit l => exact executes_jb l bit
  | jnb bit l => exact executes_jnb l bit
  | cjneA x l => exact executes_cjneA l x
  | djnz n l => exact executes_djnz l n
  | push | pop | acall | lcall | ret =>
    intro addr p q bs s v henc hbytes hnext heval
    exact absurd heval.symm (Option.some_ne_none _)

end View

end Emu51

import Emu51.ControlFlow.Branches
import Emu51.Interrupts.Acceptance
import Emu51.Library.RecordText

/-!
# The trace

`nextop` prints a line about the instruction at `pc`: how many have gone before, where it is, its
bytes and its name, and those registers that have changed since the last line. The lines of a run
are read back here, so that each round of the interpreter is seen with its instruction, operands and
all fifteen registers, as they were when `nextop` was called. But `nextop` prints before it looks at
the interrupts. In a round that accepts one, the line is about the instruction that is put off, and
no line is about the first instruction of the service routine, which is executed in this round.
-/

namespace Emu51

open RecordText

/-! ## Names -/

/-- The table `insn_str`. -/
def insnStrTable : List String := [
  "NOP", "AJMP  addr11", "LJMP  addr16", "RR    A", "INC   A", "INC   iram", "INC   @R0",
  "INC   @R1", "INC   R0", "INC   R1", "INC   R2", "INC   R3", "INC   R4", "INC   R5", "INC   R6",
  "INC   R7", "JBC   bit, ofs", "ACALL addr11", "LCALL addr16", "RRC   A", "DEC   A", "DEC   iram",
  "DEC   @R0", "DEC   @R1", "DEC   R0", "DEC   R1", "DEC   R2", "DEC   R3", "DEC   R4", "DEC   R5",
  "DEC   R6", "DEC   R7", "JB    bit, ofs", "AJMP  addr11", "RET", "RL    A", "ADD   A, imm8",
  "ADD   A, iram", "ADD   A, @R0", "ADD   A, @R1", "ADD   A, R0", "ADD   A, R1", "ADD   A, R2",
  "ADD   A, R3", "ADD   A, R4", "ADD   A, R5", "ADD   A, R6", "ADD   A, R7", "JNB   bit, ofs",
  "ACALL addr11", "RETI", "RLC   A", "ADDC  A, imm8", "ADDC  A, iram", "ADDC  A, @R0",
  "ADDC  A, @R1", "ADDC  A, R0", "ADDC  A, R1", "ADDC  A, R2", "ADDC  A, R3", "ADDC  A, R4",
  "ADDC  A, R5", "ADDC  A, R6", "ADDC  A, R7", "JC    ofs", "AJMP  addr11", "ORL   iram, A",
  "ORL   iram, imm8", "ORL   A, imm8", "ORL   A, iram", "ORL   A, @R0", "ORL   A, @R1",
  "ORL   A, R0", "ORL   A, R1", "ORL   A, R2", "ORL   A, R3", "ORL   A, R4", "ORL   A, R5",
  "ORL   A, R6", "ORL   A, R7", "JNC   ofs", "ACALL addr11", "ANL   iram, A", "ANL   iram, imm8",
  "ANL   A, imm8", "ANL   A, iram", "ANL   A, @R0", "ANL   A, @R1", "ANL   A, R0", "ANL   A, R1",
  "ANL   A, R2", "ANL   A, R3", "ANL   A, R4", "ANL   A, R5", "ANL   A, R6", "ANL   A, R7",
  "JZ    ofs", "AJMP  addr11", "XRL   iram, A", "XRL   iram, imm8", "XRL   A, imm8",
  "XRL   A, iram", "XRL   A, @R0", "XRL   A, @R1", "XRL   A, R0", "XRL   A, R1", "XRL   A, R2",
  "XRL   A, R3", "XRL   A, R4", "XRL   A, R5", "XRL   A, R6", "XRL   A, R7", "JNZ   ofs",
  "ACALL addr11", "ORL   C, bit", "JMP   @A+DPTR", "MOV   A, imm8", "MOV   iram, imm8",
  "MOV   @R0, imm8", "MOV   @R1, imm8", "MOV   R0, imm8", "MOV   R1, imm8", "MOV   R2, imm8",
  "MOV   R3, imm8", "MOV   R4, imm8", "MOV   R5, imm8", "MOV   R6, imm8", "MOV   R7, imm8",
  "SJMP  ofs", "AJMP  addr11", "ANL   C, bit", "MOVC  A, @A+PC", "DIV   AB", "MOV   iram, iram",
  "MOV   iram, @R0", "MOV   iram, @R1", "MOV   iram, R0", "MOV   iram, R1", "MOV   iram, R2",
  "MOV   iram, R3", "MOV   iram, R4", "MOV   iram, R5", "MOV   iram, R6", "MOV   iram, R7",
  "MOV   DPTR, imm8", "ACALL addr11", "MOV   bit, C", "MOVC  A, @A+DPTR", "SUBB  A, imm8",
  "SUBB  A, iram", "SUBB  A, @R0", "SUBB  A, @R1", "SUBB  A, R0", "SUBB  A, R1", "SUBB  A, R2",
  "SUBB  A, R3", "SUBB  A, R4", "SUBB  A, R5", "SUBB  A, R6", "SUBB  A, R7", "ORL   C, /bit",
  "AJMP  addr11", "MOV   C, bit", "INC   DPTR", "MUL   AB", "ill", "MOV   @R0, iram",
  "MOV   @R1, iram", "MOV   R0, iram", "MOV   R1, iram", "MOV   R2, iram", "MOV   R3, iram",
  "MOV   R4, iram", "MOV   R5, iram", "MOV   R6, iram", "MOV   R7, iram", "ANL   C, /bit",
  "ACALL addr11", "CPL   bit", "CPL   C", "CJNE  A, imm8, ofs", "CJNE  A, iram, ofs",
  "CJNE  @R0, imm8, ofs", "CJNE  @R1, imm8, ofs", "CJNE  R0, imm8, ofs", "CJNE  R1, imm8, ofs",
  "CJNE  R2, imm8, ofs", "CJNE  R3, imm8, ofs", "CJNE  R4, imm8, ofs", "CJNE  R5, imm8, ofs",
  "CJNE  R6, imm8, ofs", "CJNE  R7, imm8, ofs", "PUSH  iram", "AJMP  addr11", "CLR   bit",
  "CLR   C", "SWAP  A", "XCH   A, iram", "XCH   A, @R0", "XCH   A, @R1", "XCH   A, R0",
  "XCH   A, R1", "XCH   A, R2", "XCH   A, R3", "XCH   A, R4", "XCH   A, R5", "XCH   A, R6",
  "XCH   A, R7", "POP   iram", "ACALL addr11", "SETB  bit", "SETB  C", "DA    A", "DJNZ  iram, ofs",
  "XCHD  A, @R0", "XCHD  A, @R1", "DJNZ  R0, ofs", "DJNZ  R1, ofs", "DJNZ  R2, ofs",
  "DJNZ  R3, ofs", "DJNZ  R4, ofs", "DJNZ  R5, ofs", "DJNZ  R6, ofs", "DJNZ  R7, ofs",
  "MOVX  A, @DPTR", "AJMP  addr11", "MOVX  A, @R0", "MOVX  A, @R1", "CLR   A", "MOV   A, iram",
  "MOV   A, @R0", "MOV   A, @R1", "MOV   A, R0", "MOV   A, R1", "MOV   A, R2", "MOV   A, R3",
  "MOV   A, R4", "MOV   A, R5", "MOV   A, R6", "MOV   A, R7", "MOVX  @DPTR, A", "ACALL addr11",
  "MOVX  @R0, A", "MOVX  @R1, A", "CPL   A", "MOV   iram, A", "MOV   @R0, A", "MOV   @R1, A",
  "MOV   R0, A", "MOV   R1, A", "MOV   R2, A", "MOV   R3, A", "MOV   R4, A", "MOV   R5, A",
  "MOV   R6, A", "MOV   R7, A"]

/-- `insn_str[op]`. -/
def insnStr (op : Byte) : List Char := (insnStrTable.getD op.toNat "").toList

/-- The names of all the instructions fit in the column of 20 characters. -/
lemma length_insnStr (op : Byte) : (insnStr op).length ≤ 20 := by
  revert op
  decide +kernel

/-- The registers of a line, in the order of `saved_reg`. -/
def regNames : List String :=
  ["R0", "R1", "R2", "R3", "R4", "R5", "R6", "R7", "ACC", "B", "SP", "DPH0", "DPL0", "DPH1", "DPL1"]

/-- How a changed register is printed. -/
def regFields : Fields (Fin 15) Byte where
  key i := ' ' :: (regNames.getD i.val "").toList ++ ['=']
  width := 2
  render v := hex 2 v.toNat
  read t := BitVec.ofNat 8 (unhex t)
  length_render v := length_hex 2 v.toNat
  read_render v := by rw [unhex_hex v.isLt, BitVec.ofNat_toNat, BitVec.setWidth_eq]

/-- No two of the names that come before the registers of a line can be taken for one another. -/
lemma regFields_prefixFree : regFields.PrefixFree (List.finRange 15) := by
  rw [Fields.PrefixFree]
  decide

/-- None of them can be taken for the field of the data pointer. -/
lemma key_dptr : ∀ i, ¬regFields.key i <+: [' ', 'D', 'P', 'T', 'R', '='] ∧
    ¬[' ', 'D', 'P', 'T', 'R', '='] <+: regFields.key i := by decide

/-- None of them can be taken for the end of the line. -/
lemma key_newline : ∀ i, ¬regFields.key i <+: ['\n'] := by decide

/-! ## One line -/

namespace Machine

variable {σ : Type}

/-- The registers of a line. -/
def tracedRegs (m : Machine σ) (i : Fin 15) : Byte :=
  if i.val < 8 then m.rx (BitVec.ofNat 3 i.val)
  else m.sfr ([ACC, B, SP, DPH0, DPL0, DPH1, DPL1].getD (i.val - 8) 0)

/-- `insn_hex`: the bytes after the opcode, in six columns. -/
def insnHex (m : Machine σ) : List Char :=
  if 1 < insnBytes (m.fetch 0) then
    if insnBytes (m.fetch 0) = 2 then ' ' :: (hex 2 (m.fetch 1).toNat ++ [' ', ' ', ' '])
    else ' ' :: (hex 2 (m.fetch 1).toNat ++ ' ' :: hex 2 (m.fetch 2).toNat)
  else [' ', ' ', ' ', ' ', ' ', ' ']

/-- What `debug` prints in front of the registers. A `long` is printed as an `int`, by its last
eight digits. -/
def debugHeader (retired : BitVec 64) (m : Machine σ) : List Char :=
  hex 8 (retired.setWidth 32).toNat ++ ([';', ' ', '@'] ++ (hex 2 m.pcx.toNat ++
    (hex 4 m.pc.toNat ++ ([':', ' '] ++ (hex 2 (m.fetch 0).toNat ++ (m.insnHex ++
      (' ' :: (insnStr (m.fetch 0)).rightpad 20 ' ' ++ [';', ' '])))))))

/-- `print_dptr`: one of the data pointers has changed. -/
def debugDptr (saved : Fin 15 → Byte) (m : Machine σ) : List Char :=
  if saved 11 ≠ m.tracedRegs 11 ∨ saved 12 ≠ m.tracedRegs 12 ∨ saved 13 ≠ m.tracedRegs 13 ∨
      saved 14 ≠ m.tracedRegs 14 then
    [' ', 'D', 'P', 'T', 'R', '='] ++ hex 4 m.dptr.toNat
  else []

/-- The line that `debug` prints. -/
def debug (saved : Fin 15 → Byte) (retired : BitVec 64) (m : Machine σ) : List Char :=
  m.debugHeader retired ++ (regFields.renderChanges (List.finRange 15) saved m.tracedRegs ++
    (m.debugDptr saved ++ ['\n']))

/-- The bytes of an instruction take six characters, whatever its length. -/
lemma length_insnHex (m : Machine σ) : m.insnHex.length = 6 := by
  unfold insnHex
  split_ifs
  · simp only [List.length_cons, List.length_append, length_hex, List.length_nil]
  · simp only [List.length_cons, List.length_append, length_hex]
  · rfl

/-- The beginning of a line, with the counter and the addresses, takes 50 characters. -/
lemma length_debugHeader (retired : BitVec 64) (m : Machine σ) :
    (m.debugHeader retired).length = 50 := by
  have hname := length_insnStr (m.fetch 0)
  simp only [debugHeader, List.length_append, length_hex, List.length_cons, List.length_nil,
    length_insnHex, List.length_rightpad]
  omega

end Machine

/-! ## Reading a line -/

/-- What a line shows. -/
structure TraceEntry where
  retired : BitVec 32
  pcx : Byte
  pc : Word
  insn : Byte
  operands : List Byte
  regs : Fin 15 → Byte

/-- What the line about the instruction to come is meant to show. -/
def Machine.traceEntry {σ : Type} (retired : BitVec 64) (m : Machine σ) : TraceEntry where
  retired := retired.setWidth 32
  pcx := m.pcx
  pc := m.pc
  insn := m.fetch 0
  operands := [m.fetch 1, m.fetch 2].take (insnBytes (m.fetch 0) - 1)
  regs := m.tracedRegs

/-- Read a line, with the registers that the line before has shown. -/
def readLine (saved : Fin 15 → Byte) (t : List Char) : TraceEntry where
  retired := BitVec.ofNat 32 (hexAt t 0 8)
  pcx := BitVec.ofNat 8 (hexAt t 11 2)
  pc := BitVec.ofNat 16 (hexAt t 13 4)
  insn := BitVec.ofNat 8 (hexAt t 19 2)
  operands := ([BitVec.ofNat 8 (hexAt t 22 2), BitVec.ofNat 8 (hexAt t 25 2)]).take
    (insnBytes (BitVec.ofNat 8 (hexAt t 19 2)) - 1)
  regs := (regFields.parse (List.finRange 15) saved (t.drop 50)).1

section Reading

variable {σ : Type}

/-- The numbers that every line has, each at its place. -/
lemma hexAt_debugHeader (m : Machine σ) (retired : BitVec 64) (t : List Char) :
    hexAt (m.debugHeader retired ++ t) 0 8 = (retired.setWidth 32).toNat ∧
      hexAt (m.debugHeader retired ++ t) 11 2 = m.pcx.toNat ∧
      hexAt (m.debugHeader retired ++ t) 13 4 = m.pc.toNat ∧
      hexAt (m.debugHeader retired ++ t) 19 2 = (m.fetch 0).toNat := by
  simp (disch := simp) only [Machine.debugHeader, List.append_assoc, hexAt_append_of_le,
    length_hex, List.length_cons, List.length_nil]
  exact ⟨hexAt_hex (retired.setWidth 32).isLt, hexAt_hex m.pcx.isLt, hexAt_hex m.pc.isLt,
    hexAt_hex (m.fetch 0).isLt⟩

/-- The two bytes behind the opcode are read back from the columns of a line that show them. -/
lemma operands_debugHeader (m : Machine σ) (retired : BitVec 64) (t : List Char) :
    ([BitVec.ofNat 8 (hexAt (m.debugHeader retired ++ t) 22 2),
      BitVec.ofNat 8 (hexAt (m.debugHeader retired ++ t) 25 2)]).take
        (insnBytes (m.fetch 0) - 1) =
      [m.fetch 1, m.fetch 2].take (insnBytes (m.fetch 0) - 1) := by
  have hfirst : ∀ {c : Char} {b : Byte} {u : List Char},
      BitVec.ofNat 8 (hexAt (c :: (hex 2 b.toNat ++ u)) 1 2) = b := by
    intro c b u
    change BitVec.ofNat 8 (hexAt (hex 2 b.toNat ++ u) 0 2) = b
    rw [hexAt_hex b.isLt, BitVec.ofNat_toNat, BitVec.setWidth_eq]
  have hsecond : ∀ {c : Char} {b : Byte} {u : List Char},
      hexAt (c :: (hex 2 b.toNat ++ u)) 4 2 = hexAt u 1 2 := by
    intro c b u
    change hexAt (hex 2 b.toNat ++ u) 3 2 = hexAt u 1 2
    rw [hexAt_append_of_le (by rw [length_hex]; decide), length_hex]
  simp (disch := simp) only [Machine.debugHeader, List.append_assoc, hexAt_append_of_le,
    length_hex, List.length_cons, List.length_nil]
  unfold Machine.insnHex
  split_ifs with hlong htwo
  · rw [htwo, List.cons_append, List.append_assoc]
    exact congrArg (fun b => [b]) hfirst
  · rw [List.cons_append, List.append_assoc]
    refine congrArg (List.take _) (congrArg₂ (fun b c => [b, c]) hfirst ?_)
    exact (congrArg (BitVec.ofNat 8) hsecond).trans hfirst
  · rw [show insnBytes (m.fetch 0) - 1 = 0 by omega]
    rfl

/-- A line shows what it is meant to show. -/
theorem readLine_debug (saved : Fin 15 → Byte) (retired : BitVec 64) (m : Machine σ) :
    readLine saved (m.debug saved retired) = m.traceEntry retired := by
  have hback : ∀ {w} (v : BitVec w), BitVec.ofNat w v.toNat = v := fun {w} v => by
    rw [BitVec.ofNat_toNat, BitVec.setWidth_eq]
  have hregs : (regFields.parse (List.finRange 15) saved ((m.debug saved retired).drop 50)).1 =
      m.tracedRegs := by
    have hend : ∀ i ∈ List.finRange 15, ¬regFields.key i <+: m.debugDptr saved ++ ['\n'] := by
      intro i _
      unfold Machine.debugDptr
      split_ifs
      · rw [List.append_assoc]
        exact Fields.not_prefix_append (key_dptr i).1 (key_dptr i).2
      · exact key_newline i
    rw [Machine.debug, List.drop_left' (m.length_debugHeader retired),
      Fields.parse_render regFields_prefixFree hend]
    exact funext fun i => if_pos (List.mem_finRange i)
  obtain ⟨hretired, hpcx, hpc, hinsn⟩ := hexAt_debugHeader m retired
    (regFields.renderChanges (List.finRange 15) saved m.tracedRegs ++ (m.debugDptr saved ++ ['\n']))
  have hoperands := operands_debugHeader m retired
    (regFields.renderChanges (List.finRange 15) saved m.tracedRegs ++ (m.debugDptr saved ++ ['\n']))
  rw [readLine, hregs]
  unfold Machine.debug
  rw [hretired, hpcx, hpc, hinsn, hback, hback, hback, hback, hoperands]
  rfl

end Reading

example : (Machine.running [0x75, 0x81, 0x07]).debug (fun i => if i = 3 then 5 else 0) 0x1f =
    "0000001f; @000000: 75 81 07 MOV   iram, imm8    ;  R3=00\n".toList := by decide +kernel

/-! ## The lines of a run -/

/-- The variables behind the trace: `enable_trace`, `trace_count`, `saved_reg` of `debug`, and
`retired`. -/
structure Tracer where
  enableTrace : Bool
  traceCount : ℤ
  savedReg : Fin 15 → Byte
  retired : BitVec 64

namespace Tracer

/-- Their values when the program starts. -/
def static : Tracer := ⟨true, 0, fun _ => 0, 0⟩

/-- `set_trace`. -/
def setTrace (T : Tracer) (enable : Bool) (n : ℤ) : Tracer :=
  { T with enableTrace := enable, traceCount := n }

/-- The count of the lines to come, where there is one. -/
def countDown (T : Tracer) : Tracer :=
  if T.traceCount = 0 then T
  else T.setTrace (if T.traceCount - 1 = 0 then false else T.enableTrace) (T.traceCount - 1)

variable {σ : Type}

/-- The part of `nextop` in front of the interrupts: the lines it prints, at most one. -/
def nextop (T : Tracer) (m : Machine σ) : List (List Char) × Tracer :=
  if T.enableTrace then
    ([m.debug T.savedReg T.retired],
      { T.countDown with savedReg := m.tracedRegs, retired := T.retired + 1 })
  else ([], { T with retired := T.retired + 1 })

/-- `handle_breakpoint` turns the trace on at its second address. -/
def breakpoint (T : Tracer) (m : Machine σ) : Tracer :=
  if m.fullPc &&& m.bpmask = m.bpval ∧ m.fullPc = 0x261f5 then T.setTrace true 0 else T

end Tracer

variable {σ : Type}

/-- The lines of a run. Only instructions are traced. -/
def traceLines (T : Tracer) : List (Machine σ × Event) → List (List Char)
  | [] => []
  | (m, .insn) :: tr => (T.nextop m).1 ++ traceLines ((T.nextop m).2.breakpoint m.pollIrq) tr
  | _ :: tr => traceLines T tr

/-- What the lines of a run are meant to show. -/
def traceEntries (retired : BitVec 64) : List (Machine σ × Event) → List TraceEntry
  | [] => []
  | (m, .insn) :: tr => m.traceEntry retired :: traceEntries (retired + 1) tr
  | _ :: tr => traceEntries retired tr

/-- Read lines, each with the registers that the line before has shown. -/
def readTrace (saved : Fin 15 → Byte) : List (List Char) → List TraceEntry
  | [] => []
  | t :: ts => readLine saved t :: readTrace (readLine saved t).regs ts

/-- The trace is on, and for good. -/
def Tracer.Endless (T : Tracer) : Prop := T.enableTrace = true ∧ T.traceCount = 0

/-- The breakpoint does not end a trace that has no end. -/
lemma Tracer.Endless.breakpoint {T : Tracer} (h : T.Endless) (m : Machine σ) :
    (T.breakpoint m).Endless := by
  unfold Tracer.breakpoint
  split_ifs
  · exact ⟨rfl, rfl⟩
  · exact h

/-- A round of an endless trace prints its line and saves its registers. -/
lemma Tracer.Endless.nextop {T : Tracer} (h : T.Endless) (m : Machine σ) :
    T.nextop m = ([m.debug T.savedReg T.retired],
      { T with savedReg := m.tracedRegs, retired := T.retired + 1 }) := by
  rw [Tracer.nextop, if_pos h.1, Tracer.countDown, if_pos h.2]

/-- The breakpoint leaves the registers that were printed last. -/
lemma Tracer.breakpoint_savedReg (T : Tracer) (m : Machine σ) :
    (T.breakpoint m).savedReg = T.savedReg := by
  unfold Tracer.breakpoint
  split_ifs <;> rfl

/-- The breakpoint counts no instruction. -/
lemma Tracer.breakpoint_retired (T : Tracer) (m : Machine σ) :
    (T.breakpoint m).retired = T.retired := by
  unfold Tracer.breakpoint
  split_ifs <;> rfl

/-- The lines of an endless trace are read back. -/
lemma Tracer.Endless.readTrace {T : Tracer} (h : T.Endless) (tr : List (Machine σ × Event)) :
    readTrace T.savedReg (traceLines T tr) = traceEntries T.retired tr := by
  induction tr generalizing T with
  | nil => rfl
  | cons e tr ih =>
    obtain ⟨m, _ | _ | _⟩ := e
    · have hnext : (T.nextop m).2.Endless := by
        rw [h.nextop]
        exact h
      have hlater := ih (hnext.breakpoint m.pollIrq)
      rw [Tracer.breakpoint_savedReg, Tracer.breakpoint_retired] at hlater
      rw [h.nextop] at hlater
      rw [traceLines, traceEntries, h.nextop, List.singleton_append, Emu51.readTrace,
        readLine_debug]
      exact congrArg (m.traceEntry T.retired :: ·) hlater
    · exact ih h
    · exact ih h

/-- What a line has to do with what is executed. It is about the instruction that comes next, unless
an interrupt is accepted first: then its service routine comes next, and the line is about the
instruction that the routine will return to. -/
structure Machine.Shown (m m₁ : Machine σ) (op : Byte) : Prop where
  insn : op = m₁.fetch 0
  executed : m.acceptedLevel = none → ∀ n, m₁.traceEntry n = m.traceEntry n
  putOff : ∀ l, m.acceptedLevel = some l → ∃ i, Machine.Accepts m m₁ i l

variable {script : Script σ} {m m₀ : Machine σ}

/-- A round that accepts no interrupt changes nothing a line shows. -/
lemma Machine.shown_nextop (ht : m.ramsfrtrap = Machine.sfrInitTrap) (hv : m.Vectored) :
    ∃ op m₁, m.nextop script = some (op, m₁) ∧ m.Shown m₁ op := by
  obtain ⟨mask, val, hnext⟩ := Machine.nextop_eq script ht
  refine ⟨_, _, hnext, rfl, fun hnone n => ?_, ?_⟩
  · rw [Machine.pollIrq_of_declined hv hnone]
    rfl
  · exact ((Machine.pollIrq_decides hv).setBreakpoint mask val).accepts

/-- The trace of a run shows each of its rounds with its number, the place, bytes and name of the
instruction at `pc`, and all registers, though each line has only those that have changed. This is
the instruction that is executed in the round, unless the round accepts an interrupt. -/
theorem run_readTrace {heap : ℕ → Buffer} {file : List Byte}
    (hboot : Machine.boot script heap file = some m₀) {tr : List (Machine σ × Event)}
    (hrun : Run (Machine.Happens script) m₀ tr m) :
    readTrace (fun _ => 0) (traceLines .static tr) = traceEntries 0 tr ∧
      ∀ e ∈ tr, e.2 = .insn → ∃ op m₁, e.1.nextop script = some (op, m₁) ∧ e.1.Shown m₁ op := by
  have hinv := hrun.invariant (I := fun m => m.ramsfrtrap = Machine.sfrInitTrap ∧ m.Vectored)
    (fun _ _ _ hm he => ⟨(Machine.happen_setup he).ramsfrtrap.trans hm.1,
      Machine.happen_vectored hm.2 he⟩)
    ⟨(Machine.boot_setup hboot).1, Machine.boot_vectored hboot⟩
  exact ⟨Tracer.Endless.readTrace (T := .static) ⟨rfl, rfl⟩ tr,
    fun e he _ => Machine.shown_nextop (hinv.1 e he).1 (hinv.1 e he).2⟩

/-- The theorem where `INC 30H` is put off: the only line is about it, but it is the instruction at
23H, `INC 31H`, that has been executed. -/
theorem run_readTrace_putOff : ∃ (m₀ m₂ m : Machine Unit) (tr : List (Machine Unit × Event)),
    Run (Machine.Happens mapsRom) m₀ (tr ++ [(m₂, .insn)]) m ∧
    (readTrace (fun _ => 0) (traceLines .static (tr ++ [(m₂, .insn)]))).map
      (fun t => (t.insn, t.operands)) = [(0x05, [0x30])] ∧
    (∃ m₁ i, Machine.Accepts m₂ m₁ i 0) ∧ m.readi 0x30 = 0 ∧ m.readi 0x31 = 1 := by
  have heval : ((Machine.boot mapsRom (fun _ => default)
      ([0x05, 0x30] ++ List.replicate 0x21 0 ++ [0x05, 0x31])).bind fun m₀ =>
      (Machine.happen mapsRom (.poke IE 0x90) m₀).bind fun m₁ =>
        (Machine.happen mapsRom (.poke SCON 0x02) m₁).bind fun m₂ =>
          (Machine.happen mapsRom .insn m₂).map fun m =>
            ((m₂.traceEntry 0).insn, (m₂.traceEntry 0).operands, m₂.acceptedLevel,
              m.readi 0x30, m.readi 0x31)) = some (0x05, [0x30], some 0, 0, 1) := by
    decide +kernel
  obtain ⟨m₀, hboot, heval⟩ := Option.bind_eq_some_iff.1 heval
  obtain ⟨m₁, hie, heval⟩ := Option.bind_eq_some_iff.1 heval
  obtain ⟨m₂, hscon, heval⟩ := Option.bind_eq_some_iff.1 heval
  obtain ⟨m, hstep, hval⟩ := Option.map_eq_some_iff.1 heval
  simp only [Prod.mk.injEq] at hval
  obtain ⟨hinsn, hoperands, hlevel, h30, h31⟩ := hval
  have hrun : Run (Machine.Happens mapsRom) m₀
      [(m₀, .poke IE 0x90), (m₁, .poke SCON 0x02), (m₂, .insn)] m :=
    .head hie (.head hscon (.head hstep (.refl m)))
  obtain ⟨hlines, hshown⟩ := run_readTrace hboot hrun
  obtain ⟨op, m₃, -, hround⟩ := hshown (m₂, .insn) (by simp) rfl
  obtain ⟨i, hi⟩ := hround.putOff 0 hlevel
  refine ⟨m₀, m₂, m, [(m₀, .poke IE 0x90), (m₁, .poke SCON 0x02)], hrun, ?_, ⟨m₃, i, hi⟩, h30, h31⟩
  rw [List.cons_append, List.cons_append, List.nil_append, hlines]
  simp only [traceEntries, List.map_cons, List.map_nil, hinsn, hoperands]

end Emu51

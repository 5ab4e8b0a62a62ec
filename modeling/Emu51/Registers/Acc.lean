import Emu51.Registers.Psw

/-!
# What an instruction leaves in the accumulator

Like `PSW`, the accumulator is an ordinary cell under the trap table of `sfr_init`. Half of the
records assign to it, and a record that stores to a register by its address may name it. So which
byte an instruction leaves there is determined by its operands as they are before it:
`Label.accLeft` is this byte for every record, and `dispatch_acc` shows that the code behind every
opcode leaves it.
-/

namespace Emu51

variable {σ : Type}

namespace Label

/-- The byte the record leaves in `ACC`: the result of an instruction on the accumulator, what is
stored there by address, or else what was there before. -/
def accLeft (script : Script σ) (l : Label) (op : Byte) (m : Machine σ) : Byte :=
  match l with
  | genAi o => (o.apply (m.sfr ACC) (m.fetch 1) (m.sfr PSW)).1
  | genAd o => (o.apply (m.sfr ACC) (m.readValue script (m.fetch 1)) (m.sfr PSW)).1
  | genR0 o => (o.apply (m.sfr ACC) (m.readValue script (m.rx 0)) (m.sfr PSW)).1
  | genR1 o => (o.apply (m.sfr ACC) (m.readValue script (m.rx 1)) (m.sfr PSW)).1
  | genAr o => (o.apply (m.sfr ACC) (m.rx (op.setWidth 3)) (m.sfr PSW)).1
  | incA => m.sfr ACC + 1
  | decA => m.sfr ACC - 1
  | rrA => m.sfr ACC >>> 1 ||| m.sfr ACC <<< 7
  | rlA => m.sfr ACC <<< 1 ||| m.sfr ACC >>> 7
  | swapA => m.sfr ACC >>> 4 ||| m.sfr ACC <<< 4
  | clrA => 0
  | cplA => m.sfr ACC ^^^ 0xff
  | rrcA => m.sfr ACC >>> 1 ||| (m.sfr PSW &&& PSW_C)
  | rlcA => m.sfr ACC <<< 1 ||| m.sfr PSW >>> 7
  | daA => (Ops.daAdjust (m.sfr ACC) (m.sfr PSW)).setWidth 8
  | mul => lo ((m.sfr ACC).setWidth 16 * (m.sfr B).setWidth 16)
  | div => if m.sfr B = 0 then m.sfr ACC else m.sfr ACC / m.sfr B
  | mov74 => m.fetch 1
  | movE5 | xchAd => m.readValue script (m.fetch 1)
  | movE6 | xchC6 => m.readi (m.rx 0)
  | movE7 | xchC7 => m.readi (m.rx 1)
  | movAr | xchAr => m.rx (op.setWidth 3)
  | movc83 => m.readc (m.pc + (m.sfr ACC).setWidth 16 + 1)
  | movcAd => m.readc (m.dptr + (m.sfr ACC).setWidth 16)
  | movxE0 => m.readx m.dptr
  | movxE2 => m.readx (word m.xramP2addr (m.rx 0))
  | movxE3 => m.readx (word m.xramP2addr (m.rx 1))
  | xchdAtr0 => (m.sfr ACC &&& 0xf0) ||| (m.readValue script (m.rx 0) &&& 0x0f)
  | xchdAtr1 => (m.sfr ACC &&& 0xf0) ||| (m.readValue script (m.rx 1) &&& 0x0f)
  | _ => if l.dest m = some ACC ∨ l.destAtRi m = some ACC then l.storedIn ACC script op m
      else m.sfr ACC

end Label

/-- A record that neither names a register nor assigns to `ACC` has no operation that stores
there. -/
lemma accKept_all {l : Label} (hn : l.names = false) (ha : l.setsAcc = false) (op : Byte) :
    (l.record op).code.All fun o => o.storesIn ACC = none := by
  refine (record_may l op).mono fun o ho => ?_
  cases o with
  | writed a v => exact absurd (hn.symm.trans ho) Bool.false_ne_true
  | set r v =>
    cases r with
    | acc => exact absurd (ha.symm.trans ho) Bool.false_ne_true
    | _ => rfl
  | _ => rfl

namespace Machine

variable {script : Script σ} {m m' : Machine σ}

/-! ## Instructions on the accumulator -/

/-- A record that applies a function to the accumulator leaves the result there. -/
lemma accRec_acc (f : Byte → Byte) : (Ops.accRec f).code.wp (cpuExec script) (fun _ _ m' =>
    m'.sfr ACC = f (m.sfr ACC)) m := by
  simp only [Ops.accRec, Prog.wp_bind, Cpu.wp_get, Cpu.wp_set]
  exact sfr_setSfr_self _ _ _

/-- `ACC = x;`, where the value of the operand is known beforehand. -/
lemma toAcc_acc {x : Cpu Byte} {w : Byte} (n : ℕ)
    (hx : x.wp (cpuExec script) (fun _ v _ => v = w) m) :
    (Ops.toAcc x n).code.wp (cpuExec script) (fun _ _ m' => m'.sfr ACC = w) m := by
  simp only [Ops.toAcc, Prog.wp_bind]
  refine Prog.wp_mono hx ?_
  rintro _ v m₁ rfl
  rw [Cpu.wp_set]
  exact sfr_setSfr_self _ _ _

/-- So does one that applies a function of the accumulator and `PSW`. -/
lemma accFlags_acc {r : OpRec} {f g : Byte → Byte → Byte} (hr : r.code = do
      let acc ← Cpu.get .acc
      let psw ← Cpu.get .psw
      Cpu.set .acc (f acc psw)
      Cpu.set .psw (g acc psw)) :
    r.code.wp (cpuExec script) (fun _ _ m' => m'.sfr ACC = f (m.sfr ACC) (m.sfr PSW)) m := by
  rw [hr]
  simp only [Prog.wp_bind, Cpu.wp_get, Cpu.wp_set]
  exact (sfr_setSfr_of_ne _ _ (by decide)).trans (sfr_setSfr_self _ _ _)

/-- `DA A` leaves the low byte of the adjusted sum in the accumulator. -/
lemma daA_acc : Ops.daA.code.wp (cpuExec script) (fun _ _ m' =>
    m'.sfr ACC = (Ops.daAdjust (m.sfr ACC) (m.sfr PSW)).setWidth 8) m := by
  simp only [Ops.daA, Prog.wp_bind, Cpu.wp_get, Cpu.wp_set, Prog.wp_ite, Prog.pure_eq_done,
    Prog.wp_done]
  split
  · exact (sfr_setSfr_of_ne _ _ (by decide)).trans (sfr_setSfr_self _ _ _)
  · exact sfr_setSfr_self _ _ _

/-- `MUL AB` leaves the low byte of the product in the accumulator. -/
lemma mul_acc : Ops.mul.code.wp (cpuExec script) (fun _ _ m' =>
    m'.sfr ACC = lo ((m.sfr ACC).setWidth 16 * (m.sfr B).setWidth 16)) m := by
  simp only [Ops.mul, Prog.wp_bind, Cpu.wp_get, Cpu.wp_set, CoreReg.addr]
  rw [sfr_setSfr_of_ne _ _ (by decide), sfr_setSfr_of_ne _ _ (by decide), sfr_setSfr_self]

/-- `DIV AB` leaves the quotient in the accumulator, and a division by 0 leaves the accumulator
itself. -/
lemma div_acc : Ops.div.code.wp (cpuExec script) (fun _ _ m' =>
    m'.sfr ACC = if m.sfr B = 0 then m.sfr ACC else m.sfr ACC / m.sfr B) m := by
  have hB : ∀ v, (m.setSfr PSW v).sfr B = m.sfr B := fun v => m.sfr_setSfr_of_ne v (by decide)
  have hA : ∀ v, (m.setSfr PSW v).sfr ACC = m.sfr ACC := fun v => m.sfr_setSfr_of_ne v (by decide)
  simp only [Ops.div, Prog.wp_bind, Cpu.wp_get, Cpu.wp_set, Prog.wp_ite, CoreReg.addr, hB, hA]
  split
  · rw [sfr_setSfr_of_ne _ _ (by decide), hA]
  · rw [sfr_setSfr_of_ne _ _ (by decide), sfr_setSfr_self]

/-- An operand read with `readi` is the internal cell the register points to. -/
lemma indirect_acc (i : BitVec 3) :
    (Ops.indirect i).wp (cpuExec script) (fun _ v _ => v = m.readi (m.rx i)) m := by
  simp only [Ops.indirect, Prog.wp_bind, Cpu.wp_getRx, Cpu.wp_readi]

/-- `MOVX A, @DPTR` reads the byte of external data memory that the data pointer names. -/
lemma readx_dptr_acc : Prog.wp (cpuExec script) (do
    let dptr ← Cpu.getDptr
    Cpu.readx dptr) (fun _ v _ => v = m.readx m.dptr) m := by
  simp only [Prog.wp_bind, Cpu.wp_getDptr, Cpu.wp_readx]

/-- `MOVX A, @Ri` leaves in the accumulator the byte at the register, in the page that `P2` gives.
-/
lemma movxFrom_acc (i : BitVec 3) : (Ops.movxFrom i).code.wp (cpuExec script) (fun _ _ m' =>
    m'.sfr ACC = m.readx (word m.xramP2addr (m.rx i))) m := by
  refine toAcc_acc 1 ?_
  simp only [Cpu.readx8, Prog.wp_bind, Cpu.wp_getRx, Cpu.wp_xramP2addr, Cpu.wp_readx]

/-- `XCH A, @Ri` leaves the internal cell in the accumulator. -/
lemma xchAtr_acc (i : BitVec 3) : (Ops.xchAtr i).code.wp (cpuExec script) (fun _ _ m' =>
    m'.sfr ACC = m.readi (m.rx i)) m := by
  simp only [Ops.xchAtr, Prog.wp_bind, Cpu.wp_getRx, Cpu.wp_readi, Cpu.wp_get, Cpu.wp_writei,
    Cpu.wp_set]
  exact sfr_setSfr_self _ _ _

/-! ## With an operand that is read -/

section Operand

variable (hs : ∀ a, a = ACC ∨ a = PSW → script.LeavesSfr a) (ht : m.ramsfrtrap = sfrInitTrap)

/-- The generated record with an immediate operand leaves the result in the accumulator. -/
lemma genAi_acc (o : AluOp) : (Ops.genAi o).code.wp (cpuExec script) (fun _ _ m' =>
    m'.sfr ACC = (o.apply (m.sfr ACC) (m.fetch 1) (m.sfr PSW)).1) m := by
  simp only [Ops.genAi, Prog.wp_bind, Cpu.wp_get, Cpu.wp_fetch, Cpu.wp_aluOp, Cpu.wp_set]
  exact sfr_setSfr_self _ _ _

/-- So does the one with a register operand. -/
lemma genAr_acc (o : AluOp) (op : Byte) : (Ops.genAr o op).code.wp (cpuExec script) (fun _ _ m' =>
    m'.sfr ACC = (o.apply (m.sfr ACC) (m.rx (op.setWidth 3)) (m.sfr PSW)).1) m := by
  simp only [Ops.genAr, Prog.wp_bind, Cpu.wp_get, Cpu.wp_getRx, Cpu.wp_aluOp, Cpu.wp_set]
  exact sfr_setSfr_self _ _ _

include hs ht

/-- So does the one with a direct operand, as a read of it gives it. -/
lemma genAd_acc (o : AluOp) : (Ops.genAd o).code.wp (cpuExec script) (fun _ _ m' =>
    m'.sfr ACC = (o.apply (m.sfr ACC) (m.readValue script (m.fetch 1)) (m.sfr PSW)).1) m := by
  simp only [Ops.genAd, Prog.wp_bind, Cpu.wp_get, Cpu.wp_fetch, Cpu.wp_readd, Cpu.wp_aluOp,
    Cpu.wp_set]
  intro v m₁ h₁
  rw [readValue_eq h₁, ← (readd_cases (.inr rfl) (hs PSW (.inr rfl)) ht h₁).2.1]
  exact sfr_setSfr_self _ _ _

/-- So does the one with `@Ri`, read as a direct operand. -/
lemma genRi_acc (o : AluOp) (i : BitVec 3) :
    (Ops.genRi o i).code.wp (cpuExec script) (fun _ _ m' =>
      m'.sfr ACC = (o.apply (m.sfr ACC) (m.readValue script (m.rx i)) (m.sfr PSW)).1) m := by
  simp only [Ops.genRi, Prog.wp_bind, Cpu.wp_get, Cpu.wp_getRx, Cpu.wp_readd, Cpu.wp_aluOp,
    Cpu.wp_set]
  intro v m₁ h₁
  rw [readValue_eq h₁, ← (readd_cases (.inr rfl) (hs PSW (.inr rfl)) ht h₁).2.1]
  exact sfr_setSfr_self _ _ _

omit hs ht in
/-- `MOV A, direct` leaves in the accumulator what a read of the operand gives. -/
lemma movE5_acc : Ops.movE5.code.wp (cpuExec script) (fun _ _ m' =>
    m'.sfr ACC = m.readValue script (m.fetch 1)) m := by
  refine toAcc_acc 2 ?_
  simp only [Ops.direct1, Prog.wp_bind, Cpu.wp_fetch, Cpu.wp_readd]
  exact fun v m₁ h₁ => (readValue_eq h₁).symm

/-- `XCH A, direct`. Where the operand is `ACC` itself, it is stored back, which is the same. -/
lemma xchAd_acc : Ops.xchAd.code.wp (cpuExec script) (fun _ _ m' =>
    m'.sfr ACC = m.readValue script (m.fetch 1)) m := by
  simp only [Ops.xchAd, Prog.wp_bind, Cpu.wp_get, Cpu.wp_fetch, Cpu.wp_readd, Cpu.wp_set,
    Cpu.wp_writed]
  intro v m₁ h₁ m₂ h₂
  obtain ⟨ht₁, -, hv⟩ := readd_cases (.inl rfl) (hs ACC (.inl rfl)) ht h₁
  rw [readValue_eq h₁, (writed_cases (.inl rfl) (hs ACC (.inl rfl)) (by exact ht₁) h₂).2]
  split
  · next ha => exact (hv ha).1.symm
  · exact sfr_setSfr_self _ _ _

omit hs ht in
/-- `XCHD A, @Ri` exchanges the low digit of the accumulator and keeps the high one. -/
lemma xchdAtr_acc (i : BitVec 3) : (Ops.xchdAtr i).code.wp (cpuExec script) (fun _ _ m' =>
    m'.sfr ACC = (m.sfr ACC &&& 0xf0) ||| (m.readValue script (m.rx i) &&& 0x0f)) m := by
  simp only [Ops.xchdAtr, Prog.wp_bind, Cpu.wp_get, Cpu.wp_getRx, Cpu.wp_readd, Cpu.wp_writed,
    Cpu.wp_set]
  intro v m₁ h₁ m₂ h₂
  rw [readValue_eq h₁]
  exact sfr_setSfr_self _ _ _

/-- A logical operation on the register at an address, with the accumulator as the operand. -/
lemma gen2Ia_acc (o : AluOp) : (Ops.gen2Ia o).code.wp (cpuExec script) (fun _ _ m' =>
    m'.sfr ACC = if m.fetch 1 = ACC
      then (o.apply (m.sfr ACC) (m.sfr ACC) (m.sfr PSW)).1 else m.sfr ACC) m := by
  simp only [Ops.gen2Ia, Prog.wp_bind, Cpu.wp_fetch, Cpu.wp_readd, Cpu.wp_get, Cpu.wp_aluOp,
    Cpu.wp_writed]
  intro v m₁ h₁ m₂ h₂
  obtain ⟨ht₁, hacc, hv⟩ := readd_cases (.inl rfl) (hs ACC (.inl rfl)) ht h₁
  rw [(writed_cases (.inl rfl) (hs ACC (.inl rfl)) (by exact ht₁) h₂).2,
    sfr_setSfr_of_ne _ _ (by decide), hacc]
  split
  · next ha =>
    obtain ⟨rfl, rfl⟩ := hv ha
    rfl
  · rfl

/-- The generated record that combines a register with an immediate changes the accumulator exactly
if it is that register. -/
lemma gen2Id_acc (o : AluOp) : (Ops.gen2Id o).code.wp (cpuExec script) (fun _ _ m' =>
    m'.sfr ACC = if m.fetch 1 = ACC
      then (o.apply (m.sfr ACC) (m.fetch 2) (m.sfr PSW)).1 else m.sfr ACC) m := by
  simp only [Ops.gen2Id, Prog.wp_bind, Cpu.wp_fetch, Cpu.wp_readd, Cpu.wp_aluOp, Cpu.wp_writed]
  intro v m₁ h₁ m₂ h₂
  obtain ⟨ht₁, hacc, hv⟩ := readd_cases (.inl rfl) (hs ACC (.inl rfl)) ht h₁
  rw [(writed_cases (.inl rfl) (hs ACC (.inl rfl)) (by exact ht₁) h₂).2,
    sfr_setSfr_of_ne _ _ (by decide), hacc]
  split
  · next ha =>
    obtain ⟨rfl, rfl⟩ := hv ha
    rfl
  · rfl

end Operand

/-! ## All instructions -/

/-- A record that stores to the register `a` by address. -/
lemma acc_of_store {l : Label} {op a : Byte} (hto : l.dest m = some ACC ∨ l.destAtRi m = some ACC ↔
      a = ACC)
    (hl : l.accLeft script op m = if l.dest m = some ACC ∨ l.destAtRi m = some ACC
      then l.storedIn ACC script op m else m.sfr ACC)
    (h : (l.record op).code.wp (cpuExec script) (fun _ _ m' =>
      m'.sfr ACC = if a = ACC then l.storedIn ACC script op m else m.sfr ACC) m) :
    (l.record op).code.wp (cpuExec script) (fun _ _ m' =>
      m'.sfr ACC = l.accLeft script op m) m := by
  refine Prog.wp_mono h fun _ _ m' hm' => ?_
  rw [hm', hl]
  exact if_congr hto.symm rfl rfl

/-- An instruction whose direct target is known leaves the accumulator as the table says. -/
lemma acc_of_dest {l : Label} {op a : Byte} (hd : l.dest m = some a) (hr : l.destAtRi m = none)
    (hl : l.accLeft script op m = if l.dest m = some ACC ∨ l.destAtRi m = some ACC
      then l.storedIn ACC script op m else m.sfr ACC)
    (h : (l.record op).code.wp (cpuExec script) (fun _ _ m' =>
      m'.sfr ACC = if a = ACC then l.storedIn ACC script op m else m.sfr ACC) m) :
    (l.record op).code.wp (cpuExec script) (fun _ _ m' =>
      m'.sfr ACC = l.accLeft script op m) m :=
  acc_of_store (by simp [hd, hr]) hl h

/-- So does one whose target is known to be `@Ri`. -/
lemma acc_of_atRi {l : Label} {op a : Byte} (hd : l.dest m = none) (hr : l.destAtRi m = some a)
    (hl : l.accLeft script op m = if l.dest m = some ACC ∨ l.destAtRi m = some ACC
      then l.storedIn ACC script op m else m.sfr ACC)
    (h : (l.record op).code.wp (cpuExec script) (fun _ _ m' =>
      m'.sfr ACC = if a = ACC then l.storedIn ACC script op m else m.sfr ACC) m) :
    (l.record op).code.wp (cpuExec script) (fun _ _ m' =>
      m'.sfr ACC = l.accLeft script op m) m :=
  acc_of_store (by simp [hd, hr]) hl h

/-- What every record leaves in the accumulator is what the table `accLeft` says. -/
theorem record_acc (hs : ∀ a, a = ACC ∨ a = PSW → script.LeavesSfr a)
    (ht : m.ramsfrtrap = sfrInitTrap) (l : Label) (op : Byte) :
    (l.record op).code.wp (cpuExec script) (fun _ _ m' =>
      m'.sfr ACC = l.accLeft script op m) m := by
  have ha : ACC = ACC ∨ ACC = PSW := .inl rfl
  have hacc : script.LeavesSfr ACC := hs ACC ha
  by_cases hkept : l.names = false ∧ l.setsAcc = false
  · have hkeep := all_keeps ha hacc ht (accKept_all hkept.1 hkept.2 op)
    cases l <;> first
      | exact absurd hkept.1 Bool.false_ne_true.symm
      | exact absurd hkept.2 Bool.false_ne_true.symm
      | exact hkeep
  cases l with
  | incIram => exact acc_of_dest rfl rfl rfl (modIram_sfr ha hacc ht _)
  | decIram => exact acc_of_dest rfl rfl rfl (modIram_sfr ha hacc ht _)
  | incAtr0 => exact acc_of_atRi rfl rfl rfl (modAtr_sfr ha hacc ht _ 0)
  | incAtr1 => exact acc_of_atRi rfl rfl rfl (modAtr_sfr ha hacc ht _ 1)
  | decAtr0 => exact acc_of_atRi rfl rfl rfl (modAtr_sfr ha hacc ht _ 0)
  | decAtr1 => exact acc_of_atRi rfl rfl rfl (modAtr_sfr ha hacc ht _ 1)
  | mov75 =>
    exact acc_of_dest rfl rfl rfl (toIram_sfr ha hacc 3 ((Cpu.wp_fetch 2).2 ⟨ht, rfl, rfl⟩))
  | mov86 => exact acc_of_dest rfl rfl rfl (toIram_indirect_sfr ha hacc ht 0 2)
  | mov87 => exact acc_of_dest rfl rfl rfl (toIram_indirect_sfr ha hacc ht 1 2)
  | movDr =>
    exact acc_of_dest rfl rfl rfl (toIram_sfr ha hacc 2 ((Cpu.wp_getRx _).2 ⟨ht, rfl, rfl⟩))
  | movF5 =>
    exact acc_of_dest rfl rfl rfl (toIram_sfr ha hacc 2 ((Cpu.wp_get .acc).2 ⟨ht, rfl, rfl⟩))
  | popD => exact acc_of_dest rfl rfl rfl (popD_sfr ha hacc ht)
  | mov85 => exact acc_of_dest rfl rfl rfl (mov85_sfr ha hacc ht)
  | djnzI => exact acc_of_dest rfl rfl rfl (djnzI_sfr ha hacc ht)
  | gen2Ia o => exact acc_of_dest rfl rfl rfl (gen2Ia_acc hs ht o)
  | gen2Id o => exact acc_of_dest rfl rfl rfl (gen2Id_acc hs ht o)
  | jbc => exact acc_of_dest rfl rfl rfl (jbc_sfr ha hacc ht)
  | clrB => exact acc_of_dest rfl rfl rfl (clrB_sfr ha hacc ht)
  | setB => exact acc_of_dest rfl rfl rfl (setB_sfr ha hacc ht)
  | cplBit => exact acc_of_dest rfl rfl rfl (cplBit_sfr ha hacc ht)
  | movBitC => exact acc_of_dest rfl rfl rfl (movBitC_sfr ha hacc ht)
  | genAi o => exact genAi_acc o
  | genAd o => exact genAd_acc hs ht o
  | genR0 o => exact genRi_acc hs ht o 0
  | genR1 o => exact genRi_acc hs ht o 1
  | genAr o => exact genAr_acc o op
  | incA => exact accRec_acc _
  | decA => exact accRec_acc _
  | rrA => exact accRec_acc _
  | rlA => exact accRec_acc _
  | swapA => exact accRec_acc _
  | clrA => exact accRec_acc _
  | cplA => exact accRec_acc _
  | rrcA => exact accFlags_acc (r := Ops.rrcA) rfl
  | rlcA => exact accFlags_acc (r := Ops.rlcA) rfl
  | daA => exact daA_acc
  | mul => exact mul_acc
  | div => exact div_acc
  | mov74 => exact toAcc_acc 2 ((Cpu.wp_fetch 1).2 rfl)
  | movE5 => exact movE5_acc
  | movE6 => exact toAcc_acc 1 (indirect_acc 0)
  | movE7 => exact toAcc_acc 1 (indirect_acc 1)
  | movAr => exact toAcc_acc 1 ((Cpu.wp_getRx _).2 rfl)
  | movc83 =>
    simp only [Label.record, Ops.movc83, Prog.wp_bind, Cpu.wp_getPc, Cpu.wp_get, Cpu.wp_readc,
      Cpu.wp_set]
    exact sfr_setSfr_self _ _ _
  | movcAd =>
    simp only [Label.record, Ops.movcAd, Prog.wp_bind, Cpu.wp_getDptr, Cpu.wp_get, Cpu.wp_readc,
      Cpu.wp_set]
    exact sfr_setSfr_self _ _ _
  | movxE0 => exact toAcc_acc 1 readx_dptr_acc
  | movxE2 => exact movxFrom_acc 0
  | movxE3 => exact movxFrom_acc 1
  | xchAd => exact xchAd_acc hs ht
  | xchC6 => exact xchAtr_acc 0
  | xchC7 => exact xchAtr_acc 1
  | xchAr =>
    simp only [Label.record, Ops.xchAr, Prog.wp_bind, Cpu.wp_get, Cpu.wp_getRx, Cpu.wp_set,
      Cpu.wp_setRx]
    exact ((m.setSfr ACC _).setCell_apply _ _ _).trans
      ((if_neg (regCell_ne_sfr m.reg _ (by decide)).symm).trans (sfr_setSfr_self _ _ _))
  | xchdAtr0 => exact xchdAtr_acc 0
  | xchdAtr1 => exact xchdAtr_acc 1
  | _ => exact absurd ⟨rfl, rfl⟩ hkept

/-- What the code behind an opcode leaves in `ACC`. -/
theorem dispatch_acc (hs : ∀ a, a = ACC ∨ a = PSW → script.LeavesSfr a)
    (ht : m.ramsfrtrap = sfrInitTrap) {op : Byte} (h : dispatch script op m = some m') :
    m'.sfr ACC = (insnmap op).accLeft script op m :=
  dispatch_of_wp (OpRec.wp_emit (fun _ _ h => h) (record_acc hs ht _ _)) h

end Machine

end Emu51

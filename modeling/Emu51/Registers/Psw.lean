import Emu51.Machine.Effects
import Emu51.Machine.Profile
import Emu51.Machine.Setup

/-!
# What an instruction does to `PSW`

With the trap table of `sfr_init`, `PSW` is an ordinary cell, and an instruction changes it in one
of two ways: because `PSW` is the register the instruction stores to (`Machine.pswStore`), or
through the flags of its operation (`Label.PswBy`). `exec_psw` says this of all opcodes; what the
instruction set preserves of `PSW` follows from it.
-/

namespace Emu51

variable {σ : Type}

/-- The hooks of the script poke only special function registers, and not `a`. -/
def Script.LeavesSfr (script : Script σ) (a : Byte) : Prop :=
  script.PokesOnly fun b _ => 0x80 ≤ b ∧ b ≠ a

/-- The hooks of the script poke only special function registers, and not `PSW`. -/
def Script.LeavesPsw (script : Script σ) : Prop :=
  script.PokesOnly fun a _ => 0x80 ≤ a ∧ a ≠ PSW

/-- A script that leaves `PSW` alone is one that leaves this register alone. -/
lemma Script.LeavesPsw.leavesSfr {script : Script σ} (h : script.LeavesPsw) :
    script.LeavesSfr PSW := h

/-- The value an operation stores in a register it names. -/
def CpuOp.storesIn (a : Byte) : CpuOp → Option Byte
  | .writed b v => if b = a then some v else none
  | .set r v => if r.addr = a then some v else none
  | _ => none

/-- What is added outside a mask does not show inside it. -/
lemma and_or_and {v w mask : Byte} (h : w &&& mask = 0) :
    (v &&& mask ||| w) &&& mask = v &&& mask := by
  rw [BitVec.and_or_distrib_right, h, BitVec.and_assoc, BitVec.and_self]
  exact BitVec.or_zero

/-- Bits that agree under a mask agree under a smaller one. -/
lemma and_eq_of_subset {p p' mask sub : Byte} (hsub : mask &&& sub = sub)
    (h : p' &&& mask = p &&& mask) : p' &&& sub = p &&& sub := by
  rw [← hsub, ← BitVec.and_assoc, h, BitVec.and_assoc]

/-- Arithmetic replaces three flags and leaves the other five bits. -/
lemma flags_and_rest (p : Byte) (c ac ov : Bool) :
    (p &&& ~~~(PSW_C ||| PSW_AC ||| PSW_OV) ||| flagIf PSW_C c ||| flagIf PSW_AC ac |||
      flagIf PSW_OV ov) &&& 0x3b = p &&& 0x3b := by
  revert p
  cases c <;> cases ac <;> cases ov <;> decide

/-- So does every operation of the arithmetic unit, the logical ones without any flag. -/
lemma apply_and_rest (o : AluOp) (a b p : Byte) : (o.apply a b p).2 &&& 0x3b = p &&& 0x3b := by
  cases o with
  | add =>
    refine (flags_and_rest _ _ _ _).trans ?_
    exact and_eq_of_subset (by decide) (show p &&& ~~~PSW_C &&& ~~~PSW_C = p &&& ~~~PSW_C by
      rw [BitVec.and_assoc, BitVec.and_self])
  | addc => exact flags_and_rest _ _ _ _
  | subb => exact flags_and_rest _ _ _ _
  | orl => rfl
  | anl => rfl
  | xrl => rfl

/-- Setting the carry leaves the other flags of `PSW` as they are. -/
lemma or_carry_and (psw : Byte) : (psw ||| PSW_C) &&& ~~~PSW_C = psw &&& ~~~PSW_C := by
  revert psw
  decide

/-- Replacing the carry leaves the other flags of `PSW` as they are. -/
lemma carry_or_and (psw : Byte) (c : Bool) :
    (psw &&& ~~~PSW_C ||| flagIf PSW_C c) &&& ~~~PSW_C = psw &&& ~~~PSW_C := by
  revert psw
  cases c <;> decide

namespace Machine

variable {script : Script σ} {m m' : Machine σ} {a : Byte}

/-! ## Accesses to registers that are ordinary cells

With the trap table of `sfr_init`, neither `PSW` nor `ACC` is trapped. The lemmas are about both. -/

/-- Neither the accumulator nor `PSW` is trapped. -/
lemma untrapped_of_eq (ha : a = ACC ∨ a = PSW) : sfrInitTrap a = false := by
  rcases ha with rfl | rfl <;> decide

/-- Neither of the two is the stack pointer. -/
lemma ne_sp_of_eq (ha : a = ACC ∨ a = PSW) : a ≠ SP := by
  rcases ha with rfl | rfl <;> decide

/-- Effects on special function registers do not reach the lower internal RAM. -/
lemma SfrEffects.lower {ok : Byte → Byte → Prop} (hok : ∀ a v, ok a v → 0x80 ≤ a)
    (ht : m.ramsfrtrap = sfrInitTrap) (h : SfrEffects ok m m') {c : Byte} (hc : c < 0x80) :
    m'.sfr c = m.sfr c := by
  refine h.sfr_of_untrapped (sfrInitTrap_of_lt hc) (fun a v hv => ?_) ht
  rintro rfl
  exact absurd (hok a v hv) (BitVec.not_le.2 hc)

/-- Reading a register leaves the working registers alone, whatever its hook does. -/
lemma readd_rx (hs : script.LeavesSfr a) (ht : m.ramsfrtrap = sfrInitTrap) {b v : Byte}
    (h : readd script b m = some (v, m')) (n : BitVec 3) : m'.rx n = m.rx n := by
  have htrap : m.ramsfrtrap PSW = false := by
    rw [ht]
    decide
  have hreg : m'.reg = m.reg := (readd_effects hs h).reg htrap
  have hlt : m.reg.1 + n.setWidth 8 < 0x80 := by
    have h20 := regCell_addr_lt m.reg n
    rw [BitVec.lt_def] at h20 ⊢
    exact Nat.lt_trans h20 (by decide)
  rw [rx, hreg]
  exact (readd_effects hs h).lower (fun _ _ hok => hok.1) ht hlt

/-- `PSW` is read as a plain cell, with no parity computed for it. -/
lemma readd_PSW (ht : m.ramsfrtrap = sfrInitTrap) :
    readd script PSW m = some (m.sfr PSW, m) :=
  readd_of_untrapped (by rw [ht]; decide)

/-- The value `readd` delivers (`0` where the emulator stops). -/
def readValue (script : Script σ) (a : Byte) (m : Machine σ) : Byte :=
  ((m.readd script a).map fun y => y.1).getD 0

/-- The value a read that goes through has delivered. -/
lemma readValue_eq {b v : Byte} (h : readd script b m = some (v, m')) :
    m.readValue script b = v := by
  rw [readValue, h, Option.map_some, Option.getD_some]

/-- What a read of any register leaves of `a`, and what it returns if it is `a` that is read. -/
lemma readd_cases (ha : a = ACC ∨ a = PSW) (hs : script.LeavesSfr a)
    (ht : m.ramsfrtrap = sfrInitTrap) {b v : Byte} (h : readd script b m = some (v, m')) :
    m'.ramsfrtrap = sfrInitTrap ∧ m'.sfr a = m.sfr a ∧ (b = a → v = m.sfr a ∧ m' = m) := by
  have heffects := readd_effects hs h
  refine ⟨heffects.fixed.ramsfrtrap.trans ht,
    heffects.sfr_of_untrapped (untrapped_of_eq ha) (fun _ _ hok => hok.2) ht, ?_⟩
  rintro rfl
  have hplain : readd script b m = some (m.sfr b, m) :=
    readd_of_untrapped (by rw [ht, untrapped_of_eq ha])
  obtain ⟨hv, hm⟩ := Prod.mk.inj (Option.some.inj (hplain.symm.trans h))
  exact ⟨hv.symm, hm.symm⟩

/-- The contents of `a` after a write to any register. -/
lemma writed_cases (ha : a = ACC ∨ a = PSW) (hs : script.LeavesSfr a)
    (ht : m.ramsfrtrap = sfrInitTrap) {b v : Byte} (h : writed script b v m = some m') :
    m'.ramsfrtrap = sfrInitTrap ∧ m'.sfr a = if b = a then v else m.sfr a := by
  by_cases hb : b = a
  · subst hb
    have hplain : writed script b v m = some (m.setSfr b v) :=
      writed_of_untrapped (by rw [ht, untrapped_of_eq ha])
    obtain rfl := Option.some.inj (hplain.symm.trans h)
    exact ⟨ht, by rw [if_pos rfl, sfr_setSfr_self]⟩
  · have hs' : script.PokesOnly fun b _ => b ≠ a := fun g b hook hk w d =>
      (hs g b hook hk w d).mono fun o ho => by
        cases o <;> first | exact ho.2 | trivial
    have heffects := writed_effects hs' hb h
    rw [if_neg hb]
    exact ⟨heffects.fixed.ramsfrtrap.trans ht,
      heffects.sfr_of_untrapped (untrapped_of_eq ha) (fun _ _ hok => hok) ht⟩

/-- An operation changes the accumulator and `PSW` by storing there, and in no other way. -/
lemma cpuExec_storesIn (ha : a = ACC ∨ a = PSW) (hs : script.LeavesSfr a)
    (ht : m.ramsfrtrap = sfrInitTrap) {o : CpuOp} {r : o.Res}
    (h : cpuExec script o m = some (r, m')) : m'.sfr a = (o.storesIn a).getD (m.sfr a) := by
  have hle : 0x80 ≤ a := by rcases ha with rfl | rfl <;> decide
  cases o with
  | readd b => exact (readd_cases ha hs ht h).2.1
  | writed b v =>
    obtain ⟨m₁, hm₁, heq⟩ := Option.map_eq_some_iff.1 h
    obtain ⟨-, rfl⟩ := Prod.mk.inj heq
    rw [(writed_cases ha hs ht hm₁).2, CpuOp.storesIn, apply_ite (Option.getD · (m.sfr a)),
      Option.getD_some, Option.getD_none]
  | set q v =>
    obtain ⟨-, rfl⟩ := Prod.mk.inj (Option.some.inj h)
    by_cases hq : q.addr = a
    · rw [CpuOp.storesIn, if_pos hq, hq]
      exact m.sfr_setSfr_self a v
    · rw [CpuOp.storesIn, if_neg hq]
      exact m.sfr_setSfr_of_ne v (Ne.symm hq)
  | writex b v =>
    obtain ⟨-, rfl⟩ := Prod.mk.inj (Option.some.inj h)
    exact congrFun (m.sameCore_writex b v).ramsfr (dataCell a)
  | writei b v =>
    obtain ⟨-, rfl⟩ := Prod.mk.inj (Option.some.inj h)
    exact (m.setCell_apply _ _ v).trans (if_neg (iramCell_ne_sfr b hle).symm)
  | setRx n v =>
    obtain ⟨-, rfl⟩ := Prod.mk.inj (Option.some.inj h)
    have hne : dataCell a ≠ regCell m.reg n :=
      (regCell_ne_sfr m.reg n (BitVec.le_trans (by decide) hle)).symm
    exact (m.setCell_apply _ _ v).trans (if_neg hne)
  | setDph v =>
    obtain ⟨-, rfl⟩ := Prod.mk.inj (Option.some.inj h)
    have hne : a ≠ m.dph := by
      obtain ⟨d, rfl | rfl⟩ := m.dph <;> rcases ha with rfl | rfl <;> decide
    exact m.sfr_setSfr_of_ne v hne
  | setDpl v =>
    obtain ⟨-, rfl⟩ := Prod.mk.inj (Option.some.inj h)
    have hne : a ≠ m.dpl := by
      obtain ⟨d, rfl | rfl⟩ := m.dpl <;> rcases ha with rfl | rfl <;> decide
    exact m.sfr_setSfr_of_ne v hne
  | _ =>
    obtain ⟨-, rfl⟩ := Prod.mk.inj (Option.some.inj h)
    rfl

/-- Code that stores nothing in the register by address or by name keeps it. -/
lemma all_keeps (ha : a = ACC ∨ a = PSW) (hs : script.LeavesSfr a)
    (ht : m.ramsfrtrap = sfrInitTrap) {α : Type} {p : Cpu α}
    (hp : p.All fun o => o.storesIn a = none) :
    p.wp (cpuExec script) (fun _ _ m' => m'.sfr a = m.sfr a) m := by
  refine Prog.wp_mono (hp.wp
    (I := fun m' => m'.ramsfrtrap = sfrInitTrap ∧ m'.sfr a = m.sfr a) ?_ ⟨ht, rfl⟩) ?_
  · rintro o s r s' ho ⟨htrap, hcell⟩ he
    refine ⟨(cpuExec_setup he).ramsfrtrap.trans htrap, ?_⟩
    rw [cpuExec_storesIn ha hs htrap he, ho, Option.getD_none]
    exact hcell
  · exact fun _ _ _ h => h.2

end Machine

/-! ## Instructions that leave `PSW` alone -/

/-- A quiet record has no operation that stores in `PSW`. -/
lemma quiet_all {l : Label} (hl : l.quiet = true) (op : Byte) :
    (l.record op).code.All fun o => o.storesIn PSW = none := by
  refine (record_may l op).mono fun o ho => ?_
  have hflags : l.may .flags = false := congrArg Bool.not hl
  cases o with
  | writed a v => exact absurd ((Label.names_of_quiet hl).symm.trans ho) Bool.false_ne_true
  | set r v =>
    cases r with
    | psw => exact absurd (hflags.symm.trans ho) Bool.false_ne_true
    | _ => rfl
  | _ => rfl

namespace Machine

variable {script : Script σ} {m m' : Machine σ} {a : Byte}

/-! ## Instructions that store to a register they name -/

section Stores

variable (ha : a = ACC ∨ a = PSW) (hs : script.LeavesSfr a) (ht : m.ramsfrtrap = sfrInitTrap)
include ha hs ht

/-- `INC direct` and the like change the register exactly if it is their operand. -/
lemma modIram_sfr (f : Byte → Byte) : (Ops.modIram f).code.wp (cpuExec script) (fun _ _ m' =>
    m'.sfr a = if m.fetch 1 = a then f (m.sfr a) else m.sfr a) m := by
  simp only [Ops.modIram, Prog.wp_bind, Cpu.wp_fetch, Cpu.wp_readd, Cpu.wp_writed]
  intro v m₁ h₁ m₂ h₂
  obtain ⟨ht₁, hcell, hv⟩ := readd_cases ha hs ht h₁
  rw [(writed_cases ha hs ht₁ h₂).2, hcell]
  split
  · next ha => rw [(hv ha).1]
  · rfl

/-- `INC @Ri` and `DEC @Ri` change the register exactly if its address is in `Ri`, as their records
write directly. -/
lemma modAtr_sfr (f : Byte → Byte) (i : BitVec 3) :
    (Ops.modAtr f i).code.wp (cpuExec script) (fun _ _ m' =>
      m'.sfr a = if m.rx i = a then f (m.sfr a) else m.sfr a) m := by
  simp only [Ops.modAtr, Prog.wp_bind, Cpu.wp_getRx, Cpu.wp_readd, Cpu.wp_writed]
  intro v m₁ h₁ m₂ h₂
  obtain ⟨ht₁, hcell, hv⟩ := readd_cases ha hs ht h₁
  rw [(writed_cases ha hs ht₁ h₂).2, hcell]
  split
  · next ha => rw [(hv ha).1]
  · rfl

omit ht in
/-- `toIram`, for an operand that is read without touching `a`. -/
lemma toIram_sfr {x : Cpu Byte} {w : Byte} (n : ℕ)
    (hx : x.wp (cpuExec script) (fun _ v m₁ =>
      m₁.ramsfrtrap = sfrInitTrap ∧ m₁.sfr a = m.sfr a ∧ v = w) m) :
    (Ops.toIram x n).code.wp (cpuExec script) (fun _ _ m' =>
      m'.sfr a = if m.fetch 1 = a then w else m.sfr a) m := by
  simp only [Ops.toIram, Prog.wp_bind, Cpu.wp_fetch]
  refine Prog.wp_mono hx ?_
  rintro _ v m₁ ⟨ht₁, hcell, rfl⟩
  rw [Cpu.wp_writed]
  intro m₂ h₂
  rw [(writed_cases ha hs ht₁ h₂).2, hcell]

/-- `MOV direct, @Ri` changes the register exactly if it is the target, to the internal cell. -/
lemma toIram_indirect_sfr (i : BitVec 3) (n : ℕ) :
    (Ops.toIram (Ops.indirect i) n).code.wp (cpuExec script) (fun _ _ m' =>
      m'.sfr a = if m.fetch 1 = a then m.readi (m.rx i) else m.sfr a) m := by
  refine toIram_sfr ha hs n ?_
  simp only [Ops.indirect, Prog.wp_bind, Cpu.wp_getRx, Cpu.wp_readi]
  exact ⟨ht, trivial, trivial⟩

/-- `POP direct` changes the register exactly if it is the operand, to the byte on top of the stack.
-/
lemma popD_sfr : Ops.popD.code.wp (cpuExec script) (fun _ _ m' =>
    m'.sfr a = if m.fetch 1 = a then (m.setSfr SP (m.sfr SP - 1)).readi (m.sfr SP)
      else m.sfr a) m := by
  refine toIram_sfr ha hs 2 (Cpu.wp_pop.2 ⟨ht, ?_, rfl⟩)
  exact m.sfr_setSfr_of_ne _ (ne_sp_of_eq ha)

/-- `MOV direct, direct` changes the register exactly if it is the target, to what a read of the
source gives. -/
lemma mov85_sfr : Ops.mov85.code.wp (cpuExec script) (fun _ _ m' =>
    m'.sfr a = if m.fetch 2 = a then m.readValue script (m.fetch 1) else m.sfr a) m := by
  simp only [Ops.mov85, Ops.direct1, Prog.wp_bind, Cpu.wp_fetch, Cpu.wp_readd, Cpu.wp_writed]
  intro v m₁ h₁ m₂ h₂
  obtain ⟨ht₁, hcell, -⟩ := readd_cases ha hs ht h₁
  rw [(writed_cases ha hs ht₁ h₂).2, hcell, readValue_eq h₁]

/-- `DJNZ direct, rel` counts the register down exactly if it is the operand. -/
lemma djnzI_sfr : Ops.djnzI.code.wp (cpuExec script) (fun _ _ m' =>
    m'.sfr a = if m.fetch 1 = a then m.sfr a - 1 else m.sfr a) m := by
  simp only [Ops.djnzI, Prog.wp_bind, Cpu.wp_fetch, Cpu.wp_readd]
  intro v m₁ h₁
  obtain ⟨ht₁, hcell, hv⟩ := readd_cases ha hs ht h₁
  have hstore : ∀ m₂ : Machine σ, m₂.ramsfrtrap = sfrInitTrap → m₂.sfr a = m₁.sfr a →
      ∀ m₃, m₂.writed script (m.fetch 1) (v - 1) = some m₃ →
        m₃.sfr a = if m.fetch 1 = a then m.sfr a - 1 else m.sfr a := by
    intro m₂ ht₂ hcell₂ m₃ h₃
    rw [(writed_cases ha hs ht₂ h₃).2, hcell₂, hcell]
    split
    · next ha => rw [(hv ha).1]
    · rfl
  rw [Prog.wp_ite]
  split
  · rw [Prog.wp_bind, Cpu.wp_branch, Cpu.wp_writed]
    exact hstore _ ht₁ rfl
  · rw [Cpu.wp_writed]
    exact hstore _ ht₁ rfl

/-! ### Bit instructions -/

/-- Writing a bit changes the register exactly if the bit is one of its own. -/
lemma writeb_sfr (bit : Byte) (c : Bool) : (Cpu.writeb bit c).wp (cpuExec script) (fun _ _ m' =>
    m'.sfr a = if Cpu.bitaddr bit = a then Cpu.withBit (m.sfr a) (Cpu.bitMask bit) c
      else m.sfr a) m := by
  simp only [Cpu.writeb, Prog.wp_bind, Cpu.wp_readd, Cpu.wp_writed]
  intro v m₁ h₁ m₂ h₂
  obtain ⟨ht₁, hcell, hv⟩ := readd_cases ha hs ht h₁
  rw [(writed_cases ha hs ht₁ h₂).2, hcell]
  split
  · next ha => rw [(hv ha).1]
  · rfl

/-- `CLR bit` clears the bit in the register, if it is one of its own. -/
lemma clrB_sfr : Ops.clrB.code.wp (cpuExec script) (fun _ _ m' =>
    m'.sfr a = if Cpu.bitaddr (m.fetch 1) = a
      then Cpu.withBit (m.sfr a) (Cpu.bitMask (m.fetch 1)) false else m.sfr a) m := by
  simp only [Ops.clrB, Prog.wp_bind, Cpu.wp_fetch]
  exact writeb_sfr ha hs ht _ _

/-- `SETB bit` sets the bit in the register, if it is one of its own. -/
lemma setB_sfr : Ops.setB.code.wp (cpuExec script) (fun _ _ m' =>
    m'.sfr a = if Cpu.bitaddr (m.fetch 1) = a
      then m.sfr a ||| Cpu.bitMask (m.fetch 1) else m.sfr a) m := by
  simp only [Ops.setB, Prog.wp_bind, Cpu.wp_fetch, Cpu.wp_readd, Cpu.wp_writed]
  intro v m₁ h₁ m₂ h₂
  obtain ⟨ht₁, hcell, hv⟩ := readd_cases ha hs ht h₁
  rw [(writed_cases ha hs ht₁ h₂).2, hcell]
  split
  · next ha => rw [(hv ha).1]
  · rfl

/-- `CPL bit` inverts the bit in the register, if it is one of its own. -/
lemma cplBit_sfr : Ops.cplBit.code.wp (cpuExec script) (fun _ _ m' =>
    m'.sfr a = if Cpu.bitaddr (m.fetch 1) = a
      then Cpu.withBit (m.sfr a) (Cpu.bitMask (m.fetch 1))
        (!(m.sfr a &&& Cpu.bitMask (m.fetch 1) != 0))
      else m.sfr a) m := by
  simp only [Ops.cplBit, Cpu.readb, Prog.wp_bind, Cpu.wp_fetch, Cpu.wp_readd, Prog.pure_eq_done,
    Prog.wp_done]
  intro v m₁ h₁
  obtain ⟨ht₁, hcell, hv⟩ := readd_cases ha hs ht h₁
  refine Prog.wp_mono (writeb_sfr ha hs ht₁ _ _) ?_
  intro _ _ m₂ h₂
  rw [h₂, hcell]
  split
  · next ha => rw [(hv ha).1]
  · rfl

/-- `MOV bit, C` puts the carry into the bit, if it is one of the register's own. -/
lemma movBitC_sfr : Ops.movBitC.code.wp (cpuExec script) (fun _ _ m' =>
    m'.sfr a = if Cpu.bitaddr (m.fetch 1) = a
      then Cpu.withBit (m.sfr a) (Cpu.bitMask (m.fetch 1)) (m.sfr PSW &&& PSW_C != 0)
      else m.sfr a) m := by
  simp only [Ops.movBitC, Prog.wp_bind, Cpu.wp_fetch, Cpu.wp_get]
  exact writeb_sfr ha hs ht _ _

/-- If the bit is clear, `JBC` stores nothing, and clearing the bit would change nothing. -/
lemma jbc_sfr : Ops.jbc.code.wp (cpuExec script) (fun _ _ m' =>
    m'.sfr a = if Cpu.bitaddr (m.fetch 1) = a
      then m.sfr a &&& ~~~Cpu.bitMask (m.fetch 1) else m.sfr a) m := by
  simp only [Ops.jbc, Prog.wp_bind, Cpu.wp_fetch, Cpu.wp_advance, Cpu.wp_readd]
  intro v m₁ h₁
  obtain ⟨ht₁, hcell, hv⟩ := readd_cases (m := m.setPc (m.pc + 3)) ha hs ht h₁
  rw [Prog.wp_ite]
  split
  · simp only [Prog.wp_bind, Cpu.wp_readd, Cpu.wp_writed, Cpu.wp_branch]
    intro w m₂ h₂ m₃ h₃
    obtain ⟨ht₂, hcell₂, hw⟩ := readd_cases ha hs ht₁ h₂
    have hcell₃ := (writed_cases ha hs ht₂ h₃).2
    rw [hcell₂, hcell] at hcell₃
    refine hcell₃.trans ?_
    split
    · next ha => rw [(hw ha).1, hcell]; rfl
    · rfl
  · next hclear =>
    rw [Prog.pure_eq_done, Prog.wp_done, hcell]
    split
    · next ha =>
      rw [(hv ha).1] at hclear
      exact (andNot_of_and_eq_zero (not_not.1 hclear)).symm
    · rfl

end Stores

section PswStores

variable (hs : script.LeavesSfr PSW) (ht : m.ramsfrtrap = sfrInitTrap)
include hs ht

/-- `XCHD A, @Ri` changes `PSW` exactly if `Ri` holds its address, as the record reads and writes
directly. -/
lemma xchdAtr_psw (i : BitVec 3) : (Ops.xchdAtr i).code.wp (cpuExec script) (fun _ _ m' =>
    m'.sfr PSW = if m.rx i = PSW then (m.sfr ACC &&& 0x0f) ||| (m.sfr PSW &&& 0xf0)
      else m.sfr PSW) m := by
  simp only [Ops.xchdAtr, Prog.wp_bind, Cpu.wp_get, Cpu.wp_getRx, Cpu.wp_readd, Cpu.wp_writed,
    Cpu.wp_set]
  intro v m₁ h₁ m₂ h₂
  obtain ⟨ht₁, hpsw, hv⟩ := readd_cases (.inr rfl) hs ht h₁
  rw [sfr_setSfr_of_ne _ _ (by decide), (writed_cases (.inr rfl) hs ht₁ h₂).2, readd_rx hs ht h₁,
    hpsw]
  split
  · next ha => rw [(hv ha).1, CoreReg.addr]
  · rfl

/-- `XCH A, direct` changes `PSW` exactly if it is the operand. -/
lemma xchAd_psw : Ops.xchAd.code.wp (cpuExec script) (fun _ _ m' =>
    m'.sfr PSW = if m.fetch 1 = PSW then m.sfr ACC else m.sfr PSW) m := by
  simp only [Ops.xchAd, Prog.wp_bind, Cpu.wp_get, Cpu.wp_fetch, Cpu.wp_readd, Cpu.wp_set,
    Cpu.wp_writed]
  intro v m₁ h₁ m₂ h₂
  obtain ⟨ht₁, hpsw, -⟩ := readd_cases (.inr rfl) hs ht h₁
  rw [(writed_cases (.inr rfl) hs (by exact ht₁) h₂).2, sfr_setSfr_of_ne _ _ (by decide), hpsw,
    CoreReg.addr]

/-- `gen2`, where the operand and the result are at the same address. -/
lemma gen2Ia_psw (o : AluOp) : (Ops.gen2Ia o).code.wp (cpuExec script) (fun _ _ m' =>
    (m.fetch 1 = PSW → m'.sfr PSW = (o.apply (m.sfr PSW) (m.sfr ACC) (m.sfr PSW)).1) ∧
    (m.fetch 1 ≠ PSW → ∃ a b, m'.sfr PSW = (o.apply a b (m.sfr PSW)).2)) m := by
  simp only [Ops.gen2Ia, Prog.wp_bind, Cpu.wp_fetch, Cpu.wp_readd, Cpu.wp_get, Cpu.wp_aluOp,
    Cpu.wp_writed]
  intro v m₁ h₁ m₂ h₂
  obtain ⟨ht₁, hpsw, hv⟩ := readd_cases (.inr rfl) hs ht h₁
  rw [(writed_cases (.inr rfl) hs (by exact ht₁) h₂).2, sfr_setSfr_self, hpsw]
  constructor
  · intro ha
    rw [if_pos ha, (hv ha).1, (hv ha).2, CoreReg.addr]
  · intro ha
    rw [if_neg ha]
    exact ⟨_, _, rfl⟩

/-- The generated record that combines a register with an immediate leaves its result in `PSW` if
that is the register, and the operation's flags otherwise. -/
lemma gen2Id_psw (o : AluOp) : (Ops.gen2Id o).code.wp (cpuExec script) (fun _ _ m' =>
    (m.fetch 1 = PSW → m'.sfr PSW = (o.apply (m.sfr PSW) (m.fetch 2) (m.sfr PSW)).1) ∧
    (m.fetch 1 ≠ PSW → ∃ a b, m'.sfr PSW = (o.apply a b (m.sfr PSW)).2)) m := by
  simp only [Ops.gen2Id, Prog.wp_bind, Cpu.wp_fetch, Cpu.wp_readd, Cpu.wp_aluOp, Cpu.wp_writed]
  intro v m₁ h₁ m₂ h₂
  obtain ⟨ht₁, hpsw, hv⟩ := readd_cases (.inr rfl) hs ht h₁
  rw [(writed_cases (.inr rfl) hs (by exact ht₁) h₂).2, sfr_setSfr_self, hpsw]
  constructor
  · intro ha
    rw [if_pos ha, (hv ha).1, (hv ha).2]
  · intro ha
    rw [if_neg ha]
    exact ⟨_, _, rfl⟩

end PswStores

/-! ## Instructions that set flags -/

section Flags

variable (hs : script.LeavesSfr PSW) (ht : m.ramsfrtrap = sfrInitTrap)
include hs ht

omit hs ht in
/-- The generated record with an immediate operand leaves the flags of the operation in `PSW`. -/
lemma genAi_psw (o : AluOp) : (Ops.genAi o).code.wp (cpuExec script) (fun _ _ m' =>
    ∃ a b, m'.sfr PSW = (o.apply a b (m.sfr PSW)).2) m := by
  simp only [Ops.genAi, Prog.wp_bind, Cpu.wp_get, Cpu.wp_fetch, Cpu.wp_aluOp, Cpu.wp_set]
  exact ⟨_, _, by rw [sfr_setSfr_of_ne _ _ (by decide), sfr_setSfr_self]⟩

/-- So does the one with a direct operand. -/
lemma genAd_psw (o : AluOp) : (Ops.genAd o).code.wp (cpuExec script) (fun _ _ m' =>
    ∃ a b, m'.sfr PSW = (o.apply a b (m.sfr PSW)).2) m := by
  simp only [Ops.genAd, Prog.wp_bind, Cpu.wp_get, Cpu.wp_fetch, Cpu.wp_readd, Cpu.wp_aluOp,
    Cpu.wp_set]
  intro v m₁ h₁
  refine ⟨m.sfr ACC, v, ?_⟩
  rw [sfr_setSfr_of_ne _ _ (by decide), sfr_setSfr_self, (readd_cases (.inr rfl) hs ht h₁).2.1,
    CoreReg.addr]

/-- So does the one with `@Ri`, whose operand is read as a direct one. -/
lemma genRi_psw (o : AluOp) (i : BitVec 3) :
    (Ops.genRi o i).code.wp (cpuExec script) (fun _ _ m' =>
      ∃ a b, m'.sfr PSW = (o.apply a b (m.sfr PSW)).2) m := by
  simp only [Ops.genRi, Prog.wp_bind, Cpu.wp_get, Cpu.wp_getRx, Cpu.wp_readd, Cpu.wp_aluOp,
    Cpu.wp_set]
  intro v m₁ h₁
  refine ⟨m.sfr ACC, v, ?_⟩
  rw [sfr_setSfr_of_ne _ _ (by decide), sfr_setSfr_self, (readd_cases (.inr rfl) hs ht h₁).2.1,
    CoreReg.addr]

omit hs ht in
/-- So does the one with a register operand. -/
lemma genAr_psw (o : AluOp) (op : Byte) : (Ops.genAr o op).code.wp (cpuExec script) (fun _ _ m' =>
    ∃ a b, m'.sfr PSW = (o.apply a b (m.sfr PSW)).2) m := by
  simp only [Ops.genAr, Prog.wp_bind, Cpu.wp_get, Cpu.wp_getRx, Cpu.wp_aluOp, Cpu.wp_set]
  exact ⟨_, _, by rw [sfr_setSfr_of_ne _ _ (by decide), sfr_setSfr_self]⟩

omit hs ht in
/-- A record that computes the new `PSW` from the accumulator and the old one leaves it there. -/
lemma accFlags_psw {r : OpRec} {f g : Byte → Byte → Byte} (hr : r.code = do
      let acc ← Cpu.get .acc
      let psw ← Cpu.get .psw
      Cpu.set .acc (f acc psw)
      Cpu.set .psw (g acc psw)) :
    r.code.wp (cpuExec script) (fun _ _ m' => m'.sfr PSW = g (m.sfr ACC) (m.sfr PSW)) m := by
  rw [hr]
  simp only [Prog.wp_bind, Cpu.wp_get, Cpu.wp_set]
  exact sfr_setSfr_self _ _ _

omit hs ht in
/-- A record that applies a function to `PSW` leaves the result there. -/
lemma pswRec_psw (f : Byte → Byte) : (Ops.pswRec f).code.wp (cpuExec script) (fun _ _ m' =>
    m'.sfr PSW = f (m.sfr PSW)) m := by
  simp only [Ops.pswRec, Prog.wp_bind, Cpu.wp_get, Cpu.wp_set]
  exact sfr_setSfr_self _ _ _

omit hs ht in
/-- `DA A` changes nothing in `PSW` but the carry. -/
lemma daA_psw : Ops.daA.code.wp (cpuExec script) (fun _ _ m' =>
    m'.sfr PSW &&& ~~~PSW_C = m.sfr PSW &&& ~~~PSW_C) m := by
  simp only [Ops.daA, Prog.wp_bind, Cpu.wp_get, Cpu.wp_set, Prog.wp_ite, Prog.pure_eq_done,
    Prog.wp_done]
  split
  · rw [sfr_setSfr_self]
    exact or_carry_and _
  · rw [sfr_setSfr_of_ne _ _ (by decide)]

omit hs ht in
/-- A comparison of operands that are read without touching `PSW`. -/
lemma cjne_psw {x y : Cpu Byte} (hx : x.wp (cpuExec script) (fun _ _ m' => m' = m) m)
    (hy : y.wp (cpuExec script) (fun _ _ m' => m'.sfr PSW = m.sfr PSW) m) :
    (Ops.cjne x y).code.wp (cpuExec script) (fun _ _ m' =>
      m'.sfr PSW &&& ~~~PSW_C = m.sfr PSW &&& ~~~PSW_C) m := by
  simp only [Ops.cjne, Prog.wp_bind]
  refine Prog.wp_mono hx ?_
  intro _ op1 m₁ hm₁
  rw [hm₁]
  refine Prog.wp_mono hy ?_
  intro _ op2 m₂ hpsw₂
  have hcmp : (aluCmp op1 op2 (m₂.sfr PSW)).2 &&& ~~~PSW_C = m.sfr PSW &&& ~~~PSW_C := by
    rw [hpsw₂]
    exact carry_or_and _ _
  simp only [Cpu.wp_alu, Prog.wp_ite, Prog.wp_bind, Cpu.wp_fetch, Cpu.wp_branch,
    Prog.pure_eq_done, Prog.wp_done]
  split
  · exact (congrArg (· &&& ~~~PSW_C) (sfr_setSfr_self _ _ _)).trans hcmp
  · exact (congrArg (· &&& ~~~PSW_C) (sfr_setSfr_self _ _ _)).trans hcmp

omit hs ht in
/-- `SETB C` and `CLR C` change nothing in `PSW` but the carry. -/
lemma setCarry_psw (c : Bool) (m : Machine σ) {p : Byte}
    (hp : m.sfr PSW &&& ~~~PSW_C = p &&& ~~~PSW_C) :
    (Ops.setCarry c).wp (cpuExec script) (fun _ _ m' =>
      (m'.ramsfrtrap = m.ramsfrtrap) ∧ m'.sfr PSW &&& ~~~PSW_C = p &&& ~~~PSW_C) m := by
  simp only [Ops.setCarry, Prog.wp_bind, Cpu.wp_get, Cpu.wp_set]
  refine ⟨rfl, ?_⟩
  rw [sfr_setSfr_self, ← hp]
  cases c with
  | false => exact (BitVec.and_assoc _ _ _).trans (by rw [BitVec.and_self])
  | true => exact or_carry_and _

/-- Reading a bit and copying a function of it to the carry. -/
lemma carryFrom_psw (f : Bool → Bool) {p : Byte} (hp : m.sfr PSW &&& ~~~PSW_C = p &&& ~~~PSW_C) :
    (do
      let bit ← Cpu.fetch 1
      let v ← Cpu.readb bit
      Ops.setCarry (f v)).wp (cpuExec script) (fun _ _ m' =>
        m'.sfr PSW &&& ~~~PSW_C = p &&& ~~~PSW_C) m := by
  simp only [Prog.wp_bind, Cpu.wp_fetch, Cpu.readb, Cpu.wp_readd, Prog.pure_eq_done, Prog.wp_done]
  intro v m₁ h₁
  obtain ⟨-, hpsw, -⟩ := readd_cases (.inr rfl) hs ht h₁
  exact Prog.wp_mono (setCarry_psw _ m₁ (by rw [hpsw, hp])) fun _ _ _ h => h.2

/-- `ANL C, bit` changes nothing in `PSW` but the carry, with the bit inverted or not. -/
lemma anlC_psw (f : Bool → Bool) : (Ops.anlC f).code.wp (cpuExec script) (fun _ _ m' =>
    m'.sfr PSW &&& ~~~PSW_C = m.sfr PSW &&& ~~~PSW_C) m := by
  simp only [Ops.anlC]
  rw [Prog.wp_bind, Cpu.wp_get, Prog.wp_ite]
  split
  · exact carryFrom_psw hs ht f rfl
  · exact Prog.wp_mono (setCarry_psw _ m rfl) fun _ _ _ h => h.2

/-- `ORL C, bit` changes nothing in `PSW` but the carry, with the bit inverted or not. -/
lemma orlC_psw (f : Bool → Bool) : (Ops.orlC f).code.wp (cpuExec script) (fun _ _ m' =>
    m'.sfr PSW &&& ~~~PSW_C = m.sfr PSW &&& ~~~PSW_C) m := by
  simp only [Ops.orlC]
  rw [Prog.wp_bind, Cpu.wp_get, Prog.wp_ite]
  split
  · exact Prog.wp_mono (setCarry_psw _ m rfl) fun _ _ _ h => h.2
  · exact carryFrom_psw hs ht f rfl

/-- `MOV C, bit` changes nothing in `PSW` but the carry. -/
lemma movCBit_psw : Ops.movCBit.code.wp (cpuExec script) (fun _ _ m' =>
    m'.sfr PSW &&& ~~~PSW_C = m.sfr PSW &&& ~~~PSW_C) m := by
  simp only [Ops.movCBit, Cpu.readb]
  rw [Prog.wp_bind]
  refine Prog.wp_mono (setCarry_psw false m rfl) ?_
  rintro _ _ m₁ ⟨ht₁, hpsw₁⟩
  simp only [Prog.wp_bind, Cpu.wp_fetch, Cpu.wp_readd, Prog.pure_eq_done, Prog.wp_done,
    Prog.wp_ite]
  intro v m₂ h₂
  obtain ⟨-, hpsw₂, -⟩ := readd_cases (.inr rfl) hs (ht₁.trans ht) h₂
  split
  · exact Prog.wp_mono (setCarry_psw true m₂ (by rw [hpsw₂, hpsw₁])) fun _ _ _ h => h.2
  · rw [hpsw₂, hpsw₁]

omit hs ht in
/-- `MUL AB` leaves in `PSW` what its record makes of the old one and the high byte of the product.
-/
lemma mul_psw : Ops.mul.code.wp (cpuExec script) (fun _ _ m' =>
    m'.sfr PSW = Ops.mulPsw (m.sfr PSW)
      (hi ((m.sfr ACC).setWidth 16 * (m.sfr B).setWidth 16))) m := by
  simp only [Ops.mul, Prog.wp_bind, Cpu.wp_get, Cpu.wp_set, CoreReg.addr]
  rw [sfr_setSfr_self, sfr_setSfr_self, sfr_setSfr_of_ne _ _ (by decide),
    sfr_setSfr_of_ne _ _ (by decide)]

omit hs ht in
/-- `DIV` leaves the flags as documented, and the operands too if the divisor is zero. -/
lemma div_psw : Ops.div.code.wp (cpuExec script) (fun _ _ m' =>
    m'.sfr PSW = (m.sfr PSW &&& ~~~(PSW_C ||| PSW_OV)) ||| flagIf PSW_OV (m.sfr B = 0) ∧
    (m.sfr B = 0 → m'.sfr ACC = m.sfr ACC ∧ m'.sfr B = m.sfr B)) m := by
  have hB : ∀ v, (m.setSfr PSW v).sfr B = m.sfr B := fun v => m.sfr_setSfr_of_ne v (by decide)
  simp only [Ops.div, Prog.wp_bind, Cpu.wp_get, Cpu.wp_set, Prog.wp_ite, hB]
  split
  · next hb =>
    refine ⟨by rw [sfr_setSfr_self, hb]; rfl, fun _ => ⟨?_, ?_⟩⟩
    · rw [sfr_setSfr_of_ne _ _ (by decide), sfr_setSfr_of_ne _ _ (by decide)]
    · exact (sfr_setSfr_of_ne _ _ (by decide)).trans (hB _)
  · next hb =>
    refine ⟨?_, fun h => absurd h hb⟩
    rw [sfr_setSfr_of_ne _ _ (by decide), sfr_setSfr_of_ne _ _ (by decide), sfr_setSfr_self,
      flagIf, if_neg (by simpa using hb)]
    exact (BitVec.or_zero).symm

end Flags

/-! ## All instructions -/

end Machine

/-- How a record sets flags. -/
inductive PswClass where
  /-- not at all -/
  | quiet
  /-- as the function of the arithmetic unit does -/
  | alu (o : AluOp)
  /-- at most the carry -/
  | carry
  | mul
  | div

namespace Label

/-- The class of each record. -/
def pswClass : Label → PswClass
  | genAi o | genAd o | genR0 o | genR1 o | genAr o | gen2Ia o | gen2Id o => .alu o
  | cjneA | cjneB5 | cjneB6 | cjneB7 | cjneR | daA | rrcA | rlcA => .carry
  | clrC | setbC | cplC | movCBit | anlCbit | anlCnbit | orlCbit | orlCnbit => .carry
  | mul => .mul
  | div => .div
  | _ => .quiet

/-- The register that the record's direct or bit operand names as destination. -/
def dest (l : Label) (m : Machine σ) : Option Byte :=
  match l with
  | incIram | decIram | mov75 | mov86 | mov87 | movDr | movF5 | xchAd | popD | djnzI => m.fetch 1
  | gen2Ia _ | gen2Id _ => m.fetch 1
  | mov85 => m.fetch 2
  | jbc | clrB | setB | cplBit | movBitC => Cpu.bitaddr (m.fetch 1)
  | _ => none

/-- The address an `@Ri` operand designates, for the records that go through `writed` with it. -/
def destAtRi (l : Label) (m : Machine σ) : Option Byte :=
  match l with
  | incAtr0 | decAtr0 | xchdAtr0 => m.rx 0
  | incAtr1 | decAtr1 | xchdAtr1 => m.rx 1
  | _ => none

/-- The byte the record stores in its destination, if that is the register `a`. -/
def storedIn (a : Byte) (script : Script σ) (l : Label) (op : Byte) (m : Machine σ) : Byte :=
  match l with
  | incIram | incAtr0 | incAtr1 | decAtr0 | decAtr1 => m.sfr a + 1
  | decIram | djnzI => m.sfr a - 1
  | mov75 => m.fetch 2
  | mov85 => m.readValue script (m.fetch 1)
  | mov86 => m.readi (m.rx 0)
  | mov87 => m.readi (m.rx 1)
  | movDr => m.rx (op.setWidth 3)
  | movF5 | xchAd => m.sfr ACC
  | popD => (m.setSfr SP (m.sfr SP - 1)).readi (m.sfr SP)
  | xchdAtr0 | xchdAtr1 => (m.sfr ACC &&& 0x0f) ||| (m.sfr a &&& 0xf0)
  | gen2Ia o => (o.apply (m.sfr a) (m.sfr ACC) (m.sfr PSW)).1
  | gen2Id o => (o.apply (m.sfr a) (m.fetch 2) (m.sfr PSW)).1
  | jbc => m.sfr a &&& ~~~Cpu.bitMask (m.fetch 1)
  | clrB => Cpu.withBit (m.sfr a) (Cpu.bitMask (m.fetch 1)) false
  | setB => m.sfr a ||| Cpu.bitMask (m.fetch 1)
  | cplBit => Cpu.withBit (m.sfr a) (Cpu.bitMask (m.fetch 1))
      (!(m.sfr a &&& Cpu.bitMask (m.fetch 1) != 0))
  | movBitC => Cpu.withBit (m.sfr a) (Cpu.bitMask (m.fetch 1)) (m.sfr PSW &&& PSW_C != 0)
  | _ => m.sfr a

/-- The byte the record stores in its destination, if that is `PSW`. -/
def stored (script : Script σ) (l : Label) (op : Byte) (m : Machine σ) : Byte :=
  l.storedIn PSW script op m

end Label

/-- What an instruction of the given class makes of `PSW`. -/
def PswClass.Sets (c : PswClass) (m m' : Machine σ) : Prop :=
  match c with
  | quiet => m'.sfr PSW = m.sfr PSW
  | alu o => ∃ a b, m'.sfr PSW = (o.apply a b (m.sfr PSW)).2
  | carry => m'.sfr PSW &&& ~~~PSW_C = m.sfr PSW &&& ~~~PSW_C
  | mul => m'.sfr PSW =
      Ops.mulPsw (m.sfr PSW) (hi ((m.sfr ACC).setWidth 16 * (m.sfr B).setWidth 16))
  | div => m'.sfr PSW = (m.sfr PSW &&& ~~~(PSW_C ||| PSW_OV)) ||| flagIf PSW_OV (m.sfr B = 0) ∧
      (m.sfr B = 0 → m'.sfr ACC = m.sfr ACC ∧ m'.sfr B = m.sfr B)

/-- Moving `pc` behind the code of a record makes no difference to `PSW`. -/
lemma PswClass.Sets.setPc {c : PswClass} {m m' : Machine σ} (h : c.Sets m m') (w : Word) :
    c.Sets m (m'.setPc w) := by
  cases c <;> exact h

/-- The record stores to `PSW`, explicitly or through `@Ri`. -/
def Label.ToPsw (l : Label) (m : Machine σ) : Prop := l.dest m = some PSW ∨ l.destAtRi m = some PSW

/-- What a record makes of `PSW`. -/
structure Label.PswSpec (script : Script σ) (l : Label) (op : Byte) (m m' : Machine σ) : Prop where
  toPsw : l.ToPsw m → m'.sfr PSW = l.stored script op m
  flags : ¬l.ToPsw m → l.pswClass.Sets m m'

namespace Machine

variable {script : Script σ} {m m' : Machine σ}

section Record

variable {l : Label} {op : Byte}

/-- A record that stores to no register by address only sets flags. -/
lemma pswSpec_of_flags (hd : l.dest m = none) (hr : l.destAtRi m = none)
    (h : (l.record op).code.wp (cpuExec script) (fun _ _ m' => l.pswClass.Sets m m') m) :
    (l.record op).code.wp (cpuExec script) (fun _ _ m' => l.PswSpec script op m m') m := by
  refine Prog.wp_mono h fun _ _ m' hm' => ⟨?_, fun _ => hm'⟩
  rintro (hpsw | hpsw)
  · exact absurd (hd.symm.trans hpsw) (Option.some_ne_none _).symm
  · exact absurd (hr.symm.trans hpsw) (Option.some_ne_none _).symm

/-- A record that sets no flags and stores to the register `a` by address. -/
lemma pswSpec_of_store {a : Byte} (hd : l.ToPsw m ↔ a = PSW) (hc : l.pswClass = .quiet)
    (h : (l.record op).code.wp (cpuExec script) (fun _ _ m' =>
      m'.sfr PSW = if a = PSW then l.stored script op m else m.sfr PSW) m) :
    (l.record op).code.wp (cpuExec script) (fun _ _ m' => l.PswSpec script op m m') m := by
  refine Prog.wp_mono h fun _ _ m' hm' => ⟨fun hpsw => ?_, fun hpsw => ?_⟩
  · exact hm'.trans (if_pos (hd.1 hpsw))
  · rw [hc]
    exact hm'.trans (if_neg fun ha => hpsw (hd.2 ha))

/-- An instruction without flags whose direct target is known does to `PSW` what the table says. -/
lemma pswSpec_of_dest {a : Byte} (hd : l.dest m = some a) (hr : l.destAtRi m = none)
    (hc : l.pswClass = .quiet)
    (h : (l.record op).code.wp (cpuExec script) (fun _ _ m' =>
      m'.sfr PSW = if a = PSW then l.stored script op m else m.sfr PSW) m) :
    (l.record op).code.wp (cpuExec script) (fun _ _ m' => l.PswSpec script op m m') m :=
  pswSpec_of_store (by simp [Label.ToPsw, hd, hr]) hc h

/-- So does one whose target is known to be `@Ri`. -/
lemma pswSpec_of_atRi {a : Byte} (hd : l.dest m = none) (hr : l.destAtRi m = some a)
    (hc : l.pswClass = .quiet)
    (h : (l.record op).code.wp (cpuExec script) (fun _ _ m' =>
      m'.sfr PSW = if a = PSW then l.stored script op m else m.sfr PSW) m) :
    (l.record op).code.wp (cpuExec script) (fun _ _ m' => l.PswSpec script op m m') m :=
  pswSpec_of_store (by simp [Label.ToPsw, hd, hr]) hc h

/-- A logical operation on a register, which may set flags as far as the table is concerned. -/
lemma pswSpec_of_gen2 {o : AluOp} {a : Byte} (hd : l.dest m = some a) (hr : l.destAtRi m = none)
    (hc : l.pswClass = .alu o)
    (h : (l.record op).code.wp (cpuExec script) (fun _ _ m' =>
      (a = PSW → m'.sfr PSW = l.stored script op m) ∧
      (a ≠ PSW → ∃ x y, m'.sfr PSW = (o.apply x y (m.sfr PSW)).2)) m) :
    (l.record op).code.wp (cpuExec script) (fun _ _ m' => l.PswSpec script op m m') m := by
  have hto : l.ToPsw m ↔ a = PSW := by simp [Label.ToPsw, hd, hr]
  refine Prog.wp_mono h fun _ _ m' hm' => ⟨fun hpsw => hm'.1 (hto.1 hpsw), fun hpsw => ?_⟩
  rw [hc]
  exact hm'.2 fun ha => hpsw (hto.2 ha)

end Record

/-- Reading through `@Ri` as `readi` does changes nothing at all. -/
lemma indirect_wp (i : BitVec 3) :
    (Ops.indirect i).wp (cpuExec script) (fun _ _ m' => m' = m) m := by
  simp only [Ops.indirect, Prog.wp_bind, Cpu.wp_getRx, Cpu.wp_readi]

/-- `cjne` with a first operand that is read without any access to registers. -/
lemma cjne_fetch_psw {x : Cpu Byte}
    (hx : x.wp (cpuExec script) (fun _ _ m' => m' = m) m) :
    (Ops.cjne x (Cpu.fetch 1)).code.wp (cpuExec script) (fun _ _ m' =>
      m'.sfr PSW &&& ~~~PSW_C = m.sfr PSW &&& ~~~PSW_C) m := by
  exact cjne_psw hx ((Cpu.wp_fetch _).2 rfl)

/-- What every record makes of `PSW` is what its class and its target say. -/
theorem record_psw (hs : script.LeavesPsw) (ht : m.ramsfrtrap = sfrInitTrap) (l : Label)
    (op : Byte) :
    (l.record op).code.wp (cpuExec script) (fun _ _ m' => l.PswSpec script op m m') m := by
  by_cases hq : l.quiet = true
  · have hkeep := all_keeps (.inr rfl) hs.leavesSfr ht (quiet_all hq op)
    cases l <;> first
      | exact absurd hq Bool.false_ne_true
      | exact pswSpec_of_flags rfl rfl hkeep
  cases l with
  | incIram => exact pswSpec_of_dest rfl rfl rfl (modIram_sfr (.inr rfl) hs ht _)
  | decIram => exact pswSpec_of_dest rfl rfl rfl (modIram_sfr (.inr rfl) hs ht _)
  | incAtr0 => exact pswSpec_of_atRi rfl rfl rfl (modAtr_sfr (.inr rfl) hs ht _ 0)
  | incAtr1 => exact pswSpec_of_atRi rfl rfl rfl (modAtr_sfr (.inr rfl) hs ht _ 1)
  | decAtr0 => exact pswSpec_of_atRi rfl rfl rfl (modAtr_sfr (.inr rfl) hs ht _ 0)
  | decAtr1 => exact pswSpec_of_atRi rfl rfl rfl (modAtr_sfr (.inr rfl) hs ht _ 1)
  | xchdAtr0 => exact pswSpec_of_atRi rfl rfl rfl (xchdAtr_psw hs ht 0)
  | xchdAtr1 => exact pswSpec_of_atRi rfl rfl rfl (xchdAtr_psw hs ht 1)
  | mov75 =>
    exact pswSpec_of_dest rfl rfl rfl
      (toIram_sfr (.inr rfl) hs 3 ((Cpu.wp_fetch 2).2 ⟨ht, rfl, rfl⟩))
  | mov86 => exact pswSpec_of_dest rfl rfl rfl (toIram_indirect_sfr (.inr rfl) hs ht 0 2)
  | mov87 => exact pswSpec_of_dest rfl rfl rfl (toIram_indirect_sfr (.inr rfl) hs ht 1 2)
  | movDr =>
    exact pswSpec_of_dest rfl rfl rfl
      (toIram_sfr (.inr rfl) hs 2 ((Cpu.wp_getRx _).2 ⟨ht, rfl, rfl⟩))
  | movF5 =>
    exact pswSpec_of_dest rfl rfl rfl
      (toIram_sfr (.inr rfl) hs 2 ((Cpu.wp_get .acc).2 ⟨ht, rfl, rfl⟩))
  | popD => exact pswSpec_of_dest rfl rfl rfl (popD_sfr (.inr rfl) hs ht)
  | mov85 => exact pswSpec_of_dest rfl rfl rfl (mov85_sfr (.inr rfl) hs ht)
  | xchAd => exact pswSpec_of_dest rfl rfl rfl (xchAd_psw hs ht)
  | djnzI => exact pswSpec_of_dest rfl rfl rfl (djnzI_sfr (.inr rfl) hs ht)
  | gen2Ia o => exact pswSpec_of_gen2 rfl rfl rfl (gen2Ia_psw hs ht o)
  | gen2Id o => exact pswSpec_of_gen2 rfl rfl rfl (gen2Id_psw hs ht o)
  | jbc => exact pswSpec_of_dest rfl rfl rfl (jbc_sfr (.inr rfl) hs ht)
  | clrB => exact pswSpec_of_dest rfl rfl rfl (clrB_sfr (.inr rfl) hs ht)
  | setB => exact pswSpec_of_dest rfl rfl rfl (setB_sfr (.inr rfl) hs ht)
  | cplBit => exact pswSpec_of_dest rfl rfl rfl (cplBit_sfr (.inr rfl) hs ht)
  | movBitC => exact pswSpec_of_dest rfl rfl rfl (movBitC_sfr (.inr rfl) hs ht)
  | genAi o => exact pswSpec_of_flags rfl rfl (genAi_psw o)
  | genAd o => exact pswSpec_of_flags rfl rfl (genAd_psw hs ht o)
  | genR0 o => exact pswSpec_of_flags rfl rfl (genRi_psw hs ht o 0)
  | genR1 o => exact pswSpec_of_flags rfl rfl (genRi_psw hs ht o 1)
  | genAr o => exact pswSpec_of_flags rfl rfl (genAr_psw o op)
  | cjneA => exact pswSpec_of_flags rfl rfl (cjne_fetch_psw ((Cpu.wp_get .acc).2 rfl))
  | cjneB5 =>
    refine pswSpec_of_flags rfl rfl (cjne_psw ((Cpu.wp_get .acc).2 rfl) ?_)
    simp only [Ops.direct1, Prog.wp_bind, Cpu.wp_fetch, Cpu.wp_readd]
    intro v m₁ h₁
    exact (readd_cases (.inr rfl) hs ht h₁).2.1
  | cjneB6 => exact pswSpec_of_flags rfl rfl (cjne_fetch_psw (indirect_wp 0))
  | cjneB7 => exact pswSpec_of_flags rfl rfl (cjne_fetch_psw (indirect_wp 1))
  | cjneR => exact pswSpec_of_flags rfl rfl (cjne_fetch_psw ((Cpu.wp_getRx _).2 rfl))
  | daA => exact pswSpec_of_flags rfl rfl daA_psw
  | rrcA =>
    refine pswSpec_of_flags rfl rfl (Prog.wp_mono (accFlags_psw rfl) fun _ _ m' hm' => ?_)
    have hbit : ∀ acc : Byte, (acc <<< 7) &&& ~~~PSW_C = 0 := by decide
    exact (congrArg (· &&& ~~~PSW_C) hm').trans (and_or_and (hbit _))
  | rlcA =>
    refine pswSpec_of_flags rfl rfl (Prog.wp_mono (accFlags_psw rfl) fun _ _ m' hm' => ?_)
    have hbit : ∀ acc : Byte, (acc &&& PSW_C) &&& ~~~PSW_C = 0 := by decide
    exact (congrArg (· &&& ~~~PSW_C) hm').trans (and_or_and (hbit _))
  | clrC =>
    refine pswSpec_of_flags rfl rfl (Prog.wp_mono (pswRec_psw _) fun _ _ m' hm' => ?_)
    have hbit : ∀ psw : Byte, (psw &&& ~~~PSW_C) &&& ~~~PSW_C = psw &&& ~~~PSW_C := by decide
    exact (congrArg (· &&& ~~~PSW_C) hm').trans (hbit _)
  | setbC =>
    refine pswSpec_of_flags rfl rfl (Prog.wp_mono (pswRec_psw _) fun _ _ m' hm' => ?_)
    exact (congrArg (· &&& ~~~PSW_C) hm').trans (or_carry_and _)
  | cplC =>
    refine pswSpec_of_flags rfl rfl (Prog.wp_mono (pswRec_psw _) fun _ _ m' hm' => ?_)
    have hbit : ∀ psw : Byte, (psw ^^^ PSW_C) &&& ~~~PSW_C = psw &&& ~~~PSW_C := by decide
    exact (congrArg (· &&& ~~~PSW_C) hm').trans (hbit _)
  | movCBit => exact pswSpec_of_flags rfl rfl (movCBit_psw hs ht)
  | anlCbit => exact pswSpec_of_flags rfl rfl (anlC_psw hs ht id)
  | anlCnbit => exact pswSpec_of_flags rfl rfl (anlC_psw hs ht not)
  | orlCbit => exact pswSpec_of_flags rfl rfl (orlC_psw hs ht id)
  | orlCnbit => exact pswSpec_of_flags rfl rfl (orlC_psw hs ht not)
  | mul => exact pswSpec_of_flags rfl rfl mul_psw
  | div => exact pswSpec_of_flags rfl rfl div_psw
  | _ => exact absurd rfl hq

/-- What the code behind an opcode makes of `PSW`. -/
theorem dispatch_psw (hs : script.LeavesPsw) (ht : m.ramsfrtrap = sfrInitTrap) {op : Byte}
    (h : dispatch script op m = some m') : (insnmap op).PswSpec script op m m' :=
  dispatch_of_wp (OpRec.wp_emit
    (fun _ w h => ⟨fun hd => h.toPsw hd, fun hd => (h.flags hd).setPc w⟩)
    (record_psw hs ht _ _)) h

/-- What the instruction at `pc` makes of `PSW` is what its record does. -/
theorem exec_psw (hs : script.LeavesPsw) (ht : m.ramsfrtrap = sfrInitTrap)
    (h : m.exec script = some m') :
    (insnmap (m.fetch 0)).PswSpec script (m.fetch 0) m m' :=
  dispatch_psw hs ht h

end Machine

end Emu51

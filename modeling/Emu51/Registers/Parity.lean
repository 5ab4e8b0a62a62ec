import Emu51.Chip.Hooks
import Emu51.Machine.Events
import Emu51.Machine.Profile
import Emu51.Machine.Setup
import Emu51.Registers.Acc

/-!
# The parity flag

`default_ramd_get` computes bit 0 of `PSW` from the accumulator when `PSW` is read. But `sfr_init`
takes `PSW` out of the trap table, so that a read gets the cell as it is. It is right only as long
as every instruction leaves the two in agreement, and `Label.KeepsParity` says from its operands
which instructions do.
-/

namespace Emu51

open Chip

variable {σ : Type}

/-! ## The parity of a byte -/

/-- The exclusive-or of the eight bits of a byte. -/
def xorBits (v : Byte) : Bool := (List.range 8).foldl (fun p i => p ^^ v.getLsbD i) false

/-- This is what the folding of the byte computes. -/
lemma parity_and_one (acc : Byte) : Machine.parity acc &&& 1 ≠ 0 ↔ xorBits acc = true := by
  revert acc
  decide

/-- The recomputed `PSW` has the parity in bit 0. -/
lemma pswWithParity_bit (psw acc : Byte) :
    (Machine.pswWithParity psw acc).getLsbD 0 = xorBits acc := by
  have hset : ∀ p : Byte, ((p &&& ~~~PSW_P) ||| PSW_P).getLsbD 0 = true := by decide
  have hclear : ∀ p : Byte, (p &&& ~~~PSW_P).getLsbD 0 = false := by decide
  unfold Machine.pswWithParity
  dsimp only
  split_ifs with hodd
  · rw [hset, (parity_and_one acc).1 hodd]
  · rw [hclear, Bool.eq_false_iff.2 fun htrue => hodd ((parity_and_one acc).2 htrue)]

namespace Machine

variable {script : Script σ} {m m' : Machine σ}

/-! ## Reads of `PSW` -/

/-- A read of `PSW` sees the parity of the accumulator in bit 0. -/
def ReadsParity (script : Script σ) (m : Machine σ) : Prop :=
  ∀ v m', readd script PSW m = some (v, m') → v.getLsbD 0 = xorBits (m.sfr ACC)

/-- Every read of `PSW` does, `peek_sfr` here and now and the reads of the next instruction, each in
the state it meets. -/
structure SeesParity (script : Script σ) (m : Machine σ) : Prop where
  peek : ReadsParity script m
  operand : ∀ op m₁, nextop script m = some (op, m₁) →
    (insn op).Along (cpuExec script) (fun o s => o = .readd PSW → ReadsParity script s) m₁

/-- Bit 0 of `PSW` as it is. -/
def ShowsParity (m : Machine σ) : Prop := (m.sfr PSW).getLsbD 0 = xorBits (m.sfr ACC)

/-- With `PSW` trapped, as in the table of `init_8051`, a read sees the parity. -/
theorem readsParity_of_trapped (ht : m.ramsfrtrap = init8051Trap)
    (hhook : script.ramdHooks m.lua PSW = none) : ReadsParity script m := by
  intro v m' h
  have htrap : m.ramsfrtrap PSW = true := by
    rw [ht]
    decide
  have hlua : m.refreshPsw.lua = m.lua := rfl
  have hcell : m.refreshPsw.sfr PSW = pswWithParity (m.sfr PSW) (m.sfr ACC) :=
    m.sfr_setSfr_self PSW _
  unfold readd readdVia defaultRamdGet ramdGet ramdHook at h
  rw [if_pos htrap, if_pos rfl, if_neg (by decide), if_neg (by decide), hlua, hhook] at h
  obtain ⟨rfl, -⟩ := Prod.mk.inj (Option.some.inj h)
  rw [hcell]
  exact pswWithParity_bit _ _

/-- With the table of `sfr_init` it sees the cell. -/
lemma readsParity_iff (ht : m.ramsfrtrap = sfrInitTrap) : ReadsParity script m ↔ ShowsParity m := by
  have hplain : readd script PSW m = some (m.sfr PSW, m) := readd_PSW ht
  constructor
  · intro hread
    exact hread _ _ hplain
  · intro hshows v m' h
    obtain ⟨rfl, -⟩ := Prod.mk.inj (Option.some.inj (h.symm.trans hplain))
    exact hshows

end Machine

/-! ## Operands -/

/-- An operation that does not move the parity stores neither in the accumulator nor in `PSW`. -/
lemma CpuOp.storesIn_of_not_movesParity {o : CpuOp} (h : o.movesParity = false) :
    o.storesIn ACC = none ∧ o.storesIn PSW = none := by
  cases o with
  | writed a v => exact absurd h.symm Bool.false_ne_true
  | set r v =>
    cases r with
    | acc => exact absurd h.symm Bool.false_ne_true
    | psw => exact absurd h.symm Bool.false_ne_true
    | b => exact ⟨rfl, rfl⟩
    | sp => exact ⟨rfl, rfl⟩
  | _ => exact ⟨rfl, rfl⟩

namespace Machine

variable {script : Script σ} {m m' : Machine σ}

/-- What an operation does to the parity shown, it does by storing in `PSW` or the accumulator. -/
lemma cpuExec_showsParity (hs : ∀ a, a = ACC ∨ a = PSW → script.LeavesSfr a)
    {o : CpuOp} (ho : o.movesParity = false) {r : o.Res} (ht : m.ramsfrtrap = sfrInitTrap)
    (hm : ShowsParity m) (h : cpuExec script o m = some (r, m')) : ShowsParity m' := by
  obtain ⟨hacc, hpsw⟩ := CpuOp.storesIn_of_not_movesParity ho
  have haccKept := cpuExec_storesIn (.inl rfl) (hs ACC (.inl rfl)) ht h
  have hpswKept := cpuExec_storesIn (.inr rfl) (hs PSW (.inr rfl)) ht h
  rw [hacc, Option.getD_none] at haccKept
  rw [hpsw, Option.getD_none] at hpswKept
  unfold ShowsParity
  rw [haccKept, hpswKept]
  exact hm

/-- A program whose reads of `PSW` come first reads the parity if it is shown. -/
lemma along_of_notAfter (hs : ∀ a, a = ACC ∨ a = PSW → script.LeavesSfr a)
    (ht : m.ramsfrtrap = sfrInitTrap) (hm : ShowsParity m) {α : Type} {p : Cpu α}
    (hp : p.NotAfter CpuOp.movesParity (· = .readd PSW)) :
    p.Along (cpuExec script) (fun o s => o = .readd PSW → ReadsParity script s) m := by
  have hfound := hp.along (h := cpuExec script)
    (I := fun s => s.ramsfrtrap = sfrInitTrap ∧ ShowsParity s) (s := m) ?_ ⟨ht, hm⟩
  · exact hfound.mono fun o s hread ho => (readsParity_iff (hread ho).1).2 (hread ho).2
  · rintro o s r s' ho ⟨htrap, hshows⟩ he
    exact ⟨(cpuExec_setup he).ramsfrtrap.trans htrap, cpuExec_showsParity hs ho htrap hshows he⟩

/-- `MOV C, bit` clears the carry first, which is another bit. -/
lemma movCBit_along (hs : ∀ a, a = ACC ∨ a = PSW → script.LeavesSfr a)
    (ht : m.ramsfrtrap = sfrInitTrap) (hm : ShowsParity m) : Ops.movCBit.code.Along (cpuExec script)
      (fun o s => o = .readd PSW → ReadsParity script s) m := by
  have hcarry : ∀ p : Byte, (p &&& ~~~PSW_C).getLsbD 0 = p.getLsbD 0 := by decide
  have hcleared : ShowsParity (m.setSfr PSW (m.sfr PSW &&& ~~~PSW_C)) := by
    unfold ShowsParity
    rw [sfr_setSfr_self, sfr_setSfr_of_ne _ _ (by decide), hcarry]
    exact hm
  refine ⟨CpuOp.noConfusion, fun y hy => ?_⟩
  obtain rfl := Option.some.inj hy
  refine ⟨CpuOp.noConfusion, fun y hy => ?_⟩
  obtain rfl := Option.some.inj hy
  have hrest : (do
      let bit ← Cpu.fetch 1
      let v ← Cpu.readb bit
      if v then Ops.setCarry true else pure ()).NotAfter CpuOp.movesParity (· =
        CpuOp.readd PSW) := by
    simp [Cpu.fetch, Cpu.readb, Cpu.readd, Ops.setCarry, Cpu.get, Cpu.set, CpuOp.movesParity,
      Prog.notAfter_ite]
  exact along_of_notAfter (m := m.setSfr PSW (m.sfr PSW &&& ~~~PSW_C)) hs ht hcleared hrest

/-- Every instruction that starts with the parity shown reads it. -/
lemma insn_along (hs : ∀ a, a = ACC ∨ a = PSW → script.LeavesSfr a)
    (ht : m.ramsfrtrap = sfrInitTrap) (hm : ShowsParity m) (op : Byte) :
    (insn op).Along (cpuExec script) (fun o s => o = .readd PSW → ReadsParity script s) m := by
  have hcode : ((insnmap op).record op).code.Along (cpuExec script)
      (fun o s => o = .readd PSW → ReadsParity script s) m := by
    by_cases hl : insnmap op = .movCBit
    · rw [hl]
      exact movCBit_along hs ht hm
    · exact along_of_notAfter hs ht hm ((record_profile _ op).2 hl)
  refine hcode.bind fun _ s' _ => ?_
  refine Prog.All.along (P := fun o => ¬o = .readd PSW) (fun o s ho heq => absurd heq ho) ?_ s'
  exact Prog.all_ite.2 ⟨fun _ => ⟨CpuOp.noConfusion, fun _ =>
    ⟨CpuOp.noConfusion, fun _ => trivial⟩⟩,
    fun _ => trivial⟩

/-- The look at the interrupts and the fetch change neither register. -/
lemma nextop_showsParity (ht : m.ramsfrtrap = sfrInitTrap) (hm : ShowsParity m) {op : Byte}
    {m₁ : Machine σ} (h : nextop script m = some (op, m₁)) :
    m₁.ramsfrtrap = sfrInitTrap ∧ ShowsParity m₁ := by
  obtain ⟨mask, val, heq⟩ := nextop_eq script ht
  obtain ⟨-, rfl⟩ := Prod.mk.inj (Option.some.inj (h.symm.trans heq))
  refine ⟨m.pollIrq_setup.ramsfrtrap.trans ht, ?_⟩
  change (m.pollIrq.sfr PSW).getLsbD 0 = xorBits (m.pollIrq.sfr ACC)
  rw [pollIrq_sfr m (by decide) (by decide), pollIrq_sfr m (by decide) (by decide)]
  exact hm

/-- All reads see the parity exactly if the cell shows it. -/
theorem seesParity_iff (hs : ∀ a, a = ACC ∨ a = PSW → script.LeavesSfr a)
    (ht : m.ramsfrtrap = sfrInitTrap) : SeesParity script m ↔ ShowsParity m := by
  refine ⟨fun hm => (readsParity_iff ht).1 hm.peek, fun hm => ⟨(readsParity_iff ht).2 hm, ?_⟩⟩
  intro op m₁ hnext
  obtain ⟨ht₁, hm₁⟩ := nextop_showsParity ht hm hnext
  exact insn_along hs ht₁ hm₁ op

/-! ## Steps -/

end Machine

section Keeps

variable (script : Script σ)

instance (l : Label) (m : Machine σ) : Decidable (l.ToPsw m) :=
  inferInstanceAs (Decidable (_ ∨ _))

/-- From the operands it starts with, an instruction leaves bit 0 of `PSW` and the accumulator in
agreement, if they agree. If it stores in `PSW`, the byte it stores there has in bit 0 the parity of
the byte it leaves in the accumulator. `MUL AB` clears the bit, so the low byte of its product is
even. Any other instruction leaves the bit alone, and so the byte it leaves in the accumulator has
the parity of the one it found there. -/
def Label.KeepsParity (l : Label) (op : Byte) (m : Machine σ) : Prop :=
  if l.ToPsw m then (l.stored script op m).getLsbD 0 = xorBits (l.accLeft script op m)
  else if l = .mul then xorBits (l.accLeft script op m) = false
  else xorBits (l.accLeft script op m) = xorBits (m.sfr ACC)

instance (l : Label) (op : Byte) (m : Machine σ) : Decidable (l.KeepsParity script op m) :=
  inferInstanceAs (Decidable (ite _ _ (ite _ _ _)))

/-- The event leaves bit 0 of `PSW` and the accumulator in agreement: the instruction to come does,
and so does a poke of either register. -/
def Machine.KeepsParity (m : Machine σ) : Event → Prop
  | .insn => ∀ op m₁, nextop script m = some (op, m₁) → (insnmap op).KeepsParity script op m₁
  | .poke addr v => (addr = PSW → v.getLsbD 0 = xorBits (m.sfr ACC)) ∧
      (addr = ACC → xorBits v = (m.sfr PSW).getLsbD 0)
  | .uart _ => True

end Keeps

namespace Machine

variable {script : Script σ} {m m' : Machine σ}

/-- Which instruction is to come depends on the state alone. -/
lemma keepsParity_insn {op : Byte} {m₁ : Machine σ} (h : nextop script m = some (op, m₁)) :
    KeepsParity script m .insn ↔ (insnmap op).KeepsParity script op m₁ := by
  refine ⟨fun hkeep => hkeep op m₁ h, fun hkeep op' m₂ h' => ?_⟩
  obtain ⟨rfl, rfl⟩ := Prod.mk.inj (Option.some.inj (h.symm.trans h'))
  exact hkeep

instance (script : Script σ) (m : Machine σ) : Decidable (KeepsParity script m .insn) :=
  match h : nextop script m with
  | none => isTrue fun _ _ h' => nomatch h.symm.trans h'
  | some _ => decidable_of_iff _ (keepsParity_insn h).symm

/-- The flags of an instruction do not include bit 0, except that `MUL AB` clears it. -/
lemma parity_of_sets {l : Label} (h : l.pswClass.Sets m m') :
    (m'.sfr PSW).getLsbD 0 = if l = .mul then false else (m.sfr PSW).getLsbD 0 := by
  have hbit : ∀ p q : Byte, p &&& 1 = q &&& 1 → p.getLsbD 0 = q.getLsbD 0 := by
    intro p q hpq
    have hmask : ∀ p : Byte, (p &&& 1).getLsbD 0 = p.getLsbD 0 := by decide
    rw [← hmask p, hpq, hmask q]
  by_cases hl : l = .mul
  · subst hl
    rw [if_pos rfl, show m'.sfr PSW = _ from h]
    unfold Ops.mulPsw
    split_ifs
    · decide
    · decide
  · rw [if_neg hl]
    generalize hc : l.pswClass = c at h
    cases c with
    | quiet => exact congrArg (·.getLsbD 0) h
    | alu o =>
      obtain ⟨a, b, hab⟩ := h
      rw [hab]
      exact hbit _ _ (and_eq_of_subset (by decide) (apply_and_rest o a b _))
    | carry => exact hbit _ _ (and_eq_of_subset (by decide) h)
    | mul => cases l <;> first | exact absurd rfl hl | cases hc
    | div =>
      have hflags : ∀ (p : Byte) (c : Bool),
          ((p &&& ~~~(PSW_C ||| PSW_OV)) ||| flagIf PSW_OV c).getLsbD 0 = p.getLsbD 0 := by
        intro p c
        revert p
        cases c <;> decide
      rw [h.1, hflags]

/-- An instruction that starts with the parity shown ends with it exactly if it meets the
condition. -/
lemma showsParity_of_spec {l : Label} {op : Byte} (hpsw : l.PswSpec script op m m')
    (hacc : m'.sfr ACC = l.accLeft script op m) (hm : ShowsParity m) :
    ShowsParity m' ↔ l.KeepsParity script op m := by
  unfold ShowsParity Label.KeepsParity
  rw [hacc]
  by_cases hto : l.ToPsw m
  · rw [if_pos hto, hpsw.toPsw hto]
  · rw [if_neg hto, parity_of_sets (hpsw.flags hto)]
    split_ifs
    · exact eq_comm
    · rw [show (m.sfr PSW).getLsbD 0 = _ from hm]
      exact eq_comm

/-- So it is with every step of the run. -/
lemma happen_showsParity (hs : ∀ a, a = ACC ∨ a = PSW → script.LeavesSfr a)
    (ht : m.ramsfrtrap = sfrInitTrap) (hm : ShowsParity m) {e : Event}
    (h : happen script e m = some m') : ShowsParity m' ↔ KeepsParity script m e := by
  cases e with
  | insn =>
    obtain ⟨op, m₁, hnext, hexec⟩ := step_eq_some h
    obtain ⟨ht₁, hm₁⟩ := nextop_showsParity ht hm hnext
    rw [keepsParity_insn hnext]
    exact showsParity_of_spec (dispatch_psw (hs PSW (.inr rfl)) ht₁ hexec)
      (dispatch_acc hs ht₁ hexec) hm₁
  | poke addr v =>
    obtain ⟨-, hacc⟩ := writed_cases (.inl rfl) (hs ACC (.inl rfl)) ht h
    obtain ⟨-, hpsw⟩ := writed_cases (.inr rfl) (hs PSW (.inr rfl)) ht h
    unfold ShowsParity KeepsParity
    rw [hacc, hpsw]
    by_cases ha : addr = ACC
    · subst ha
      rw [if_neg (by decide), if_pos rfl]
      exact ⟨fun hv => ⟨fun hn => absurd hn (by decide), fun _ => hv.symm⟩,
        fun hv => (hv.2 rfl).symm⟩
    · rw [if_neg ha]
      split_ifs with hp
      · exact ⟨fun hv => ⟨fun _ => hv, fun hn => absurd hn ha⟩, fun hv => hv.1 hp⟩
      · exact iff_of_true hm ⟨fun hn => absurd hn hp, fun hn => absurd hn ha⟩
  | uart d =>
    obtain rfl := Option.some.inj h
    refine iff_of_true ?_ trivial
    unfold ShowsParity uartListener
    split_ifs
    · rw [sfr_setSfr_of_ne _ _ (by decide), sfr_setSfr_of_ne _ _ (by decide),
        sfr_setSfr_of_ne _ _ (by decide), sfr_setSfr_of_ne _ _ (by decide)]
      exact hm
    · exact hm

/-! ## Runs -/

/-- The hooks of both chips poke neither the accumulator nor `PSW`. -/
lemma chip_leavesParity (chip : Chip) (a : Byte) (ha : a = ACC ∨ a = PSW) :
    chip.script.LeavesSfr a := by
  rcases ha with rfl | rfl
  · exact chip.pokesOnly (fun _ => by decide) fun _ => by decide
  · exact chip.pokesOnly (fun _ => by decide) fun _ => by decide

/-- After `main` the accumulator and `PSW` are zero, so the parity is right. -/
lemma boot_showsParity (chip : Chip) {heap : ℕ → Buffer} {file : List Byte}
    {m : Machine (Globals chip.Indacc)} (h : boot chip.script heap file = some m) :
    ShowsParity m := by
  obtain ⟨m₁, y, hstart, hload, rfl⟩ := boot_eq_some h
  have hzero : ∀ a, a = ACC ∨ a = PSW → y.2.sfr a = 0 := by
    intro a ha
    have hchunk : chip.script.chunk.All (LuaOp.PokesOnly fun b _ => 0x80 ≤ b ∧ b ≠ a) := by
      cases chip <;> exact ⟨trivial, fun _ => ⟨trivial, fun _ => ⟨trivial, fun _ => trivial⟩⟩⟩
    have hkept := (runLua_effects (chip_leavesParity chip a ha) hchunk hload).sfr_of_untrapped
      (a := a) (by rcases ha with rfl | rfl <;> decide) (fun _ _ hok => hok.2) hstart.ramsfrtrap
    have hne : dataCell a ≠ dataCell SP := by
      rcases ha with rfl | rfl <;> decide
    rw [hkept, sfr, hstart.ramsfr, Function.update_of_ne hne]
  unfold ShowsParity
  rw [hzero PSW (.inr rfl), hzero ACC (.inl rfl)]
  rfl

/-- In a run from `main`'s initial state, all reads of `PSW` in all states see the parity of the
accumulator exactly if every step leaves bit 0 of `PSW` and the accumulator in agreement. -/
theorem run_seesParity_iff (chip : Chip) {heap : ℕ → Buffer} {file : List Byte}
    {m₀ m : Machine (Globals chip.Indacc)} (hboot : boot chip.script heap file = some m₀)
    {tr : List (Machine (Globals chip.Indacc) × Event)}
    (hrun : Run (Happens chip.script) m₀ tr m) : Run.Throughout (SeesParity chip.script) tr m ↔
      ∀ e ∈ tr, KeepsParity chip.script e.1 e.2 := by
  have hs := chip_leavesParity chip
  refine hrun.forall_iff (I := fun m => m.ramsfrtrap = sfrInitTrap) ?_ ?_ (boot_setup hboot).1 ?_
  · exact fun c e c' hc he => (happen_setup he).ramsfrtrap.trans hc
  · intro c e c' hc hp he
    rw [seesParity_iff hs ((happen_setup he).ramsfrtrap.trans hc)]
    exact happen_showsParity hs hc ((seesParity_iff hs hc).1 hp) he
  · exact (seesParity_iff hs (boot_setup hboot).1).2 (boot_showsParity chip hboot)

/-- The theorem for `MOV A,#3`, `SETB C`, `XCH A,PSW`. The first leaves an even byte. The last
stores 3 in `PSW`, with bit 0 set, and leaves the odd byte 80H in the accumulator. -/
theorem run_seesParity_iff_xch : ∃ m : Machine Rtl8372.G,
    m.sfr ACC = 0x80 ∧ m.sfr PSW = 0x03 ∧ SeesParity Rtl8372.script m := by
  have heval : ((boot Rtl8372.script (fun _ => default) [0x74, 0x03, 0xd3, 0xc5, 0xd0]).bind
      fun m₀ => (happen Rtl8372.script .insn m₀).bind fun m₁ =>
        (happen Rtl8372.script .insn m₁).bind fun m₂ =>
          (happen Rtl8372.script .insn m₂).map fun m =>
            (decide (KeepsParity Rtl8372.script m₀ .insn),
              decide (KeepsParity Rtl8372.script m₁ .insn),
              decide (KeepsParity Rtl8372.script m₂ .insn), m.sfr ACC, m.sfr PSW)) =
      some (true, true, true, 0x80, 0x03) := by
    decide +kernel
  obtain ⟨m₀, hboot, heval⟩ := Option.bind_eq_some_iff.1 heval
  obtain ⟨m₁, hstep₁, heval⟩ := Option.bind_eq_some_iff.1 heval
  obtain ⟨m₂, hstep₂, heval⟩ := Option.bind_eq_some_iff.1 heval
  obtain ⟨m, hstep, hval⟩ := Option.map_eq_some_iff.1 heval
  simp only [Prod.mk.injEq, decide_eq_true_eq] at hval
  obtain ⟨hkeeps, hkeeps₁, hkeeps₂, hacc, hpsw⟩ := hval
  have hrun : Run (Happens Rtl8372.script) m₀ [(m₀, .insn), (m₁, .insn), (m₂, .insn)] m :=
    .head hstep₁ (.head hstep₂ (.head hstep (.refl m)))
  refine ⟨m, hacc, hpsw, ((run_seesParity_iff .rtl8372 hboot hrun).2 ?_).2⟩
  simpa using ⟨hkeeps, hkeeps₁, hkeeps₂⟩

/-- After `MOV A, #1`, `PSW` reads as zero, though the accumulator is odd. -/
theorem mov_leaves_parity : ¬∀ (chip : Chip) (file : List Byte)
    (m₀ m : Machine (Globals chip.Indacc))
    (tr : List (Machine (Globals chip.Indacc) × Event)),
    boot chip.script (fun _ => default) file = some m₀ → Run (Happens chip.script) m₀ tr m →
    Run.Throughout (SeesParity chip.script) tr m := by
  intro hall
  have heval : ((boot Rtl8372.script (fun _ => default) [0x74, 0x01]).bind fun m₀ =>
      (happen Rtl8372.script .insn m₀).bind fun m => (readd Rtl8372.script PSW m).map fun y =>
        (y.1, m.sfr ACC)) = some (0, 1) := by
    decide +kernel
  obtain ⟨m₀, hboot, hm⟩ := Option.bind_eq_some_iff.1 heval
  obtain ⟨m, hstep, hread⟩ := Option.bind_eq_some_iff.1 hm
  obtain ⟨⟨v, m'⟩, hpeek, hval⟩ := Option.map_eq_some_iff.1 hread
  obtain ⟨hv, hacc⟩ := Prod.mk.inj hval
  have hrun : Run (Happens Rtl8372.script) m₀ [(m₀, .insn)] m := .head hstep (.refl m)
  have hparity := (hall .rtl8372 _ m₀ m _ hboot hrun).2.peek v m' hpeek
  rw [hacc, show v = 0 from hv] at hparity
  exact absurd hparity (by decide)

end Machine

end Emu51

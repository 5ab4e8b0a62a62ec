import Emu51.Chip.Hooks
import Emu51.Machine.Registers

/-!
# The two data pointers

`DPTR` is one of two pairs of registers, and bit 0 of `DPS` says which. The choice is kept in the
pointers `dpl` and `dph`, which only a write to `DPS` moves.
-/

namespace Emu51

open Chip Lua

namespace Machine

variable {σ : Type} {script : Script σ} {m m' m₀ : Machine σ}

/-! ## The pairs -/

/-- The low half of a pair. -/
def pairLow (s : Bool) : Byte := if s then DPL1 else DPL0

/-- The high half of a pair. -/
def pairHigh (s : Bool) : Byte := if s then DPH1 else DPH0

/-- The value of a pair. -/
def pair (m : Machine σ) (s : Bool) : Word := word (m.sfr (pairHigh s)) (m.sfr (pairLow s))

/-- Store a value in a pair. -/
def setPair (m : Machine σ) (s : Bool) (w : Word) : Machine σ :=
  (m.setSfr (pairHigh s) (hi w)).setSfr (pairLow s) (lo w)

/-- `DPS` has the value that belongs to the pair, and `DPTR` is the pair. -/
structure Selects (s : Bool) (m : Machine σ) : Prop where
  dps : m.sfr DPS = if s then 1 else 0
  dpl : m.dpl.1 = pairLow s
  dph : m.dph.1 = pairHigh s

/-- `DPTR` is the pair that `DPS` selects, and the trap table is that of `sfr_init`. -/
def DptrSelected (m : Machine σ) : Prop :=
  m.ramsfrtrap = sfrInitTrap ∧ ∃ s, Selects s m

/-- The data pointer is the pair that is selected. -/
lemma Selects.dptr {s : Bool} (h : Selects s m) : m.dptr = m.pair s := by
  rw [Machine.dptr, pair, h.dpl, h.dph]

/-! ## The choice is kept -/

/-- The same pair is selected as long as `DPS` and the two pointers are the same. -/
lemma Selects.mono {s : Bool} (h : Selects s m) (hdps : m'.sfr DPS = m.sfr DPS)
    (hl : m'.dpl = m.dpl)
    (hh : m'.dph = m.dph) : Selects s m' :=
  ⟨hdps.trans h.dps, by rw [hl]; exact h.dpl, by rw [hh]; exact h.dph⟩

/-- One of the pairs is selected as long as the traps, `DPS` and the two pointers are the same. -/
lemma DptrSelected.mono (h : DptrSelected m) (ht : m'.ramsfrtrap = m.ramsfrtrap)
    (hdps : m'.sfr DPS = m.sfr DPS) (hl : m'.dpl = m.dpl) (hh : m'.dph = m.dph) :
      DptrSelected m' := by
  obtain ⟨htrap, s, hs⟩ := h
  exact ⟨ht.trans htrap, s, hs.mono hdps hl hh⟩

/-- A write to `DPS` selects the pair its bit 0 names. -/
lemma selects_switch (m : Machine σ) (s : Bool) {l : DplPtr} {h : DphPtr} (hl : l.1 = pairLow s)
    (hh : h.1 = pairHigh s) : Selects s ((m.setSfr DPS (if s then 1 else 0)).mapDptr l h) :=
  ⟨m.sfr_setSfr_self DPS _, hl, hh⟩

/-- Under both scripts no access loses the choice: there is no hook for `DPS`. -/
lemma dptrSelected_rule (chip : Chip) :
    SfrRule chip.script (fun _ _ => True) (fun _ _ => True) DptrSelected where
  regs hsame hm := hm.mono hsame.ramsfrtrap (congrFun hsame.ramsfr _) hsame.dpl hsame.dph
  trap hm := hm.1
  held _ _ := trivial
  contents _ := trivial
  own _ _ _ := trivial
  store ha _ hm := hm.mono rfl (sfr_setSfr_of_ne _ _ ha.symm) rfl rfl
  ram hc v hm := by
    refine hm.mono rfl ?_ rfl rfl
    rw [sfr, setCell_apply, if_neg (hc DPS (by decide)).symm]
  dps0 hm := ⟨hm.1, false, selects_switch _ false rfl rfl⟩
  dps1 hm := ⟨hm.1, true, selects_switch _ true rfl rfl⟩
  notify a hm := by
    obtain ⟨l0, l1, hl⟩ := sfrNotify_eq _ a
    rw [hl]
    exact hm.mono rfl rfl rfl rfl
  hooks := by
    intro g a hook hk
    refine ⟨?_, fun w d _ _ => ⟨all_pokesOnly_true _, ?_⟩⟩
    · rintro rfl
      have hnone : chip.script.ramdHooks g DPS = none := by
        cases chip <;> rfl
      exact absurd (hk.symm.trans hnone) (Option.some_ne_none hook)
    · exact Prog.returns_of_forall (fun _ => trivial) _

/-! ## Instructions -/

end Machine

/-- The instructions that use `DPTR`. -/
inductive DptrInsn where
  | mov | inc | movxFrom | movxTo | movc | jmp
  deriving DecidableEq

namespace DptrInsn

/-- Their opcodes. -/
def opcode : DptrInsn → Byte
  | mov => 0x90
  | inc => 0xa3
  | movxFrom => 0xe0
  | movxTo => 0xf0
  | movc => 0x93
  | jmp => 0x73

/-- What they do with the pair `s`. -/
def effect {σ : Type} (s : Bool) (m : Machine σ) : DptrInsn → Machine σ
  | mov => (m.setPair s (word (m.fetch 1) (m.fetch 2))).setPc (m.pc + 3)
  | inc => (m.setPair s (m.pair s + 1)).setPc (m.pc + 1)
  | movxFrom => (m.setSfr ACC (m.readx (m.pair s))).setPc (m.pc + 1)
  | movxTo => (m.writex (m.pair s) (m.sfr ACC)).setPc (m.pc + 1)
  | movc => (m.setSfr ACC (m.readc (m.pair s + (m.sfr ACC).setWidth 16))).setPc (m.pc + 1)
  | jmp => m.setPc (m.pair s + (m.sfr ACC).setWidth 16)

/-- The label behind each opcode. -/
def label : DptrInsn → Label
  | mov => .mov90
  | inc => .incD
  | movxFrom => .movxE0
  | movxTo => .movxF0
  | movc => .movcAd
  | jmp => .jmpAd

/-- The opcode of every instruction with the data pointer has its record in the table. -/
lemma insnmap_opcode (i : DptrInsn) : insnmap i.opcode = i.label := by
  cases i <;> decide +kernel

end DptrInsn

namespace Machine

variable {σ : Type} {script : Script σ} {m m' m₀ : Machine σ} {s : Bool}

/-- In a state where the pair is selected, the instructions work on it. -/
lemma dispatch_dptrInsn (script : Script σ) (h : Selects s m) (i : DptrInsn) :
    dispatch script i.opcode m = some (i.effect s m) := by
  have hl := i.insnmap_opcode
  have hdptr := h.dptr
  cases i with
  | mov =>
    have hrun : (Label.mov90.record 0x90).code.run (cpuExec script) m =
        some ((), m.setPair s (word (m.fetch 1) (m.fetch 2))) := by
      change some ((), (m.setSfr m.dph.1 (m.fetch 1)).setSfr m.dpl.1 (m.fetch 2)) = _
      rw [setPair, hi_word, lo_word, h.dpl, h.dph]
    exact dispatch_of_run hl hrun
  | inc =>
    have hrun : (Label.incD.record 0xa3).code.run (cpuExec script) m =
        some ((), m.setPair s (m.pair s + 1)) := by
      change some ((), (m.setSfr m.dph.1 (hi (m.dptr + 1))).setSfr m.dpl.1 (lo (m.dptr + 1))) = _
      rw [setPair, hdptr, h.dpl, h.dph]
    exact dispatch_of_run hl hrun
  | movxFrom =>
    have hrun : (Label.movxE0.record 0xe0).code.run (cpuExec script) m =
        some ((), m.setSfr ACC (m.readx m.dptr)) := rfl
    rw [hdptr] at hrun
    exact dispatch_of_run hl hrun
  | movxTo =>
    have hpc : (m.writex m.dptr (m.sfr ACC)).pc = m.pc := (m.sameCore_writex _ _).pc
    have hrun : (Label.movxF0.record 0xf0).code.run (cpuExec script) m =
        some ((), m.writex m.dptr (m.sfr ACC)) := rfl
    rw [dispatch_of_run hl hrun, hpc, hdptr]
    rfl
  | movc =>
    have hrun : (Label.movcAd.record 0x93).code.run (cpuExec script) m =
        some ((), m.setSfr ACC (m.readc (m.dptr + (m.sfr ACC).setWidth 16))) := rfl
    rw [hdptr] at hrun
    exact dispatch_of_run hl hrun
  | jmp =>
    have hrun : (Label.jmpAd.record 0x73).code.run (cpuExec script) m =
        some ((), m.setPc (m.dptr + (m.sfr ACC).setWidth 16)) := rfl
    rw [dispatch_of_run hl hrun, hdptr]
    exact congrArg some (setPc_eq_self (BitVec.add_zero _))

/-- A pair depends on the registers only. -/
lemma pair_congr (h : m'.ramsfr = m.ramsfr) (t : Bool) : m'.pair t = m.pair t := by
  rw [pair, pair, sfr, sfr, sfr, sfr, h]

/-- A store to another register leaves the pair. -/
lemma pair_setSfr_of_ne (v : Byte) {a : Byte} (t : Bool) (hl : pairLow t ≠ a)
    (hh : pairHigh t ≠ a) :
    (m.setSfr a v).pair t = m.pair t := by
  rw [pair, sfr_setSfr_of_ne m v hl, sfr_setSfr_of_ne m v hh]
  rfl

/-- A pair that is stored is read back. -/
lemma pair_setPair_self (m : Machine σ) (s : Bool) (w : Word) : (m.setPair s w).pair s = w := by
  have hne : pairHigh s ≠ pairLow s := by cases s <;> decide
  have hlow : (m.setPair s w).sfr (pairLow s) = lo w := sfr_setSfr_self _ _ _
  have hhigh : (m.setPair s w).sfr (pairHigh s) = Emu51.hi w :=
    (sfr_setSfr_of_ne _ _ hne).trans (sfr_setSfr_self _ _ _)
  rw [pair, hlow, hhigh, word_hi_lo]

/-- Storing in one pair leaves the other alone. -/
lemma pair_setPair_not (m : Machine σ) (s : Bool) (w : Word) :
    (m.setPair s w).pair (!s) = m.pair (!s) := by
  have hdisjoint : pairLow (!s) ≠ pairLow s ∧ pairHigh (!s) ≠ pairLow s ∧
      pairLow (!s) ≠ pairHigh s ∧ pairHigh (!s) ≠ pairHigh s := by
    revert s
    decide
  obtain ⟨hll, hhl, hlh, hhh⟩ := hdisjoint
  rw [setPair, pair_setSfr_of_ne _ _ hll hhl, pair_setSfr_of_ne _ _ hlh hhh]

/-- The instructions with the data pointer leave the pair that is not selected alone. -/
lemma pair_effect (m : Machine σ) (s : Bool) (i : DptrInsn) :
    (i.effect s m).pair (!s) = m.pair (!s) := by
  have hacc : ∀ t, pairLow t ≠ ACC ∧ pairHigh t ≠ ACC := by decide
  cases i with
  | mov => exact m.pair_setPair_not s _
  | inc => exact m.pair_setPair_not s _
  | movxFrom => exact pair_setSfr_of_ne _ _ (hacc _).1 (hacc _).2
  | movc => exact pair_setSfr_of_ne _ _ (hacc _).1 (hacc _).2
  | movxTo =>
    have hsame : (m.writex (m.pair s) (m.sfr ACC)).ramsfr = m.ramsfr :=
      (m.sameCore_writex _ _).ramsfr
    exact pair_congr hsame _
  | jmp => rfl

/-! ## Switching -/

/-- A write to `DPS` selects a pair by its bit 0 and leaves both pairs alone. -/
lemma writed_dps (ht : m.ramsfrtrap = sfrInitTrap) {v : Byte}
    (h : writed script DPS v m = some m') :
    m'.sfr DPS = v &&& 1 ∧ ∀ t, m'.pair t = m.pair t := by
  have htrap : m.ramsfrtrap DPS = true := (congrFun ht DPS).trans (by decide)
  have hpairs : ∀ t, pairLow t ≠ DPS ∧ pairHigh t ≠ DPS := by decide
  unfold writed writedVia defaultRamdPut ramdPut at h
  rw [if_pos htrap, if_pos rfl] at h
  obtain ⟨m₁, hm₁, rfl⟩ := Option.map_eq_some_iff.1 h
  obtain ⟨l0, l1, hl⟩ := m₁.sfrNotify_eq DPS
  have hstored : m₁.ramsfr = (m.setSfr DPS (v &&& 1)).ramsfr := by
    split_ifs at hm₁ <;> obtain rfl := Option.some.inj hm₁ <;> rfl
  unfold afterRamdPut
  rw [if_neg (by decide : DPS ≠ PSW), hl]
  have hcells : ∀ c, (m₁.setPending l0 l1).ramsfr c = (m.setSfr DPS (v &&& 1)).ramsfr c :=
    fun c => congrFun hstored c
  refine ⟨(hcells _).trans (m.sfr_setSfr_self DPS _), fun t => ?_⟩
  rw [pair, sfr, sfr, hcells, hcells]
  exact pair_setSfr_of_ne _ _ (hpairs t).1 (hpairs t).2

/-- `DPS` has one of two values, so after two changes it has its first. -/
lemma selects_of_changes {t₁ t₂ : Bool} {m₁ m₂ : Machine σ} (h : Selects s m) (h₁ : Selects t₁ m₁)
    (h₂ : Selects t₂ m₂) (hfirst : m₁.sfr DPS ≠ m.sfr DPS) (hsecond : m₂.sfr DPS ≠ m₁.sfr DPS) :
    Selects s m₂ := by
  have hback : t₂ = s := by
    rw [h.dps, h₁.dps] at hfirst
    rw [h₁.dps, h₂.dps] at hsecond
    revert hfirst hsecond
    clear h h₁ h₂
    revert s t₁ t₂
    decide
  rw [← hback]
  exact h₂

/-! ## Runs -/

/-- What it means for the program that a pair is selected. -/
structure UsesPair (script : Script σ) (s : Bool) (m : Machine σ) : Prop where
  dptr : m.dptr = m.pair s
  insn : ∀ m₁ (i : DptrInsn), nextop script m = some (i.opcode, m₁) →
    (∀ t, m₁.pair t = m.pair t) ∧ m.step script = some (i.effect s m₁) ∧
      (i.effect s m₁).pair (!s) = m.pair (!s)
  inc : ∀ m₁ m', nextop script m = some (DptrInsn.inc.opcode, m₁) → m.step script = some m' →
    m'.pair s = m.pair s + 1
  switch : ∀ v v' m₁ m₂, writed script DPS v m = some m₁ → writed script DPS v' m₁ = some m₂ →
    v &&& 1 ≠ m.sfr DPS → v' &&& 1 ≠ v &&& 1 → m₂.dptr = m.dptr
  switchLater : ∀ tr₁ m₁ tr₂ m₂, Run (Happens script) m tr₁ m₁ → Run (Happens script) m₁ tr₂ m₂ →
    m₁.sfr DPS ≠ m.sfr DPS → m₂.sfr DPS ≠ m₁.sfr DPS → (∀ t, m₂.pair t = m.pair t) →
      m₂.dptr = m.dptr

/-- The look at the interrupts and the breakpoint in front of an instruction. -/
lemma nextop_selects (ht : m.ramsfrtrap = sfrInitTrap) (h : Selects s m) {op : Byte}
    (hnext : nextop script m = some (op, m')) : Selects s m' ∧ ∀ t, m'.pair t = m.pair t := by
  have hhalves : ∀ t, 0x80 ≤ pairLow t ∧ pairLow t ≠ SP ∧ 0x80 ≤ pairHigh t ∧ pairHigh t ≠ SP := by
    decide
  obtain ⟨mask, val, heq⟩ := nextop_eq script ht
  obtain ⟨-, rfl⟩ := Prod.mk.inj (Option.some.inj (hnext.symm.trans heq))
  have hpointers : m.pollIrq.dpl = m.dpl ∧ m.pollIrq.dph = m.dph := by
    obtain ⟨l, hl | ⟨x, y, w, hl⟩⟩ := m.pollIrq_eq <;> rw [hl] <;> exact ⟨rfl, rfl⟩
  have hdps : m.pollIrq.sfr DPS = m.sfr DPS := m.pollIrq_sfr (by decide) (by decide)
  refine ⟨h.mono hdps hpointers.1 hpointers.2, fun t => ?_⟩
  obtain ⟨hl, hlsp, hh, hhsp⟩ := hhalves t
  have hlow : m.pollIrq.sfr (pairLow t) = m.sfr (pairLow t) := m.pollIrq_sfr hl hlsp
  have hhigh : m.pollIrq.sfr (pairHigh t) = m.sfr (pairHigh t) := m.pollIrq_sfr hh hhsp
  change word (m.pollIrq.sfr (pairHigh t)) (m.pollIrq.sfr (pairLow t)) = _
  rw [hlow, hhigh, pair]

/-- When a pair is selected, all the instructions with the data pointer use it. -/
lemma DptrSelected.uses {chip : Chip} {m : Machine (Globals chip.Indacc)} (h : DptrSelected m) :
    ∃ s, Selects s m ∧ UsesPair chip.script s m := by
  obtain ⟨htrap, s, hs⟩ := h
  have hinsn : ∀ m₁ (i : DptrInsn), nextop chip.script m = some (i.opcode, m₁) →
      (∀ t, m₁.pair t = m.pair t) ∧ m.step chip.script = some (i.effect s m₁) ∧
        (i.effect s m₁).pair (!s) = m.pair (!s) := by
    intro m₁ i hnext
    obtain ⟨hs₁, hpairs⟩ := nextop_selects htrap hs hnext
    refine ⟨hpairs, ?_, (m₁.pair_effect s i).trans (hpairs _)⟩
    rw [step, hnext, Option.bind_some]
    exact dispatch_dptrInsn chip.script hs₁ i
  refine ⟨s, hs, hs.dptr, hinsn, ?_, ?_, ?_⟩
  · intro m₁ m' hnext hstep
    obtain ⟨hpairs, heffect, -⟩ := hinsn m₁ .inc hnext
    obtain rfl := Option.some.inj (heffect.symm.trans hstep)
    rw [← hpairs s]
    exact m₁.pair_setPair_self s _
  · intro v v' m₁ m₂ hfirst hsecond hv hv'
    have hm : DptrSelected m := ⟨htrap, s, hs⟩
    have hm₁ : DptrSelected m₁ := (dptrSelected_rule chip).writed trivial hm hfirst
    have hm₂ : DptrSelected m₂ := (dptrSelected_rule chip).writed trivial hm₁ hsecond
    obtain ⟨hdps₁, hpairs₁⟩ := writed_dps htrap hfirst
    obtain ⟨hdps₂, hpairs₂⟩ := writed_dps hm₁.1 hsecond
    obtain ⟨-, t₁, hs₁⟩ := hm₁
    obtain ⟨-, t₂, hs₂⟩ := hm₂
    have hback : Selects s m₂ :=
      selects_of_changes hs hs₁ hs₂ (by rwa [hdps₁]) (by rwa [hdps₂, hdps₁])
    rw [hback.dptr, hs.dptr, hpairs₂, hpairs₁]
  · intro tr₁ m₁ tr₂ m₂ hrun₁ hrun₂ hfirst hsecond hpairs
    have hm : DptrSelected m := ⟨htrap, s, hs⟩
    have hm₁ : DptrSelected m₁ := ((dptrSelected_rule chip).run hrun₁ (fun _ _ => trivial) hm).2
    have hm₂ : DptrSelected m₂ := ((dptrSelected_rule chip).run hrun₂ (fun _ _ => trivial) hm₁).2
    obtain ⟨-, t₁, hs₁⟩ := hm₁
    obtain ⟨-, t₂, hs₂⟩ := hm₂
    have hback : Selects s m₂ := selects_of_changes hs hs₁ hs₂ hfirst hsecond
    rw [hback.dptr, hs.dptr, hpairs]

/-- `main` and the chip script leave the first pair selected. -/
lemma boot_dptrSelected (chip : Chip) {heap : ℕ → Buffer} {file : List Byte}
    {m : Machine (Globals chip.Indacc)} (h : boot chip.script heap file = some m) :
    DptrSelected m := by
  obtain ⟨m₀, hinit, hstart⟩ := mainInit_started chip.script heap file
  have hfirst : m₀.dpl.1 = DPL0 ∧ m₀.dph.1 = DPH0 := by
    obtain rfl := Option.some.inj (hinit.symm.trans rfl)
    exact ⟨rfl, rfl⟩
  have hdps : m₀.sfr DPS = 0 := by
    rw [sfr, hstart.ramsfr, Function.update_of_ne (by rw [Ne, dataCell_inj]; decide)]
  have hm₀ : DptrSelected m₀ := ⟨hstart.ramsfrtrap, false, hdps, hfirst.1, hfirst.2⟩
  rw [boot_eq, hinit, Option.bind_some] at h
  obtain ⟨y, hload, hm⟩ := Option.bind_eq_some_iff.1 h
  obtain rfl := Option.some.inj hm
  exact (dptrSelected_rule chip).runLua (all_pokesOnly_true _) hm₀ hload

/-- In every state of every run under either script, `DPS` is 0 or 1, `DPTR` is the pair it selects,
and the instructions use that pair only. -/
theorem run_usesPair (chip : Chip) {heap : ℕ → Buffer} {file : List Byte}
    {m₀ m : Machine (Globals chip.Indacc)} (hboot : boot chip.script heap file = some m₀)
    {tr : List (Machine (Globals chip.Indacc) × Event)} (hrun : Run (Happens chip.script) m₀ tr m) :
    Run.Throughout (fun m => ∃ s, Selects s m ∧ UsesPair chip.script s m) tr m := by
  obtain ⟨htr, hlast⟩ := (dptrSelected_rule chip).run hrun (fun _ _ => trivial)
    (boot_dptrSelected chip hboot)
  exact ⟨fun e he => (htr e he).uses, hlast.uses⟩

/-- The theorem where the second pair has been selected. -/
theorem run_usesPair_second : ∃ m : Machine (Globals Rtl8372.Indacc),
    Selects true m ∧ UsesPair Rtl8372.script true m := by
  have heval : ((boot Rtl8372.script (fun _ => default) []).bind fun m₀ =>
      Run.follow (happen Rtl8372.script) [.poke DPS 0xff] m₀).map (fun m => m.sfr DPS) =
        some 1 := by
    decide +kernel
  obtain ⟨m, hm, hdps⟩ := Option.map_eq_some_iff.1 heval
  obtain ⟨m₀, hboot, hfollow⟩ := Option.bind_eq_some_iff.1 hm
  obtain ⟨tr, -, hrun⟩ := Run.of_follow hfollow
  obtain ⟨s, hs, huses⟩ := (run_usesPair .rtl8372 hboot hrun).2
  have hsecond : s = true := by
    have hbit := hs.dps
    rw [hdps] at hbit
    revert hbit
    clear hs huses
    revert s
    decide
  exact ⟨m, hsecond ▸ hs, hsecond ▸ huses⟩

end Machine

end Emu51

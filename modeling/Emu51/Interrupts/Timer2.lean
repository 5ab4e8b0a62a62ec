import Emu51.Chip.Hooks
import Emu51.Interrupts.Acceptance
import Emu51.Machine.Registers

/-!
# Timer 2

`rtl8372.lua` has no timer. It sets `TF2` when firmware goes idle, which it means to see in bit 0 of
`PCON`. But the hook tests the number `data & 1`, and every number counts as true in Lua.
-/

namespace Emu51

open Chip Lua

/-- The flag `TF2` in `T2CON`. -/
@[simp] abbrev TF2 : Byte := 0x80

/-- The write asks for no change of `PCON` and does not set `TF2`. -/
def KeepsTf2 (a v : Byte) : Prop := a ≠ PCON ∧ (a = T2CON → v &&& TF2 = 0)

namespace Machine

variable {σ : Type} {script : Script σ} {m m' m₀ : Machine σ}

/-- Nothing comes of timer 2: its flag is clear, it is not requested, and its vector is not the one
`nextop` would go to. -/
structure Timer2Quiet (m : Machine σ) : Prop where
  tf2 : m.sfr T2CON &&& TF2 = 0
  irqpendl0 : m.irqpendl0.getLsbD 5 = false
  irqpendl1 : m.irqpendl1.getLsbD 5 = false
  vector : m.irqSelect.1 ≠ 0x2b

/-- The invariant: the flag is clear, and the interrupt is not requested. -/
structure Timer2Clear (m : Machine σ) : Prop where
  ramsfrtrap : m.ramsfrtrap = sfrInitTrap
  irqs : m.irqs = mainIrqs
  tf2 : m.sfr T2CON &&& TF2 = 0
  irqpendl0 : m.irqpendl0.getLsbD 5 = false
  irqpendl1 : m.irqpendl1.getLsbD 5 = false

/-- Of the interrupts that `main` sets up, only timer 2 has the vector `0x2b`. -/
lemma vec_mainIrqs {i : Fin 32} (hi : i ≠ 5) : ((mainIrqs i).vec.toNat : ℤ) ≠ 0x2b := by
  revert i
  decide

/-- The interrupt `nextop` would take is one that is requested. -/
lemma Timer2Clear.quiet (h : Timer2Clear m) : Timer2Quiet m := by
  refine ⟨h.tf2, h.irqpendl0, h.irqpendl1, ?_⟩
  by_cases htop : m.topRequests.1 ≠ 0 ∧ m.Outranks m.topRequests.2
  · have hne : m.topIrq ≠ 5 := by
      intro heq
      have hreq := requested_topIrq htop.1
      unfold Requested at hreq
      rw [heq] at hreq
      rcases hreq with ⟨-, hbit⟩ | ⟨-, hbit⟩
      · exact absurd (h.irqpendl1.symm.trans hbit) (by decide)
      · exact absurd (h.irqpendl0.symm.trans hbit) (by decide)
    rw [irqSelect_of_outranks htop.1 htop.2, h.irqs]
    exact vec_mainIrqs hne
  · have hnone : m.topRequests.1 = 0 ∨ ¬m.Outranks m.topRequests.2 := by
      rw [← not_not (a := m.topRequests.1 = 0)]
      exact not_and_or.1 htop
    rw [irqSelect_of_not_outranks hnone]
    exact (by decide : (-1 : ℤ) ≠ 0x2b)

/-! ## Accesses -/

/-- A store keeps timer 2 quiet unless it sets `TF2`. -/
lemma Timer2Clear.setCell (h : Timer2Clear m) {c : Cell} {v : Byte}
    (hc : c = dataCell T2CON → v &&& TF2 = 0) : Timer2Clear (m.setCell c v) where
  ramsfrtrap := h.ramsfrtrap
  irqs := h.irqs
  tf2 := by
    rw [sfr, setCell_apply]
    split_ifs with heq
    · exact hc heq.symm
    · exact h.tf2
  irqpendl0 := h.irqpendl0
  irqpendl1 := h.irqpendl1

/-- Updating the request of one interrupt keeps timer 2 quiet. -/
lemma Timer2Clear.sfrNotifyIrq (h : Timer2Clear m) (idx : Fin 32) :
    Timer2Clear (m.sfrNotifyIrq idx) := by
  have hmasks : (m.sfrNotifyIrq idx).irqpendl0.getLsbD 5 = false ∧
      (m.sfrNotifyIrq idx).irqpendl1.getLsbD 5 = false := by
    by_cases hidx : (5 : Fin 32) = idx
    · subst hidx
      have hsource : m.sfrBitval (m.irqs 5).source = false := by
        have hflag : (m.sfr T2CON ^^^ 0#8) &&& TF2 = 0 := by
          rw [BitVec.xor_zero]
          exact h.tf2
        rw [h.irqs]
        exact bne_eq_false_iff_eq.2 hflag
      exact sfrNotifyIrq_pending_self hsource
    · obtain ⟨hbit0, hbit1⟩ := m.sfrNotifyIrq_pending_of_ne hidx
      exact ⟨hbit0.trans h.irqpendl0, hbit1.trans h.irqpendl1⟩
  obtain ⟨l0, l1, hl⟩ := m.sfrNotifyIrq_eq idx
  rw [hl] at hmasks ⊢
  exact ⟨h.ramsfrtrap, h.irqs, h.tf2, hmasks.1, hmasks.2⟩

/-- Calling all the listeners of a register does, too. -/
lemma Timer2Clear.sfrNotify (h : Timer2Clear m) (a : Byte) : Timer2Clear (m.sfrNotify a) := by
  unfold Machine.sfrNotify
  generalize m.ramsfrnotifiers a = idxs
  induction idxs generalizing m with
  | nil => exact h
  | cons idx idxs ih => exact ih (h.sfrNotifyIrq idx)

/-- A hook that only works on the globals and on external memory pokes no register. -/
lemma pokesOnly_of_calm {w : Bool} {o : LuaOp σ} {ok : Byte → Byte → Prop} (h : o.Calm w) :
    o.PokesOnly ok := by
  cases o with
  | pokeSfr addr v => exact absurd h id
  | _ => trivial

/-- Called for a read, `sfr_pcon` writes `SCON` back, and no other hook pokes a register. -/
lemma pokes_rtl8372 {g : Rtl8372.G} {a : Byte} {hook : Hook Rtl8372.G}
    (h : Rtl8372.script.ramdHooks g a = some hook) (w : Bool) (d : LuaInt)
    (hw : w = true → KeepsTf2 a (byteOfLua d)) : (hook w d).All (LuaOp.PokesOnly KeepsTf2) := by
  rcases Rtl8372.hooks_calm _ (mem_of_lookup h) with hcalm | hbank | hbank | hpcon
  · exact (hcalm w d).mono fun _ ho => pokesOnly_of_calm ho
  · obtain ⟨rfl, rfl⟩ := Prod.mk.inj hbank
    cases w with
    | true => exact ⟨trivial, fun _ => ⟨trivial, fun _ => trivial⟩⟩
    | false => trivial
  · obtain ⟨rfl, rfl⟩ := Prod.mk.inj hbank
    refine Prog.All.bind (all_when fun _ => ?_) fun _ => trivial
    exact Prog.all_ite.2 ⟨fun _ => ⟨trivial, fun _ => trivial⟩, fun _ =>
      ⟨trivial, fun _ => trivial⟩⟩
  · obtain ⟨rfl, rfl⟩ := Prod.mk.inj hpcon
    cases w with
    | true => exact absurd rfl (hw rfl).1
    | false =>
      have hscon : ∀ v, KeepsTf2 (byteOfLua 0x98) v := fun v =>
        ⟨by decide, fun heq => absurd heq (by decide)⟩
      exact ⟨trivial, fun _ => ⟨hscon _, fun _ => trivial⟩⟩

/-- Every hook returns a byte without `TF2` at `T2CON`, if it is given one without it. -/
lemma returns_rtl8372 {g : Rtl8372.G} {a : Byte} {hook : Hook Rtl8372.G}
    (h : Rtl8372.script.ramdHooks g a = some hook) (w : Bool) {d : LuaInt}
    (hd : a = T2CON → byteOfLua d &&& TF2 = 0) :
    (hook w d).Returns fun r => a = T2CON → byteOfLua r &&& TF2 = 0 := by
  by_cases ha : a = T2CON
  · subst ha
    have hplain : Rtl8372.script.ramdHooks g T2CON = some sfrT2con := rfl
    obtain rfl := Option.some.inj (h.symm.trans hplain)
    exact hd
  · exact Prog.returns_of_forall (fun r heq => absurd heq ha) _

/-- Without writes to `PCON` and with `TF2` left clear, no access loses the invariant. -/
lemma timer2Clear_rule :
    SfrRule Rtl8372.script KeepsTf2 (fun a v => a = T2CON → v &&& TF2 = 0) Timer2Clear where
  regs hsame hm := by
    refine ⟨hsame.ramsfrtrap.trans hm.ramsfrtrap, hsame.irqs.trans hm.irqs, ?_, ?_, ?_⟩
    · rw [sfr, hsame.ramsfr]
      exact hm.tf2
    · rw [hsame.irqpendl0]
      exact hm.irqpendl0
    · rw [hsame.irqpendl1]
      exact hm.irqpendl1
  trap hm := hm.ramsfrtrap
  held hm a ha := by
    subst ha
    exact hm.tf2
  contents hw := hw.2
  own a ha v heq := by
    subst heq
    exact absurd ha (by decide)
  store _ hv hm := hm.setCell fun heq => hv (dataCell_inj.1 heq)
  ram hc v hm := hm.setCell fun heq => absurd heq (hc T2CON (by decide))
  dps0 hm := by
    have hstored := hm.setCell (c := dataCell DPS) (v := 0) fun heq => absurd heq (by decide)
    exact ⟨hstored.ramsfrtrap, hstored.irqs, hstored.tf2, hstored.irqpendl0, hstored.irqpendl1⟩
  dps1 hm := by
    have hstored := hm.setCell (c := dataCell DPS) (v := 1) fun heq => absurd heq (by decide)
    exact ⟨hstored.ramsfrtrap, hstored.irqs, hstored.tf2, hstored.irqpendl0, hstored.irqpendl1⟩
  notify a hm := hm.sfrNotify a
  hooks := by
    intro g a hook hk
    refine ⟨?_, fun w d hw hd => ⟨pokes_rtl8372 hk w d hw, returns_rtl8372 hk w hd⟩⟩
    rintro rfl
    exact absurd hk (Option.some_ne_none hook).symm

/-! ## Runs -/

/-- After `main` the flag `TF2` is clear, and nothing requests the interrupt of timer 2. -/
lemma boot_timer2Clear {heap : ℕ → Buffer} {file : List Byte} {m : Machine Rtl8372.G}
    (h : boot Rtl8372.script heap file = some m) : Timer2Clear m := by
  obtain ⟨m₁, y, hstart, hload, rfl⟩ := boot_eq_some h
  have htf2 : m₁.sfr T2CON = 0 := by
    rw [sfr, hstart.ramsfr, Function.update_of_ne (by rw [Ne, dataCell_inj]; decide)]
  have hstarted : Timer2Clear m₁ := by
    refine ⟨hstart.ramsfrtrap, hstart.irqs, by rw [htf2]; rfl, ?_, ?_⟩
    · rw [hstart.irqpendl0]
      rfl
    · rw [hstart.irqpendl1]
      rfl
  have hpokes : Rtl8372.script.chunk.All (LuaOp.PokesOnly KeepsTf2) := by
    refine ⟨trivial, fun _ => ⟨trivial, fun _ => ⟨trivial, fun _ => trivial⟩⟩⟩
  exact timer2Clear_rule.runLua hpokes hstarted hload

/-- In a run of `rtl8372.lua` in which nothing writes `PCON` and no write to `T2CON` sets `TF2`,
there is no sign of timer 2 in any state. -/
theorem run_timer2Quiet {heap : ℕ → Buffer} {file : List Byte} {m₀ m : Machine Rtl8372.G}
    (hboot : boot Rtl8372.script heap file = some m₀)
    {tr : List (Machine Rtl8372.G × Event)} (hrun : Run (Happens Rtl8372.script) m₀ tr m)
    (hpcon : ∀ w ∈ writeHistory Rtl8372.script tr, w.1 ≠ PCON)
    (ht2con : ∀ w ∈ writeHistory Rtl8372.script tr, w.1 = T2CON → w.2 &&& TF2 = 0) :
    Run.Throughout Timer2Quiet tr m := by
  obtain ⟨htr, hlast⟩ := timer2Clear_rule.run hrun (fun w hw => ⟨hpcon w hw, ht2con w hw⟩)
    (boot_timer2Clear hboot)
  exact ⟨fun e he => (htr e he).quiet, hlast.quiet⟩

/-- The theorem where `T2CON` has been set up for the UART. -/
theorem run_timer2Quiet_uart : ∃ m : Machine Rtl8372.G, m.sfr T2CON = 0x34 ∧ Timer2Quiet m := by
  have heval : ((boot Rtl8372.script (fun _ => default) [0x75, 0xc8, 0x34]).bind fun m₀ =>
      (happen Rtl8372.script .insn m₀).map fun m => (writes Rtl8372.script m₀ .insn, m.sfr T2CON)) =
        some ([(T2CON, 0x34)], 0x34) := by
    decide +kernel
  obtain ⟨m₀, hboot, hm⟩ := Option.bind_eq_some_iff.1 heval
  obtain ⟨m, hstep, hval⟩ := Option.map_eq_some_iff.1 hm
  obtain ⟨hwrites, htf2⟩ := Prod.mk.inj hval
  have hrun : Run (Happens Rtl8372.script) m₀ [(m₀, .insn)] m := .head hstep (.refl m)
  have hhistory : writeHistory Rtl8372.script [(m₀, .insn)] = [(T2CON, 0x34)] := by
    rw [← hwrites]
    exact List.append_nil _
  refine ⟨m, htf2, (run_timer2Quiet hboot hrun ?_ ?_).2⟩
  · rw [hhistory, List.forall_mem_singleton]
    decide
  · rw [hhistory, List.forall_mem_singleton]
    decide

/-- `MOV PCON, #80H`, which only doubles the baud rate, sets the flag. -/
theorem smod_sets_tf2 : ¬∀ (file : List Byte) (m₀ m : Machine Rtl8372.G)
    (tr : List (Machine Rtl8372.G × Event)),
    boot Rtl8372.script (fun _ => default) file = some m₀ → Run (Happens Rtl8372.script) m₀ tr m →
    (∀ w ∈ writeHistory Rtl8372.script tr, w.1 = PCON → w.2 &&& 1 = 0) →
    (∀ w ∈ writeHistory Rtl8372.script tr, w.1 = T2CON → w.2 &&& TF2 = 0) →
    Run.Throughout Timer2Quiet tr m := by
  intro hall
  have heval : ((boot Rtl8372.script (fun _ => default) [0x75, 0x87, 0x80]).bind fun m₀ =>
      (happen Rtl8372.script .insn m₀).map fun m => (writes Rtl8372.script m₀ .insn, m.sfr T2CON)) =
        some ([(PCON, 0x80)], 0x80) := by
    decide +kernel
  obtain ⟨m₀, hboot, hm⟩ := Option.bind_eq_some_iff.1 heval
  obtain ⟨m, hstep, hval⟩ := Option.map_eq_some_iff.1 hm
  obtain ⟨hwrites, htf2⟩ := Prod.mk.inj hval
  have hrun : Run (Happens Rtl8372.script) m₀ [(m₀, .insn)] m := .head hstep (.refl m)
  have hhistory : writeHistory Rtl8372.script [(m₀, .insn)] = [(PCON, 0x80)] := by
    rw [← hwrites]
    exact List.append_nil _
  have hpcon : ∀ w ∈ writeHistory Rtl8372.script [(m₀, .insn)], w.1 = PCON → w.2 &&& 1 = 0 := by
    rw [hhistory, List.forall_mem_singleton]
    decide
  have ht2con : ∀ w ∈ writeHistory Rtl8372.script [(m₀, .insn)], w.1 = T2CON → w.2 &&& TF2 = 0 := by
    rw [hhistory, List.forall_mem_singleton]
    decide
  have hflag := (hall _ m₀ m _ hboot hrun hpcon ht2con).2.tf2
  rw [htf2] at hflag
  exact absurd hflag (by decide)

end Machine

end Emu51

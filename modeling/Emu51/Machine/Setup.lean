import Emu51.Machine.Effects
import Emu51.Machine.System

/-!
# What `main` has set up stays

The trap table, the interrupts and their notifiers are set up once. Neither instructions nor
register accesses nor the listener change them.
-/

namespace Emu51

namespace Machine

variable {σ : Type} {script : Script σ} {m m' m'' : Machine σ}

/-- The two states have the same trap table, interrupts and notifiers. -/
structure SameSetup (m m' : Machine σ) : Prop where
  ramsfrtrap : m'.ramsfrtrap = m.ramsfrtrap
  irqs : m'.irqs = m.irqs
  ramsfrnotifiers : m'.ramsfrnotifiers = m.ramsfrnotifiers

/-- A state is set up as itself. -/
lemma SameSetup.refl (m : Machine σ) : SameSetup m m := ⟨rfl, rfl, rfl⟩

/-- What stays set up in two steps stays set up. -/
lemma SameSetup.trans (h : SameSetup m m') (h' : SameSetup m' m'') : SameSetup m m'' where
  ramsfrtrap := h'.ramsfrtrap.trans h.ramsfrtrap
  irqs := h'.irqs.trans h.irqs
  ramsfrnotifiers := h'.ramsfrnotifiers.trans h.ramsfrnotifiers

/-- States with the same core are set up alike. -/
lemma SameCore.setup (h : SameCore m m') : SameSetup m m' :=
  ⟨h.ramsfrtrap, h.irqs, h.ramsfrnotifiers⟩

/-- No effect of an access touches the set-up. -/
lemma SfrEffects.setup {ok : Byte → Byte → Prop} (h : SfrEffects ok m m') : SameSetup m m' :=
  ⟨h.fixed.ramsfrtrap, h.fixed.irqs, h.fixed.ramsfrnotifiers⟩

/-- No operation of the CPU touches the set-up. -/
lemma cpuExec_setup {o : CpuOp} {r : o.Res} (h : cpuExec script o m = some (r, m')) :
    SameSetup m m' := by
  cases o with
  | readd a => exact (readd_effects (pokesOnly_true script) h).setup
  | writed a v =>
    obtain ⟨m₁, hm₁, heq⟩ := Option.map_eq_some_iff.1 h
    obtain ⟨-, rfl⟩ := Prod.mk.inj heq
    exact (writed_effects (pokesOnly_true script) trivial hm₁).setup
  | writex a v =>
    obtain ⟨-, rfl⟩ := Prod.mk.inj (Option.some.inj h)
    exact (m.sameCore_writex a v).setup
  | _ =>
    obtain ⟨-, rfl⟩ := Prod.mk.inj (Option.some.inj h)
    exact ⟨rfl, rfl, rfl⟩

/-- Accepting an interrupt does not touch the set-up. -/
lemma pollIrq_setup (m : Machine σ) : SameSetup m m.pollIrq := by
  obtain ⟨l, hl | ⟨x, y, w, hl⟩⟩ := m.pollIrq_eq
  · rw [hl]
    exact ⟨rfl, rfl, rfl⟩
  · rw [hl]
    exact ⟨rfl, rfl, rfl⟩

/-- Fetching an opcode does not touch it, the interrupt before it included. -/
lemma nextop_setup {op : Byte} (h : nextop script m = some (op, m')) : SameSetup m m' := by
  have hfetch := fetchOp_invariant (I := SameSetup m) (D := fun _ => True)
    (fun o s r s' _ hs he => hs.trans (cpuExec_setup he)) (fun w => Prog.all_true _)
    m.pollIrq_setup h
  exact hfetch.2

/-- Performing an instruction does not touch the set-up. -/
lemma dispatch_setup {op : Byte} (h : dispatch script op m = some m') : SameSetup m m' :=
  dispatch_invariant (I := SameSetup m) (fun _ _ _ _ hs he => hs.trans (cpuExec_setup he))
    (.refl m) h

/-- So what `main` has set up stays as it is from step to step. -/
lemma step_setup (h : m.step script = some m') : SameSetup m m' := by
  obtain ⟨op, m₁, hnext, hexec⟩ := step_eq_some h
  exact (nextop_setup hnext).trans (dispatch_setup hexec)

/-- A received byte does not touch the set-up. -/
lemma uartListener_setup (d : Byte) (m : Machine σ) : SameSetup m (m.uartListener d).2 := by
  unfold uartListener
  split_ifs
  · exact ⟨rfl, rfl, rfl⟩
  · exact .refl m

/-- No event of a run changes what `main` has set up: traps, interrupts and their listeners. -/
theorem happen_setup {e : Event} (h : happen script e m = some m') : SameSetup m m' := by
  cases e with
  | insn => exact step_setup h
  | poke addr v => exact (writed_effects (pokesOnly_true script) trivial h).setup
  | uart d =>
    obtain rfl := Option.some.inj h
    exact m.uartListener_setup d

/-- Loading the chip script does not change it either. -/
lemma boot_setup {heap : ℕ → Buffer} {file : List Byte} (h : boot script heap file = some m) :
    m.ramsfrtrap = sfrInitTrap ∧ m.irqs = mainIrqs ∧ m.ramsfrnotifiers = mainNotifiers := by
  obtain ⟨m₀, y, hstart, hload, rfl⟩ := boot_eq_some h
  have hsetup := (runLua_effects (pokesOnly_true script) (all_pokesOnly_true _) hload).setup
  exact ⟨hsetup.ramsfrtrap.trans hstart.ramsfrtrap, hsetup.irqs.trans hstart.irqs,
    hsetup.ramsfrnotifiers.trans hstart.ramsfrnotifiers⟩

end Machine

end Emu51

import Emu51.Library.Transition
import Emu51.Machine.System
import Emu51.Registers.Psw

/-!
# The register window over whole runs

The register pointer `reg` is moved only where `PSW` is trapped, and `main` leaves `PSW` untrapped.
So `reg` stays at bank 0 for ever, and it agrees with `PSW` exactly as long as every step keeps bank
0 selected.
-/

namespace Emu51

variable {σ : Type}

namespace Machine

/-- The register window is the one `PSW` selects, so that `Rn` is the cell `PSW` says. -/
def WindowFollows (m : Machine σ) : Prop :=
  m.reg = regBase (m.sfr PSW) ∧
    ∀ n, regCell m.reg n = dataCell ((m.sfr PSW &&& 0x18) + n.setWidth 8)

/-- The event keeps bank 0 selected: the instruction stores in `PSW`, if at all, a byte that selects
bank 0, and so does a poke of `PSW`. -/
def KeepsBank (script : Script σ) (m : Machine σ) : Event → Prop
  | .insn => ∀ op m₁, nextop script m = some (op, m₁) → (insnmap op).ToPsw m₁ →
      (insnmap op).stored script op m₁ &&& 0x18 = 0
  | .poke addr v => addr = PSW → v &&& 0x18 = 0
  | .uart _ => True

/-- What never changes after `main`: the trap table, and with it the register window. -/
structure WindowFixed (m : Machine σ) : Prop where
  ramsfrtrap : m.ramsfrtrap = sfrInitTrap
  reg : m.reg = regBase 0

variable {script : Script σ} {m m' m₀ : Machine σ}

/-- In bank 0, the window follows `PSW` exactly if `PSW` selects bank 0. -/
lemma WindowFixed.follows_iff (h : WindowFixed m) : WindowFollows m ↔ m.sfr PSW &&& 0x18 = 0 := by
  unfold WindowFollows
  rw [h.reg]
  constructor
  · rintro ⟨hreg, -⟩
    exact (congrArg Subtype.val hreg).symm
  · intro hbank
    have hreg : regBase 0 = regBase (m.sfr PSW) := Subtype.ext hbank.symm
    refine ⟨hreg, fun n => ?_⟩
    rw [hbank]
    rfl

/-! ## Nothing moves the window -/

/-- No effect of an access moves the window, as `PSW` is not trapped. -/
lemma SfrEffects.windowFixed {ok : Byte → Byte → Prop} (h : SfrEffects ok m m')
    (hm : WindowFixed m) : WindowFixed m' := by
  have htrap : m.ramsfrtrap PSW = false := by
    rw [hm.ramsfrtrap]
    decide
  exact ⟨h.fixed.ramsfrtrap.trans hm.ramsfrtrap, (h.reg htrap).trans hm.reg⟩

/-- No operation of the CPU moves the window. -/
lemma cpuExec_windowFixed {o : CpuOp} {r : o.Res} (hm : WindowFixed m)
    (h : cpuExec script o m = some (r, m')) : WindowFixed m' := by
  cases o with
  | readd a => exact (readd_effects (pokesOnly_true script) h).windowFixed hm
  | writed a v =>
    obtain ⟨m₁, hm₁, heq⟩ := Option.map_eq_some_iff.1 h
    obtain ⟨-, rfl⟩ := Prod.mk.inj heq
    exact (writed_effects (pokesOnly_true script) trivial hm₁).windowFixed hm
  | writex a v =>
    obtain ⟨-, rfl⟩ := Prod.mk.inj (Option.some.inj h)
    have hcore := m.sameCore_writex a v
    exact ⟨hcore.ramsfrtrap.trans hm.ramsfrtrap, hcore.reg.trans hm.reg⟩
  | _ =>
    obtain ⟨-, rfl⟩ := Prod.mk.inj (Option.some.inj h)
    exact ⟨hm.ramsfrtrap, hm.reg⟩

/-- Accepting an interrupt does not move it. -/
lemma pollIrq_windowFixed (hm : WindowFixed m) : WindowFixed m.pollIrq := by
  obtain ⟨l, hl | ⟨x, y, w, hl⟩⟩ := m.pollIrq_eq
  · rw [hl]
    exact ⟨hm.ramsfrtrap, hm.reg⟩
  · rw [hl]
    exact ⟨hm.ramsfrtrap, hm.reg⟩

/-- So no event moves it at all. -/
lemma happen_windowFixed {e : Event} (hm : WindowFixed m) (h : happen script e m = some m') :
    WindowFixed m' := by
  cases e with
  | insn =>
    obtain ⟨op, m₁, hnext, hexec⟩ := step_eq_some h
    obtain ⟨mask, val, heq⟩ := nextop_eq script hm.ramsfrtrap
    obtain ⟨rfl, rfl⟩ := Prod.mk.inj (Option.some.inj (hnext.symm.trans heq))
    have hm₁ : WindowFixed (m.pollIrq.setBreakpoint mask val) :=
      ⟨(pollIrq_windowFixed hm).ramsfrtrap, (pollIrq_windowFixed hm).reg⟩
    exact dispatch_invariant (fun o s r s' hs he => cpuExec_windowFixed hs he) hm₁ hexec
  | poke addr v => exact (writed_effects (pokesOnly_true script) trivial h).windowFixed hm
  | uart d =>
    obtain rfl := Option.some.inj h
    unfold uartListener
    split_ifs
    · exact ⟨hm.ramsfrtrap, hm.reg⟩
    · exact hm

/-! ## The bank `PSW` selects -/

/-- The flags of an instruction leave bank 0 selected. -/
lemma bank_of_sets {c : PswClass} (h : c.Sets m m') (hbank : m.sfr PSW &&& 0x18 = 0) :
    m'.sfr PSW &&& 0x18 = 0 := by
  cases c with
  | quiet => exact (congrArg (· &&& 0x18) h).trans hbank
  | alu o =>
    obtain ⟨a, b, hab⟩ := h
    rw [hab]
    exact (and_eq_of_subset (by decide) (apply_and_rest o a b _)).trans hbank
  | carry => exact (and_eq_of_subset (by decide) h).trans hbank
  | mul =>
    rw [show m'.sfr PSW = _ from h]
    unfold Ops.mulPsw
    split_ifs
    · decide
    · decide
  | div =>
    have hbits : ∀ (p : Byte) (c : Bool),
        ((p &&& ~~~(PSW_C ||| PSW_OV)) ||| flagIf PSW_OV c) &&& 0x18 = p &&& 0x18 := by
      intro p c
      revert p
      cases c <;> decide
    rw [h.1, hbits, hbank]

/-- An instruction leaves bank 0 selected exactly if what it stores in `PSW` does. -/
lemma bank_of_spec {l : Label} {op : Byte} (h : l.PswSpec script op m m')
    (hbank : m.sfr PSW &&& 0x18 = 0) :
    m'.sfr PSW &&& 0x18 = 0 ↔ (l.ToPsw m → l.stored script op m &&& 0x18 = 0) := by
  by_cases hto : l.ToPsw m
  · rw [h.toPsw hto]
    exact ⟨fun hb _ => hb, fun hb => hb hto⟩
  · exact iff_of_true (bank_of_sets (h.flags hto) hbank) fun hn => absurd hn hto

/-- An event leaves bank 0 selected exactly if it meets the condition. -/
lemma bank_of_happen (hs : script.LeavesPsw) {e : Event} (hm : WindowFixed m)
    (hbank : m.sfr PSW &&& 0x18 = 0) (h : happen script e m = some m') :
    m'.sfr PSW &&& 0x18 = 0 ↔ m.KeepsBank script e := by
  cases e with
  | insn =>
    obtain ⟨op, m₁, hnext, hexec⟩ := step_eq_some h
    obtain ⟨mask, val, heq⟩ := nextop_eq script hm.ramsfrtrap
    have hm₁ : WindowFixed m₁ ∧ m₁.sfr PSW &&& 0x18 = 0 := by
      obtain ⟨rfl, rfl⟩ := Prod.mk.inj (Option.some.inj (hnext.symm.trans heq))
      have hpoll := pollIrq_windowFixed hm
      refine ⟨⟨hpoll.ramsfrtrap, hpoll.reg⟩, ?_⟩
      exact (congrArg (· &&& 0x18) (m.pollIrq_sfr (by decide) (by decide))).trans hbank
    rw [bank_of_spec (dispatch_psw hs hm₁.1.ramsfrtrap hexec) hm₁.2]
    constructor
    · intro hstored op' m₂ hnext'
      obtain ⟨rfl, rfl⟩ := Prod.mk.inj (Option.some.inj (hnext.symm.trans hnext'))
      exact hstored
    · intro hkeep
      exact hkeep op m₁ hnext
  | poke addr v =>
    obtain ⟨-, hpsw⟩ := writed_cases (.inr rfl) hs.leavesSfr hm.ramsfrtrap h
    rw [hpsw, KeepsBank]
    split
    · next haddr => exact ⟨fun hv _ => hv, fun hv => hv haddr⟩
    · next haddr => exact iff_of_true hbank fun hn => absurd hn haddr
  | uart d =>
    obtain rfl := Option.some.inj h
    have hpsw : (m.uartListener d).2.sfr PSW = m.sfr PSW := by
      unfold uartListener
      split_ifs
      · exact (sfr_setSfr_of_ne _ _ (by decide)).trans (sfr_setSfr_of_ne _ _ (by decide))
      · rfl
    rw [hpsw]
    exact iff_of_true hbank trivial

/-- After `main`, the window is at bank 0, and a chip script that leaves `PSW` alone keeps bank 0
selected. -/
lemma boot_windowFixed (hs : script.LeavesPsw)
    (hc : script.chunk.All (LuaOp.PokesOnly fun a _ => 0x80 ≤ a ∧ a ≠ PSW)) {heap : ℕ → Buffer}
    {file : List Byte} (h : boot script heap file = some m) :
    WindowFixed m ∧ m.sfr PSW &&& 0x18 = 0 := by
  obtain ⟨m₀, y, hstart, hload, rfl⟩ := boot_eq_some h
  have heffects := runLua_effects hs hc hload
  have huntrapped : m₀.ramsfrtrap PSW = false := by
    rw [hstart.ramsfrtrap]
    decide
  have hpsw : y.2.sfr PSW = m₀.sfr PSW :=
    heffects.sfr_of_untrapped (by decide) (fun _ _ hok => hok.2) hstart.ramsfrtrap
  refine ⟨⟨heffects.fixed.ramsfrtrap.trans hstart.ramsfrtrap,
    (heffects.reg huntrapped).trans hstart.reg⟩, ?_⟩
  rw [hpsw, sfr, hstart.ramsfr, Function.update_of_ne (by decide)]
  decide

/-- The register window follows `PSW` throughout a run exactly if every step keeps bank 0
selected. -/
theorem run_windowFollows_iff (hs : script.LeavesPsw)
    (hc : script.chunk.All (LuaOp.PokesOnly fun a _ => 0x80 ≤ a ∧ a ≠ PSW)) {heap : ℕ → Buffer}
    {file : List Byte} (hboot : boot script heap file = some m₀) {tr : List (Machine σ × Event)}
    (hrun : Run (Happens script) m₀ tr m) :
    Run.Throughout WindowFollows tr m ↔ ∀ e ∈ tr, e.1.KeepsBank script e.2 := by
  obtain ⟨hfixed, hbank⟩ := boot_windowFixed hs hc hboot
  refine Run.forall_iff (I := WindowFixed) (fun c e c' hI h => happen_windowFixed hI h) ?_ hrun
    hfixed (hfixed.follows_iff.2 hbank)
  intro c e c' hI hP h
  rw [(happen_windowFixed hI h).follows_iff]
  exact bank_of_happen hs hI (hI.follows_iff.1 hP) h

/-- The theorem at a start and a `MUL AB`. -/
theorem run_windowFollows_iff_mul : ∃ m₀ m : Machine Unit,
    Run.Throughout WindowFollows [(m₀, Event.insn)] m ↔ m₀.KeepsBank mapsRom .insn := by
  have heval : ((boot mapsRom (fun _ => default) [0xa4]).bind (step mapsRom)).isSome := by
    decide +kernel
  obtain ⟨m, hm⟩ := Option.isSome_iff_exists.1 heval
  obtain ⟨m₀, hboot, hstep⟩ := Option.bind_eq_some_iff.1 hm
  have hquiet : mapsRom.LeavesPsw := fun _ _ _ h => nomatch h
  have hiff := run_windowFollows_iff hquiet ⟨trivial, fun _ => trivial⟩ hboot
    (.head (show Happens mapsRom m₀ .insn m from hstep) (.refl m))
  exact ⟨m₀, m, by simpa using hiff⟩

/-- After `MOV PSW,#08H` the window is still at bank 0. -/
theorem mov_psw_breaks_windowFollows : ¬∀ (file : List Byte) (m₀ m : Machine Unit)
    (tr : List (Machine Unit × Event)), boot mapsRom (fun _ => default) file = some m₀ →
    Run (Happens mapsRom) m₀ tr m → WindowFollows m := by
  intro hall
  have heval : (((boot mapsRom (fun _ => default) [0x75, 0xd0, 0x08]).bind (step mapsRom)).map
      fun m => (m.reg.1, m.sfr PSW)) = some (0, 0x08) := by
    decide +kernel
  obtain ⟨m, hm, hval⟩ := Option.map_eq_some_iff.1 heval
  obtain ⟨m₀, hboot, hstep⟩ := Option.bind_eq_some_iff.1 hm
  have hfollows := hall _ m₀ m [(m₀, .insn)] hboot
    (.head (show Happens mapsRom m₀ .insn m from hstep) (.refl m))
  obtain ⟨hreg, hpsw⟩ := Prod.mk.inj hval
  have hwindow := congrArg Subtype.val hfollows.1
  rw [hreg, hpsw] at hwindow
  exact absurd hwindow (by decide)

end Machine

end Emu51

import Mathlib.Logic.Relation
import Emu51.Machine.Sfr

/-!
# What an access to a special function register can do

A trapped access may run hooks, which may access further registers, and so on. All of it is a
sequence of a few elementary effects (`SfrEffect`), as long as no hook pokes a register in a way
that is not allowed. What no effect destroys, no access destroys; this is the way invariants of the
whole emulator are proved of `readd` and `writed`.
-/

namespace Emu51

variable {σ : Type}

/-- The operation does not poke a special function register, except as `ok` allows. -/
def LuaOp.PokesOnly (ok : Byte → Byte → Prop) : LuaOp σ → Prop
  | .pokeSfr addr v => ok (byteOfLua addr) (byteOfLua v)
  | _ => True

/-- The operation has nothing to do with special function registers. -/
def LuaOp.OffSfr : LuaOp σ → Prop
  | .peekSfr _ | .pokeSfr _ _ => False
  | _ => True

/-- No hook of the script pokes a special function register, except as `ok` allows. -/
def Script.PokesOnly (ok : Byte → Byte → Prop) (script : Script σ) : Prop :=
  ∀ g a hook, script.ramdHooks g a = some hook → ∀ w d, (hook w d).All (LuaOp.PokesOnly ok)

namespace Machine

/-- The two states differ at most in what lies outside the CPU: external memory and its mapping, the
code mapping, `pcx` and the Lua globals. -/
structure SameCore (m m' : Machine σ) : Prop where
  ramsfr : m'.ramsfr = m.ramsfr
  ramsfrtrap : m'.ramsfrtrap = m.ramsfrtrap
  reg : m'.reg = m.reg
  dpl : m'.dpl = m.dpl
  dph : m'.dph = m.dph
  pc : m'.pc = m.pc
  irqlevel : m'.irqlevel = m.irqlevel
  irqpendl0 : m'.irqpendl0 = m.irqpendl0
  irqpendl1 : m'.irqpendl1 = m.irqpendl1
  irqs : m'.irqs = m.irqs
  ramsfrnotifiers : m'.ramsfrnotifiers = m.ramsfrnotifiers
  bpmask : m'.bpmask = m.bpmask
  bpval : m'.bpval = m.bpval
  uartOut : m'.uartOut = m.uartOut

/-- A state has the same core as itself. -/
lemma SameCore.refl (m : Machine σ) : SameCore m m := by
  constructor <;> rfl

/-- Having the same core carries over from one state to the next. -/
lemma SameCore.trans {m₁ m₂ m₃ : Machine σ} (h : SameCore m₁ m₂) (h' : SameCore m₂ m₃) :
    SameCore m₁ m₃ where
  ramsfr := h'.ramsfr.trans h.ramsfr
  ramsfrtrap := h'.ramsfrtrap.trans h.ramsfrtrap
  reg := h'.reg.trans h.reg
  dpl := h'.dpl.trans h.dpl
  dph := h'.dph.trans h.dph
  pc := h'.pc.trans h.pc
  irqlevel := h'.irqlevel.trans h.irqlevel
  irqpendl0 := h'.irqpendl0.trans h.irqpendl0
  irqpendl1 := h'.irqpendl1.trans h.irqpendl1
  irqs := h'.irqs.trans h.irqs
  ramsfrnotifiers := h'.ramsfrnotifiers.trans h.ramsfrnotifiers
  bpmask := h'.bpmask.trans h.bpmask
  bpval := h'.bpval.trans h.bpval
  uartOut := h'.uartOut.trans h.uartOut

/-- Writing external memory touches no register, request or other part of the CPU. -/
lemma sameCore_writex (m : Machine σ) (addr : Word) (v : Byte) : SameCore m (m.writex addr v) := by
  unfold writex
  split
  · exact .refl m
  · split
    · constructor <;> rfl
    · exact .refl m

/-- What a hook does beside register accesses does not touch the CPU. -/
lemma luaExec_sameCore {bus : Bus σ} {m : Machine σ} {o : LuaOp σ} {y : o.Res × Machine σ}
    (h : luaExec bus o m = some y) (ho : o.OffSfr) : SameCore m y.2 := by
  cases o with
  | peekSfr addr => exact absurd ho id
  | pokeSfr addr v => exact absurd ho id
  | pokeXram addr v =>
    obtain rfl := Option.some.inj h
    exact m.sameCore_writex _ _
  | peekRom addr =>
    obtain ⟨b, -, rfl⟩ := Option.map_eq_some_iff.1 h
    exact .refl m
  | mapRom name start len ofs =>
    obtain ⟨b, -, rfl⟩ := Option.map_eq_some_iff.1 h
    constructor <;> rfl
  | mapXram name start len ofs readonly =>
    obtain ⟨b, -, rfl⟩ := Option.map_eq_some_iff.1 h
    split
    · constructor <;> rfl
    · constructor <;> rfl
  | error => exact absurd h (by simp [luaExec])
  | _ =>
    obtain rfl := Option.some.inj h
    constructor <;> rfl

/-- The elementary effects of accesses, where `ok` says which writes may be asked for. -/
inductive SfrEffect (ok : Byte → Byte → Prop) : Machine σ → Machine σ → Prop where
  /-- A hook works on external memory, the mapping or its globals. -/
  | outside {m m' : Machine σ} (h : SameCore m m') : SfrEffect ok m m'
  /-- `PSW` is read. -/
  | refresh {m : Machine σ} (h : m.ramsfrtrap PSW = true) : SfrEffect ok m m.refreshPsw
  /-- The emulator or a hook chooses the contents of a trapped register. -/
  | hooked {m : Machine σ} {a : Byte} (v : Byte) (h : m.ramsfrtrap a = true) (h₁ : a ≠ SCON)
      (h₂ : a ≠ SBUF) : SfrEffect ok m (m.setSfr a v)
  /-- A byte is stored as asked. -/
  | store {m : Machine σ} {a v : Byte} (h : ok a v) : SfrEffect ok m (m.setSfr a v)
  /-- A byte is sent. -/
  | transmit {m : Machine σ} {v : Byte} (h : ok SBUF v) : SfrEffect ok m (m.transmit v)
  /-- A byte has been sent. -/
  | sent {m : Machine σ} {v : Byte} (h : ok SBUF v) :
      SfrEffect ok m (m.setSfr SCON (m.sfr SCON ||| SCON_TI))
  /-- The data pointer is switched. -/
  | dptr {m : Machine σ} (l : DplPtr) (h : DphPtr) : SfrEffect ok m (m.mapDptr l h)
  /-- The register window is moved. -/
  | window {m : Machine σ} (h : m.ramsfrtrap PSW = true) :
      SfrEffect ok m (m.setReg (regBase (m.sfr PSW)))
  /-- The interrupts that watch a register are recomputed. -/
  | notify (m : Machine σ) (a : Byte) : SfrEffect ok m (m.sfrNotify a)

/-- A sequence of effects. -/
abbrev SfrEffects (ok : Byte → Byte → Prop) : Machine σ → Machine σ → Prop :=
  Relation.ReflTransGen (SfrEffect ok)

/-- What each effect preserves, a sequence of effects preserves. -/
theorem SfrEffects.invariant {ok : Byte → Byte → Prop} {I : Machine σ → Prop}
    (hI : ∀ m m', I m → SfrEffect ok m m' → I m') {m m' : Machine σ} (h : SfrEffects ok m m')
    (hm : I m) : I m' := by
  induction h with
  | refl => exact hm
  | tail _ he ih => exact hI _ _ ih he

/-- What no access changes. -/
structure Fixed (m m' : Machine σ) : Prop where
  ramsfrtrap : m'.ramsfrtrap = m.ramsfrtrap
  pc : m'.pc = m.pc
  irqlevel : m'.irqlevel = m.irqlevel
  irqs : m'.irqs = m.irqs
  ramsfrnotifiers : m'.ramsfrnotifiers = m.ramsfrnotifiers
  bpmask : m'.bpmask = m.bpmask
  bpval : m'.bpval = m.bpval

/-- What no access changes is not changed by two of them either. -/
lemma Fixed.trans {m₁ m₂ m₃ : Machine σ} (h : Fixed m₁ m₂) (h' : Fixed m₂ m₃) : Fixed m₁ m₃ where
  ramsfrtrap := h'.ramsfrtrap.trans h.ramsfrtrap
  pc := h'.pc.trans h.pc
  irqlevel := h'.irqlevel.trans h.irqlevel
  irqs := h'.irqs.trans h.irqs
  ramsfrnotifiers := h'.ramsfrnotifiers.trans h.ramsfrnotifiers
  bpmask := h'.bpmask.trans h.bpmask
  bpval := h'.bpval.trans h.bpval

/-- None of the elementary effects changes what no access changes. -/
lemma SfrEffect.fixed {ok : Byte → Byte → Prop} {m m' : Machine σ} (h : SfrEffect ok m m') :
    Fixed m m' := by
  cases h with
  | outside h =>
    exact ⟨h.ramsfrtrap, h.pc, h.irqlevel, h.irqs, h.ramsfrnotifiers, h.bpmask, h.bpval⟩
  | notify a =>
    obtain ⟨l0, l1, hl⟩ := m.sfrNotify_eq a
    rw [hl]
    constructor <;> rfl
  | refresh => constructor <;> rfl
  | hooked => constructor <;> rfl
  | store => constructor <;> rfl
  | transmit => constructor <;> rfl
  | sent => constructor <;> rfl
  | dptr => constructor <;> rfl
  | window => constructor <;> rfl

/-- The trap table, `pc`, the interrupt set-up and the breakpoint survive all effects. -/
theorem SfrEffects.fixed {ok : Byte → Byte → Prop} {m m' : Machine σ} (h : SfrEffects ok m m') :
    Fixed m m' := by
  induction h with
  | refl => constructor <;> rfl
  | tail _ he ih => exact ih.trans he.fixed

/-- Where `PSW` is an ordinary cell, nothing moves the register window. -/
theorem SfrEffects.reg {ok : Byte → Byte → Prop} {m m' : Machine σ}
    (ht : m.ramsfrtrap PSW = false) (h : SfrEffects ok m m') : m'.reg = m.reg := by
  refine (h.invariant (I := fun m' => m'.ramsfrtrap PSW = false ∧ m'.reg = m.reg) ?_ ⟨ht, rfl⟩).2
  rintro m₁ m₂ ⟨htrap, hreg⟩ he
  refine ⟨by rw [he.fixed.ramsfrtrap, htrap], ?_⟩
  cases he with
  | outside h => exact h.reg.trans hreg
  | refresh h => exact absurd (htrap.symm.trans h) Bool.false_ne_true
  | window h => exact absurd (htrap.symm.trans h) Bool.false_ne_true
  | notify a =>
    obtain ⟨l0, l1, hl⟩ := m₁.sfrNotify_eq a
    rw [hl]
    exact hreg
  | hooked => exact hreg
  | store => exact hreg
  | transmit => exact hreg
  | sent => exact hreg
  | dptr => exact hreg

/-- An untrapped register that no hook pokes keeps its contents. -/
theorem SfrEffects.sfr_of_untrapped {ok : Byte → Byte → Prop} {m m' : Machine σ} {a : Byte}
    (ha : sfrInitTrap a = false) (hok : ∀ b v, ok b v → b ≠ a) (ht : m.ramsfrtrap = sfrInitTrap)
    (h : SfrEffects ok m m') : m'.sfr a = m.sfr a := by
  refine (h.invariant (I := fun m' => m'.ramsfrtrap = sfrInitTrap ∧ m'.sfr a = m.sfr a) ?_
    ⟨ht, rfl⟩).2
  rintro m₁ m₂ ⟨htrap, hcell⟩ he
  refine ⟨he.fixed.ramsfrtrap.trans htrap, ?_⟩
  have htrapped : ∀ b, m₁.ramsfrtrap b = true → a ≠ b := by
    rintro b hb rfl
    rw [htrap, ha] at hb
    exact Bool.false_ne_true hb
  cases he with
  | outside h =>
    rw [sfr, h.ramsfr]
    exact hcell
  | refresh h =>
    rw [htrap] at h
    exact absurd h (by decide)
  | hooked v h h₁ h₂ => exact (m₁.sfr_setSfr_of_ne v (htrapped _ h)).trans hcell
  | store h => exact (m₁.sfr_setSfr_of_ne _ (hok _ _ h).symm).trans hcell
  | sent h => exact (m₁.sfr_setSfr_of_ne _ (htrapped SCON (by rw [htrap]; decide))).trans hcell
  | notify b =>
    obtain ⟨l0, l1, hl⟩ := m₁.sfrNotify_eq b
    rw [hl]
    exact hcell
  | _ => exact hcell

/-! ## Accesses are sequences of effects -/

/-- The accessors offered to hooks have no other effects. -/
structure BusWithin (ok : Byte → Byte → Prop) (bus : Bus σ) : Prop where
  get : ∀ {a m y}, bus.get a m = some y → SfrEffects ok m y.2
  put : ∀ {a v m m'}, ok a v → bus.put a v m = some m' → SfrEffects ok m m'

variable {ok : Byte → Byte → Prop} {script : Script σ} {bus : Bus σ} {m : Machine σ}

/-- Everything a hook can call has effects the emulator knows, if its pokes are allowed. -/
lemma luaExec_effects (hbus : BusWithin ok bus) {o : LuaOp σ} (ho : o.PokesOnly ok)
    {y : o.Res × Machine σ} (h : luaExec bus o m = some y) : SfrEffects ok m y.2 := by
  cases o with
  | peekSfr addr =>
    obtain ⟨z, hz, rfl⟩ := Option.map_eq_some_iff.1 h
    exact hbus.get hz
  | pokeSfr addr v =>
    obtain ⟨m', hm', rfl⟩ := Option.map_eq_some_iff.1 h
    exact hbus.put ho hm'
  | _ => exact .single (.outside (luaExec_sameCore h trivial))

/-- Lua code whose pokes are allowed has such effects only, one after the other. -/
lemma luaRun_effects (hbus : BusWithin ok bus) {α : Type} {p : LuaProg σ α}
    (hp : p.All (LuaOp.PokesOnly ok)) {y : α × Machine σ} (h : p.run (luaExec bus) m = some y) :
    SfrEffects ok m y.2 :=
  hp.run_invariant (I := SfrEffects ok m)
    (fun _ _ _ _ ho hs he => hs.trans (luaExec_effects hbus ho he)) .refl h

/-- A hook has effects the emulator knows, as long as it pokes what is allowed. -/
lemma ramdHook_effects (hs : script.PokesOnly ok) (hbus : BusWithin ok bus) {w : Bool} {a : Byte}
    {m' : Machine σ} (ha : m.ramsfrtrap a = true) (h₁ : a ≠ SCON) (h₂ : a ≠ SBUF)
    (h : ramdHook script bus w a m = some m') : SfrEffects ok m m' := by
  unfold ramdHook at h
  split at h
  · obtain rfl := Option.some.inj h
    exact .refl
  · next hook hk =>
    obtain ⟨y, hy, rfl⟩ := Option.map_eq_some_iff.1 h
    have hrun : SfrEffects ok m y.2 := luaRun_effects hbus (hs _ _ _ hk _ _) hy
    have htrap : y.2.ramsfrtrap a = true := by
      rw [hrun.fixed.ramsfrtrap]
      exact ha
    exact hrun.tail (.hooked _ htrap h₁ h₂)

/-- What follows a write to a trapped register, the window and the listeners, is such effects. -/
lemma afterRamdPut_effects {a : Byte} (ha : m.ramsfrtrap a = true) :
    SfrEffects ok m (afterRamdPut a m) := by
  unfold afterRamdPut
  split_ifs with hpsw
  · subst hpsw
    exact .tail (.single (.window ha)) (.notify _ _)
  · exact .single (.notify _ _)

/-- The update of `SCON` at the end of a transmission. -/
lemma pokeScon_effects {v : Byte} (hv : ok SBUF v) :
    SfrEffects ok m (pokeScon (m.sfr SCON ||| SCON_TI) m) := by
  unfold pokeScon
  split_ifs with htrap
  · exact .head (.sent hv) (afterRamdPut_effects htrap)
  · exact .single (.sent hv)

/-- A read of a trapped register has such effects, its hook's above all. -/
lemma ramdGet_effects (hs : script.PokesOnly ok) (hbus : BusWithin ok bus) {a : Byte}
    (ha : m.ramsfrtrap a = true) {y : Byte × Machine σ} (h : ramdGet script bus a m = some y) :
    SfrEffects ok m y.2 := by
  unfold ramdGet at h
  split_ifs at h with h₁ h₂
  · obtain rfl := Option.some.inj h
    exact .refl
  · obtain rfl := Option.some.inj h
    exact .refl
  · obtain ⟨m', hm', rfl⟩ := Option.map_eq_some_iff.1 h
    exact ramdHook_effects hs hbus ha h₁ h₂ hm'

/-- So has every direct read, with or without a trap. -/
lemma readdVia_effects (hs : script.PokesOnly ok) (hbus : BusWithin ok bus) {a : Byte}
    {y : Byte × Machine σ} (h : readdVia script bus a m = some y) : SfrEffects ok m y.2 := by
  unfold readdVia at h
  split_ifs at h with ha
  · unfold defaultRamdGet at h
    split_ifs at h with hpsw
    · subst hpsw
      exact .head (.refresh ha) (ramdGet_effects hs hbus (m := m.refreshPsw) ha h)
    · exact ramdGet_effects hs hbus ha h
  · obtain rfl := Option.some.inj h
    exact .refl

/-- A write of an allowed value to a trapped register has such effects. -/
lemma ramdPut_effects (hs : script.PokesOnly ok) (hbus : BusWithin ok bus) {a v : Byte}
    {m' : Machine σ} (ha : m.ramsfrtrap a = true) (hv : ok a v)
    (h : ramdPut script bus a v m = some m') : SfrEffects ok m m' := by
  unfold ramdPut at h
  split_ifs at h with h₀ hsel h₁ h₂
  · subst h₀
    obtain rfl := Option.some.inj h
    exact .tail (.single (.hooked _ ha (by decide) (by decide))) (.dptr _ _)
  · subst h₀
    obtain rfl := Option.some.inj h
    exact .tail (.single (.hooked _ ha (by decide) (by decide))) (.dptr _ _)
  · subst h₁
    obtain rfl := Option.some.inj h
    exact .single (.store hv)
  · subst h₂
    obtain rfl := Option.some.inj h
    exact .head (.transmit hv) (.head (.store hv) (pokeScon_effects hv))
  · exact .head (.store hv) (ramdHook_effects hs hbus (m := m.setSfr a v) ha h₁ h₂ h)

/-- So has every direct write of an allowed value. -/
lemma writedVia_effects (hs : script.PokesOnly ok) (hbus : BusWithin ok bus) {a v : Byte}
    {m' : Machine σ} (hv : ok a v) (h : writedVia script bus a v m = some m') :
    SfrEffects ok m m' := by
  unfold writedVia at h
  split_ifs at h with ha
  · obtain ⟨m₁, hm₁, rfl⟩ := Option.map_eq_some_iff.1 h
    have hput : SfrEffects ok m m₁ := ramdPut_effects hs hbus ha hv hm₁
    have htrap : m₁.ramsfrtrap a = true := by
      rw [hput.fixed.ramsfrtrap]
      exact ha
    exact hput.trans (afterRamdPut_effects htrap)
  · obtain rfl := Option.some.inj h
    exact .single (.store hv)

/-- The accessors offered to hooks have such effects at every depth, by induction over the nesting.
-/
theorem busAt_within (hs : script.PokesOnly ok) (n : ℕ) : BusWithin ok (busAt script n) := by
  induction n with
  | zero =>
    constructor
    · intro a m y h
      exact absurd h (Option.some_ne_none y).symm
    · intro a v m m' _ h
      exact absurd h (Option.some_ne_none m').symm
  | succ n ih =>
    constructor
    · intro a m y h
      exact readdVia_effects hs ih h
    · intro a v m m' hv h
      exact writedVia_effects hs ih hv h

/-- What `readd` can do to the machine is a sequence of such effects. -/
theorem readd_effects (hs : script.PokesOnly ok) {a : Byte} {y : Byte × Machine σ}
    (h : readd script a m = some y) : SfrEffects ok m y.2 :=
  readdVia_effects hs (busAt_within hs _) h

/-- What `writed` can do to the machine is such a sequence, too, if the value may be written. -/
theorem writed_effects (hs : script.PokesOnly ok) {a v : Byte} {m' : Machine σ} (hv : ok a v)
    (h : writed script a v m = some m') : SfrEffects ok m m' :=
  writedVia_effects hs (busAt_within hs _) hv h

/-- What Lua code outside a hook can do is such a sequence of effects, too. -/
theorem runLua_effects (hs : script.PokesOnly ok) {α : Type} {p : LuaProg σ α}
    (hp : p.All (LuaOp.PokesOnly ok)) {y : α × Machine σ} (h : runLua script p m = some y) :
    SfrEffects ok m y.2 :=
  luaRun_effects (busAt_within hs _) hp h

/-- All Lua code pokes only what is allowed if everything is. -/
lemma all_pokesOnly_true {α : Type} (p : LuaProg σ α) :
    p.All (LuaOp.PokesOnly fun _ _ => True) := by
  induction p with
  | done => trivial
  | node o k ih => exact ⟨by cases o <;> trivial, ih⟩

/-- Every script pokes something or nothing, and all of it is allowed by a rule that allows
everything. -/
lemma pokesOnly_true (script : Script σ) : script.PokesOnly fun _ _ => True :=
  fun _ _ _ _ _ _ => all_pokesOnly_true _

end Machine

end Emu51

import Emu51.Machine.Events
import Emu51.Machine.Outside

/-!
# Invariants of the special function registers

What an invariant of the special function registers has to be like so that every access keeps it,
however hooks are nested (`SfrRule`). The effects in `Emu51.Machine.Effects` allow a hook to leave
anything in its register. Here a hook may be known to return something better, and some writes may
be excluded.
-/

namespace Emu51

variable {σ : Type}

namespace Machine

/-- The two states have the same registers, requests and set-up. -/
structure SameRegs (m m' : Machine σ) : Prop where
  ramsfr : m'.ramsfr = m.ramsfr
  ramsfrtrap : m'.ramsfrtrap = m.ramsfrtrap
  dpl : m'.dpl = m.dpl
  dph : m'.dph = m.dph
  irqpendl0 : m'.irqpendl0 = m.irqpendl0
  irqpendl1 : m'.irqpendl1 = m.irqpendl1
  irqs : m'.irqs = m.irqs
  ramsfrnotifiers : m'.ramsfrnotifiers = m.ramsfrnotifiers

/-- States with the same core have the same registers, requests and set-up. -/
lemma SameCore.regs {m m' : Machine σ} (h : SameCore m m') : SameRegs m m' :=
  ⟨h.ramsfr, h.ramsfrtrap, h.dpl, h.dph, h.irqpendl0, h.irqpendl1, h.irqs, h.ramsfrnotifiers⟩

/-- The registers the emulator stores in by itself, beside those an instruction or a hook names. -/
def ownRegs : List Byte := [SP, DPL0, DPH0, DPL1, DPH1, SCON, SBUF, PSW, ACC, B]

end Machine

open Machine

/-- The rule for an invariant `I`, where `W a v` says that `v` may be written to the register `a`,
and `C a v` that it may be its contents. -/
structure SfrRule (script : Script σ) (W C : Byte → Byte → Prop) (I : Machine σ → Prop) : Prop where
  regs : ∀ {m m'}, SameRegs m m' → I m → I m'
  trap : ∀ {m}, I m → m.ramsfrtrap = sfrInitTrap
  held : ∀ {m}, I m → ∀ a, C a (m.sfr a)
  contents : ∀ {a v}, W a v → C a v
  own : ∀ a ∈ ownRegs, ∀ v, C a v
  store : ∀ {m a v}, a ≠ DPS → C a v → I m → I (m.setSfr a v)
  ram : ∀ {m c}, (∀ a : Byte, 0x80 ≤ a → c ≠ dataCell a) → ∀ v, I m → I (m.setCell c v)
  dps0 : ∀ {m}, I m → I ((m.setSfr DPS 0).mapDptr ⟨DPL0, isDpl0⟩ ⟨DPH0, isDph0⟩)
  dps1 : ∀ {m}, I m → I ((m.setSfr DPS 1).mapDptr ⟨DPL1, isDpl1⟩ ⟨DPH1, isDph1⟩)
  notify : ∀ {m} a, I m → I (m.sfrNotify a)
  hooks : ∀ {g a hook}, script.ramdHooks g a = some hook → a ≠ DPS ∧
    ∀ w d, (w = true → W a (byteOfLua d)) → C a (byteOfLua d) →
      (hook w d).All (LuaOp.PokesOnly W) ∧ (hook w d).Returns fun r => C a (byteOfLua r)

namespace SfrRule

variable {script : Script σ} {W C : Byte → Byte → Prop} {I : Machine σ → Prop} {bus : Bus σ}
  {m m' : Machine σ}

/-! ## Accesses -/

/-- The accessors offered to hooks keep the invariant. -/
structure Accessors (W : Byte → Byte → Prop) (I : Machine σ → Prop) (bus : Bus σ) : Prop where
  get : ∀ {a m y}, I m → bus.get a m = some y → I y.2
  put : ∀ {a v m m'}, W a v → I m → bus.put a v m = some m' → I m'

/-- A step of a hook keeps the invariant, if what it pokes may be written. -/
lemma luaExec (hr : SfrRule script W C I) (hbus : Accessors W I bus) {o : LuaOp σ}
    (ho : o.PokesOnly W)
    {y : o.Res × Machine σ} (hm : I m) (h : Machine.luaExec bus o m = some y) : I y.2 := by
  cases o with
  | peekSfr addr =>
    obtain ⟨z, hz, rfl⟩ := Option.map_eq_some_iff.1 h
    exact hbus.get hm hz
  | pokeSfr addr v =>
    obtain ⟨m', hm', rfl⟩ := Option.map_eq_some_iff.1 h
    exact hbus.put ho hm hm'
  | _ => exact hr.regs (luaExec_sameCore h trivial).regs hm

/-- A hook that is called for a read or for a write that is allowed. -/
lemma ramdHook (hr : SfrRule script W C I) (hbus : Accessors W I bus) {w : Bool} {a : Byte}
    (hw : w = true → W a (m.sfr a)) (hm : I m) (h : Machine.ramdHook script bus w a m = some m') :
    I m' := by
  unfold Machine.ramdHook at h
  split at h
  · obtain rfl := Option.some.inj h
    exact hm
  · next hook hk =>
    obtain ⟨y, hy, rfl⟩ := Option.map_eq_some_iff.1 h
    obtain ⟨hdps, hall⟩ := hr.hooks hk
    obtain ⟨hpokes, hreturns⟩ := hall w (luaOfByte (m.sfr a))
      (by rwa [byteOfLua_luaOfByte]) (by rw [byteOfLua_luaOfByte]; exact hr.held hm a)
    have hrun : I y.2 := hpokes.run_invariant (I := I)
      (fun _ _ _ _ ho hs he => hr.luaExec hbus ho hs he) hm hy
    have hresult : C a (byteOfLua y.1) := hreturns.of_run hy
    exact hr.store hdps hresult hrun

/-- `PSW` is not trapped where the invariant holds, so a trapped register is another one. -/
lemma ne_psw (hr : SfrRule script W C I) {a : Byte} (ha : m.ramsfrtrap a = true) (hm : I m) :
    a ≠ PSW := by
  rintro rfl
  rw [hr.trap hm] at ha
  exact absurd ha (by decide)

/-- What follows a write to a trapped register keeps the invariant. -/
lemma afterRamdPut (hr : SfrRule script W C I) {a : Byte} (ha : m.ramsfrtrap a = true) (hm : I m) :
    I (Machine.afterRamdPut a m) := by
  have hpsw : a ≠ PSW := hr.ne_psw ha hm
  unfold Machine.afterRamdPut
  rw [if_neg hpsw]
  exact hr.notify a hm

/-- `poke_sfr` on `SCON` keeps the invariant, whatever is poked. -/
lemma pokeScon (hr : SfrRule script W C I) (v : Byte) (hm : I m) : I (Machine.pokeScon v m) := by
  have hstored : I (m.setSfr SCON v) :=
    hr.store (by decide) (hr.own SCON (by decide) v) hm
  unfold Machine.pokeScon
  split_ifs with htrap
  · exact hr.afterRamdPut (m := m.setSfr SCON v) htrap hstored
  · exact hstored

/-- A direct read keeps the invariant, its hook included. -/
lemma readdVia (hr : SfrRule script W C I) (hbus : Accessors W I bus) {a : Byte}
    {y : Byte × Machine σ} (hm : I m) (h : Machine.readdVia script bus a m = some y) : I y.2 := by
  unfold Machine.readdVia at h
  split_ifs at h with ha
  · have hpsw : a ≠ PSW := hr.ne_psw ha hm
    unfold defaultRamdGet ramdGet at h
    rw [if_neg hpsw] at h
    split_ifs at h
    · obtain rfl := Option.some.inj h
      exact hm
    · obtain rfl := Option.some.inj h
      exact hm
    · obtain ⟨m', hm', rfl⟩ := Option.map_eq_some_iff.1 h
      exact hr.ramdHook hbus (fun hw => absurd hw Bool.false_ne_true) hm hm'
  · obtain rfl := Option.some.inj h
    exact hm

/-- A write of what may be written to a trapped register keeps the invariant. -/
lemma ramdPut (hr : SfrRule script W C I) (hbus : Accessors W I bus) {a v : Byte} (hv : W a v)
    (hm : I m)
    (h : Machine.ramdPut script bus a v m = some m') : I m' := by
  have hbit : ∀ v : Byte, v &&& 1 = 0 ∨ v &&& 1 = 1 := by decide
  unfold Machine.ramdPut at h
  dsimp only at h
  split_ifs at h with hdps hsel hscon hsbuf
  · obtain rfl := Option.some.inj h
    rcases hbit v with hzero | hone
    · exact absurd hzero hsel
    · rw [hone]
      exact hr.dps1 hm
  · obtain rfl := Option.some.inj h
    rw [not_not.1 hsel]
    exact hr.dps0 hm
  · subst hscon
    obtain rfl := Option.some.inj h
    exact hr.store hdps (hr.contents hv) hm
  · subst hsbuf
    obtain rfl := Option.some.inj h
    have hsent : I (m.transmit v) := by
      refine hr.regs ?_ hm
      constructor <;> rfl
    exact hr.pokeScon _ (hr.store hdps (hr.contents hv) hsent)
  · have hstored : I (m.setSfr a v) := hr.store hdps (hr.contents hv) hm
    refine hr.ramdHook hbus (fun _ => ?_) hstored h
    rw [sfr_setSfr_self]
    exact hv

/-- So does every direct write of what may be written. -/
lemma writedVia (hr : SfrRule script W C I) (hbus : Accessors W I bus) {a v : Byte} (hv : W a v)
    (hm : I m) (h : Machine.writedVia script bus a v m = some m') : I m' := by
  unfold Machine.writedVia at h
  split_ifs at h with ha
  · obtain ⟨m₁, hm₁, rfl⟩ := Option.map_eq_some_iff.1 h
    have hput : I m₁ := hr.ramdPut hbus hv hm hm₁
    have htrap : m₁.ramsfrtrap a = true := by
      rw [hr.trap hput, ← hr.trap hm]
      exact ha
    exact hr.afterRamdPut htrap hput
  · obtain rfl := Option.some.inj h
    have hdps : a ≠ DPS := by
      rintro rfl
      rw [hr.trap hm] at ha
      exact ha (by decide)
    exact hr.store hdps (hr.contents hv) hm

/-- The accessors offered to hooks keep the invariant at every depth, by induction over the nesting.
-/
lemma busAt (hr : SfrRule script W C I) (n : ℕ) : Accessors W I (Machine.busAt script n) := by
  induction n with
  | zero =>
    constructor
    · intro a m y _ h
      exact absurd h (Option.some_ne_none y).symm
    · intro a v m m' _ _ h
      exact absurd h (Option.some_ne_none m').symm
  | succ n ih => exact ⟨hr.readdVia ih, hr.writedVia ih⟩

/-- `readd` keeps the invariant, at whatever depth hooks call one another. -/
theorem readd (hr : SfrRule script W C I) {a : Byte} {y : Byte × Machine σ} (hm : I m)
    (h : Machine.readd script a m = some y) : I y.2 :=
  hr.readdVia (hr.busAt _) hm h

/-- So does a `writed` of what may be written, at whatever depth hooks nest. -/
theorem writed (hr : SfrRule script W C I) {a v : Byte} (hv : W a v) (hm : I m)
    (h : Machine.writed script a v m = some m') : I m' :=
  hr.writedVia (hr.busAt _) hv hm h

/-- So does Lua code outside a hook, whose pokes are allowed. -/
theorem runLua (hr : SfrRule script W C I) {α : Type} {p : LuaProg σ α}
    (hp : p.All (LuaOp.PokesOnly W))
    {y : α × Machine σ} (hm : I m) (h : Machine.runLua script p m = some y) : I y.2 :=
  hp.run_invariant (I := I) (fun _ _ _ _ ho hs he => hr.luaExec (hr.busAt _) ho hs he) hm h

/-! ## Events -/

/-- A store of the emulator's own to one of its registers keeps the invariant. -/
lemma storeOwn (hr : SfrRule script W C I) {a : Byte} (ha : a ∈ ownRegs) (v : Byte) (hm : I m) :
    I (m.setSfr a v) := by
  have hdps : ∀ a ∈ ownRegs, a ≠ DPS := by decide
  exact hr.store (hdps a ha) (hr.own a ha v) hm

/-- An operation of the CPU keeps the invariant, if what it writes may be written. -/
lemma cpuExec (hr : SfrRule script W C I) {o : CpuOp} (ho : ∀ w, o.write = some w → W w.1 w.2)
    {r : o.Res} (hm : I m) (h : Emu51.cpuExec script o m = some (r, m')) : I m' := by
  cases o with
  | readd a => exact hr.readd hm h
  | writed a v =>
    obtain ⟨m₁, hm₁, heq⟩ := Option.map_eq_some_iff.1 h
    obtain ⟨-, rfl⟩ := Prod.mk.inj heq
    exact hr.writed (ho (a, v) rfl) hm hm₁
  | writex a v =>
    obtain ⟨-, rfl⟩ := Prod.mk.inj (Option.some.inj h)
    exact hr.regs (m.sameCore_writex a v).regs hm
  | writei a v =>
    obtain ⟨-, rfl⟩ := Prod.mk.inj (Option.some.inj h)
    exact hr.ram (fun b hb => iramCell_ne_sfr a hb) v hm
  | setRx n v =>
    obtain ⟨-, rfl⟩ := Prod.mk.inj (Option.some.inj h)
    exact hr.ram (fun b hb => regCell_ne_sfr m.reg n (BitVec.le_trans (by decide) hb)) v hm
  | set q v =>
    obtain ⟨-, rfl⟩ := Prod.mk.inj (Option.some.inj h)
    exact hr.storeOwn (by cases q <;> decide) v hm
  | setDph v =>
    obtain ⟨-, rfl⟩ := Prod.mk.inj (Option.some.inj h)
    refine hr.storeOwn ?_ v hm
    obtain ⟨a, rfl | rfl⟩ := m.dph <;> decide
  | setDpl v =>
    obtain ⟨-, rfl⟩ := Prod.mk.inj (Option.some.inj h)
    refine hr.storeOwn ?_ v hm
    obtain ⟨a, rfl | rfl⟩ := m.dpl <;> decide
  | _ =>
    obtain ⟨-, rfl⟩ := Prod.mk.inj (Option.some.inj h)
    refine hr.regs ?_ hm
    constructor <;> rfl

/-- A push of the emulator's own keeps the invariant. -/
lemma push (hr : SfrRule script W C I) (x : Byte) (hm : I m) : I (m.push x) := by
  have hsp : I (m.setSfr SP (m.sfr SP + 1)) := hr.storeOwn (by decide) _ hm
  exact hr.ram (fun b hb => iramCell_ne_sfr _ hb) x hsp

/-- Accepting an interrupt keeps the invariant, as it stores in internal memory and `SP`. -/
lemma pollIrq (hr : SfrRule script W C I) (hm : I m) : I m.pollIrq := by
  have hlevel : ∀ l, I (m.setLevel l) := by
    intro l
    refine hr.regs ?_ hm
    constructor <;> rfl
  obtain ⟨l, hl | ⟨x, y, w, hl⟩⟩ := m.pollIrq_eq
  · rw [hl]
    exact hlevel l
  · rw [hl]
    refine hr.regs ?_ (hr.push y (hr.push x (hlevel l)))
    constructor <;> rfl

/-- A received byte keeps the invariant, as it stores in `SBUF` and `SCON` only. -/
lemma uartListener (hr : SfrRule script W C I) (d : Byte) (hm : I m) : I (m.uartListener d).2 := by
  unfold Machine.uartListener
  split_ifs
  · exact hr.storeOwn (by decide) _ (hr.storeOwn (by decide) _ hm)
  · exact hm

/-- An event keeps the invariant if the writes it asks for are allowed. -/
theorem happen (hr : SfrRule script W C I) {e : Event} (hw : ∀ w ∈ writes script m e, W w.1 w.2)
    (hm : I m) (h : Machine.happen script e m = some m') : I m' :=
  happen_invariant_of_writes (I := I) (W := W) (fun _ _ _ _ ho hm he => hr.cpuExec ho hm he)
    (fun _ hm => hr.pollIrq hm) (fun d _ hm => hr.uartListener d hm) hw hm h

/-- A run keeps the invariant if all its writes are allowed. -/
theorem run (hr : SfrRule script W C I) {tr : List (Machine σ × Event)}
    (hrun : Run (Happens script) m tr m') (hw : ∀ w ∈ writeHistory script tr, W w.1 w.2)
    (hm : I m) : Run.Throughout I tr m' := by
  refine hrun.invariant_of_forall (C := fun c e => ∀ w ∈ writes script c e, W w.1 w.2)
    (fun c e c' hc hw he => hr.happen hw hc he) (fun e he w hin => hw w ?_) hm
  exact List.mem_flatMap.2 ⟨e, he, hin⟩

end SfrRule

end Emu51

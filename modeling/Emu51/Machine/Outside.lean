import Emu51.Machine.Effects
import Emu51.Machine.System

/-!
# What lies outside the CPU

External memory, the two page tables and `pcx` change in two ways only: an instruction stores with
`MOVX`, or a hook calls one of the functions of `emu_lib` that are about them. So an invariant of
this part of the state needs a look at the hooks alone (`Script.Keeps`).
-/

namespace Emu51

variable {σ : Type}

namespace Machine

/-- The two states differ at most inside the CPU and in the Lua globals. -/
structure SameOutside (m m' : Machine σ) : Prop where
  pcx : m'.pcx = m.pcx
  rompage : m'.rompage = m.rompage
  xrampage : m'.xrampage = m.xrampage
  xramfnwr : m'.xramfnwr = m.xramfnwr
  heap : m'.heap = m.heap
  nbuf : m'.nbuf = m.nbuf

/-- A state is the same as itself outside the CPU. -/
lemma SameOutside.refl (m : Machine σ) : SameOutside m m := by
  constructor <;> rfl

/-- States that are the same outside the CPU can be chained. -/
lemma SameOutside.trans {m₁ m₂ m₃ : Machine σ} (h : SameOutside m₁ m₂) (h' : SameOutside m₂ m₃) :
    SameOutside m₁ m₃ where
  pcx := h'.pcx.trans h.pcx
  rompage := h'.rompage.trans h.rompage
  xrampage := h'.xrampage.trans h.xrampage
  xramfnwr := h'.xramfnwr.trans h.xramfnwr
  heap := h'.heap.trans h.heap
  nbuf := h'.nbuf.trans h.nbuf

/-- The property speaks of nothing but what lies outside the CPU. -/
def IsOuter (I : Machine σ → Prop) : Prop := ∀ m m', SameOutside m m' → I m → I m'

end Machine

/-- The operation keeps the property, where a poke is kept by what `ok` allows. -/
def LuaOp.Keeps (I : Machine σ → Prop) (ok : Byte → Byte → Prop) (o : LuaOp σ) : Prop :=
  o.PokesOnly ok ∧
    (o.OffSfr → ∀ (bus : Bus σ) m y, I m → Machine.luaExec bus o m = some y → I y.2)

/-- Every hook of the script keeps the property, the hook of a write if the write is one that `ok`
allows. -/
def Script.Keeps (I : Machine σ → Prop) (ok : Byte → Byte → Prop) (script : Script σ) : Prop :=
  ∀ g a hook, script.ramdHooks g a = some hook →
    ∀ w d, (w = true → ok a (byteOfLua d)) → (hook w d).All (LuaOp.Keeps I ok)

namespace Machine

variable {I : Machine σ → Prop} {ok : Byte → Byte → Prop} {script : Script σ} {bus : Bus σ}
  {m m' : Machine σ}

/-! ## Parts of an access -/

/-- A store to a register stays inside the CPU. -/
lemma sameOutside_setSfr (m : Machine σ) (a v : Byte) : SameOutside m (m.setSfr a v) := by
  constructor <;> rfl

/-- Bringing the parity up to date stays inside the CPU. -/
lemma sameOutside_refreshPsw (m : Machine σ) : SameOutside m m.refreshPsw := by
  constructor <;> rfl

/-- What follows a write to a trapped register stays inside the CPU. -/
lemma sameOutside_afterRamdPut (a : Byte) (m : Machine σ) : SameOutside m (afterRamdPut a m) := by
  unfold afterRamdPut
  split_ifs
  · obtain ⟨l0, l1, hl⟩ := (m.setReg (regBase (m.sfr PSW))).sfrNotify_eq a
    rw [hl]
    constructor <;> rfl
  · obtain ⟨l0, l1, hl⟩ := m.sfrNotify_eq a
    rw [hl]
    constructor <;> rfl

/-- `poke_sfr` on `SCON` stays inside the CPU. -/
lemma sameOutside_pokeScon (v : Byte) (m : Machine σ) : SameOutside m (pokeScon v m) := by
  unfold pokeScon
  split_ifs
  · exact (m.sameOutside_setSfr SCON v).trans (sameOutside_afterRamdPut _ _)
  · exact m.sameOutside_setSfr SCON v

/-! ## Accesses keep what hooks keep -/

/-- The accessors offered to hooks keep the property. -/
structure BusKeeps (I : Machine σ → Prop) (ok : Byte → Byte → Prop) (bus : Bus σ) : Prop where
  get : ∀ {a m y}, I m → bus.get a m = some y → I y.2
  put : ∀ {a v m m'}, ok a v → I m → bus.put a v m = some m' → I m'

/-- Everything a hook calls keeps the property, if the operation itself does. -/
lemma luaExec_keeps (hbus : BusKeeps I ok bus) {o : LuaOp σ} (ho : o.Keeps I ok)
    {y : o.Res × Machine σ} (hm : I m) (h : luaExec bus o m = some y) : I y.2 := by
  cases o with
  | peekSfr addr =>
    obtain ⟨z, hz, rfl⟩ := Option.map_eq_some_iff.1 h
    exact hbus.get hm hz
  | pokeSfr addr v =>
    obtain ⟨m', hm', rfl⟩ := Option.map_eq_some_iff.1 h
    exact hbus.put ho.1 hm hm'
  | _ => exact ho.2 trivial bus m y hm h

/-- A hook keeps a property of what lies outside the CPU if the script says so. -/
lemma ramdHook_keeps (hI : IsOuter I) (hs : script.Keeps I ok) (hbus : BusKeeps I ok bus)
    {w : Bool} {a : Byte} (hw : w = true → ok a (m.sfr a)) (hm : I m)
    (h : ramdHook script bus w a m = some m') : I m' := by
  unfold ramdHook at h
  split at h
  · obtain rfl := Option.some.inj h
    exact hm
  · next hook hk =>
    obtain ⟨y, hy, rfl⟩ := Option.map_eq_some_iff.1 h
    have hall : (hook w (luaOfByte (m.sfr a))).All (LuaOp.Keeps I ok) :=
      hs _ _ _ hk _ _ (by rwa [byteOfLua_luaOfByte])
    have hrun : I y.2 := hall.run_invariant (I := I)
      (fun _ _ _ _ ho hs he => luaExec_keeps hbus ho hs he) hm hy
    exact hI _ _ (sameOutside_setSfr _ _ _) hrun

/-- A direct read keeps what the hooks keep. -/
lemma readdVia_keeps (hI : IsOuter I) (hs : script.Keeps I ok) (hbus : BusKeeps I ok bus) {a : Byte}
    {y : Byte × Machine σ} (hm : I m) (h : readdVia script bus a m = some y) : I y.2 := by
  unfold readdVia at h
  split_ifs at h with htrap
  · have hget : ∀ {m₁}, I m₁ → ramdGet script bus a m₁ = some y → I y.2 := by
      intro m₁ hm₁ hget
      unfold ramdGet at hget
      split_ifs at hget
      · obtain rfl := Option.some.inj hget
        exact hm₁
      · obtain rfl := Option.some.inj hget
        exact hm₁
      · obtain ⟨m₂, hm₂, rfl⟩ := Option.map_eq_some_iff.1 hget
        exact ramdHook_keeps hI hs hbus (fun hw => absurd hw Bool.false_ne_true) hm₁ hm₂
    unfold defaultRamdGet at h
    split_ifs at h
    · exact hget (hI _ _ m.sameOutside_refreshPsw hm) h
    · exact hget hm h
  · obtain rfl := Option.some.inj h
    exact hm

/-- A write of an allowed value to a trapped register keeps what the hooks keep. -/
lemma ramdPut_keeps (hI : IsOuter I) (hs : script.Keeps I ok) (hbus : BusKeeps I ok bus)
    {a v : Byte} (hv : ok a v) (hm : I m) (h : ramdPut script bus a v m = some m') : I m' := by
  unfold ramdPut at h
  split_ifs at h
  · obtain rfl := Option.some.inj h
    refine hI m _ ?_ hm
    constructor <;> rfl
  · obtain rfl := Option.some.inj h
    refine hI m _ ?_ hm
    constructor <;> rfl
  · obtain rfl := Option.some.inj h
    exact hI _ _ (m.sameOutside_setSfr _ _) hm
  · obtain rfl := Option.some.inj h
    have hsent : SameOutside m ((m.transmit v).setSfr SBUF v) := by
      constructor <;> rfl
    exact hI _ _ (hsent.trans (sameOutside_pokeScon _ _)) hm
  · have hstored : I (m.setSfr a v) := hI _ _ (m.sameOutside_setSfr _ _) hm
    refine ramdHook_keeps hI hs hbus (fun _ => ?_) hstored h
    rw [sfr_setSfr_self]
    exact hv

/-- So does every direct write of an allowed value. -/
lemma writedVia_keeps (hI : IsOuter I) (hs : script.Keeps I ok) (hbus : BusKeeps I ok bus)
    {a v : Byte} (hv : ok a v) (hm : I m) (h : writedVia script bus a v m = some m') : I m' := by
  unfold writedVia at h
  split_ifs at h
  · obtain ⟨m₁, hm₁, rfl⟩ := Option.map_eq_some_iff.1 h
    exact hI _ _ (sameOutside_afterRamdPut _ _) (ramdPut_keeps hI hs hbus hv hm hm₁)
  · obtain rfl := Option.some.inj h
    exact hI _ _ (m.sameOutside_setSfr _ _) hm

/-- The accessors offered to hooks keep the property at every depth, by induction over the nesting.
-/
lemma busAt_keeps (hI : IsOuter I) (hs : script.Keeps I ok) (n : ℕ) :
    BusKeeps I ok (busAt script n) := by
  induction n with
  | zero =>
    constructor
    · intro a m y _ h
      exact absurd h (Option.some_ne_none y).symm
    · intro a v m m' _ _ h
      exact absurd h (Option.some_ne_none m').symm
  | succ n ih =>
    constructor
    · intro a m y hm h
      exact readdVia_keeps hI hs ih hm h
    · intro a v m m' hv hm h
      exact writedVia_keeps hI hs ih hv hm h

/-- `readd` keeps what the hooks keep, at whatever depth they call one another. -/
theorem readd_keeps (hI : IsOuter I) (hs : script.Keeps I ok) {a : Byte} {y : Byte × Machine σ}
    (hm : I m) (h : readd script a m = some y) : I y.2 :=
  readdVia_keeps hI hs (busAt_keeps hI hs _) hm h

/-- So does a `writed` of what `ok` allows, at whatever depth hooks nest. -/
theorem writed_keeps (hI : IsOuter I) (hs : script.Keeps I ok) {a v : Byte} (hv : ok a v) (hm : I m)
    (h : writed script a v m = some m') : I m' :=
  writedVia_keeps hI hs (busAt_keeps hI hs _) hv hm h

/-! ## The CPU -/

/-- The operations of the CPU keep the property, except a `writed` that `ok` does not allow. -/
lemma cpuExec_keeps (hI : IsOuter I) (hs : script.Keeps I ok)
    (hx : ∀ m a v, I m → I (m.writex a v)) {o : CpuOp}
    (ho : ∀ a v, o = .writed a v → ok a v) {r : o.Res} (hm : I m)
    (h : cpuExec script o m = some (r, m')) : I m' := by
  cases o with
  | readd a => exact readd_keeps hI hs hm h
  | writed a v =>
    obtain ⟨m₁, hm₁, heq⟩ := Option.map_eq_some_iff.1 h
    obtain ⟨-, rfl⟩ := Prod.mk.inj heq
    exact writed_keeps hI hs (ho a v rfl) hm hm₁
  | writex a v =>
    obtain ⟨-, rfl⟩ := Prod.mk.inj (Option.some.inj h)
    exact hx m a v hm
  | _ =>
    obtain ⟨-, rfl⟩ := Prod.mk.inj (Option.some.inj h)
    refine hI m _ ?_ hm
    constructor <;> rfl

/-- Accepting an interrupt stays inside the CPU, for the stack is there as well. -/
lemma sameOutside_pollIrq (m : Machine σ) : SameOutside m m.pollIrq := by
  obtain ⟨l, hl | ⟨x, y, w, hl⟩⟩ := m.pollIrq_eq
  · rw [hl]
    constructor <;> rfl
  · rw [hl]
    constructor <;> rfl

/-- Receiving a byte stays inside the CPU. -/
lemma sameOutside_uartListener (d : Byte) (m : Machine σ) :
    SameOutside m (m.uartListener d).2 := by
  unfold uartListener
  split_ifs
  · constructor <;> rfl
  · exact .refl m

/-- `handle_breakpoint` reads registers and moves the breakpoint, but writes no special function
register. -/
lemma handleBreakpoint_writes_nothing (fullPc : BitVec 32) :
    (handleBreakpoint fullPc).All fun o => ∀ a v, o ≠ .writed a v := by
  unfold handleBreakpoint
  split_ifs
  · simp [Cpu.setBreakpoint]
  · simp [Cpu.readd, Cpu.readi, Cpu.setBreakpoint]

/-- `nextop` keeps every property that the hooks keep, with the breakpoint's action included. -/
lemma nextop_keeps (hI : IsOuter I) (hs : script.Keeps I ok)
    (hx : ∀ m a v, I m → I (m.writex a v)) {op : Byte} (hm : I m)
    (h : nextop script m = some (op, m')) : I m' := by
  have hfetch := fetchOp_invariant (I := I) (D := fun o => ∀ a v, o ≠ .writed a v)
    (fun o s r s' ho hs' he => cpuExec_keeps hI hs hx (fun a v heq => absurd heq (ho a v)) hs' he)
    handleBreakpoint_writes_nothing (hI _ _ m.sameOutside_pollIrq hm) h
  exact hfetch.2

end Machine

end Emu51

import Emu51.Chip.Hooks
import Emu51.Machine.Contracts

/-!
# What the hooks leave in the globals

The globals of the flash interface are set by the hooks of its own registers only. So a property of
these globals is kept by every other hook (`hook_leaves`). This is a contract of the hooks: what
they set depends on what they find.
-/

namespace Emu51

open Chip Lua

variable {σ : Type}

/-- What is relied on: the globals meet `P`. -/
def LuaOp.Finds (P : σ → Prop) : (o : LuaOp σ) → o.Res → Prop
  | .get, g => P g
  | _, _ => True

/-- What is demanded: they are set to values that meet it, and `rom` is read at places that meet
`R`. -/
def LuaOp.Leaves (P : σ → Prop) (R : LuaInt → Prop) : LuaOp σ → Prop
  | .set g => P g
  | .peekRom addr => R addr
  | _ => True

/-- What is relied on is found, and what is demanded keeps it so. -/
lemma Machine.luaExec_leaves {P : σ → Prop} {R : LuaInt → Prop} {script : Script σ} {m : Machine σ}
    {o : LuaOp σ} {y : o.Res × Machine σ} (ho : o.Leaves P R) (hm : P m.lua)
    (h : luaExec (busAt script 0) o m = some y) : o.Finds P y.1 ∧ P y.2.lua := by
  cases o with
  | peekSfr addr => exact absurd h (Option.some_ne_none y).symm
  | pokeSfr addr v => exact absurd h (Option.some_ne_none y).symm
  | error => exact absurd h (Option.some_ne_none y).symm
  | get =>
    obtain rfl := Option.some.inj h
    exact ⟨hm, hm⟩
  | set g =>
    obtain rfl := Option.some.inj h
    exact ⟨trivial, ho⟩
  | pokeXram addr v =>
    obtain rfl := Option.some.inj h
    refine ⟨trivial, ?_⟩
    rw [writex_lua]
    exact hm
  | peekRom addr =>
    obtain ⟨b, -, rfl⟩ := Option.map_eq_some_iff.1 h
    exact ⟨trivial, hm⟩
  | mapRom name start len ofs =>
    obtain ⟨b, -, rfl⟩ := Option.map_eq_some_iff.1 h
    exact ⟨trivial, hm⟩
  | mapXram name start len ofs readonly =>
    obtain ⟨b, -, rfl⟩ := Option.map_eq_some_iff.1 h
    refine ⟨trivial, ?_⟩
    split_ifs
    · exact hm
    · exact hm
  | _ =>
    obtain rfl := Option.some.inj h
    exact ⟨trivial, hm⟩

namespace Chip

variable {ρ α : Type} {P : Globals ρ → Prop} {R : LuaInt → Prop} {w : Bool} {a : Byte}

/-! ## The flash interface -/

/-- The globals of the flash interface are the same. -/
def SameSpi (g g' : Globals ρ) : Prop :=
  g'.spisAddr0 = g.spisAddr0 ∧ g'.spisAddr1 = g.spisAddr1 ∧ g'.spisAddr2 = g.spisAddr2 ∧
    g'.spisData0 = g.spisData0 ∧ g'.spisData1 = g.spisData1 ∧ g'.spisData2 = g.spisData2 ∧
    g'.spisData3 = g.spisData3 ∧ g'.spisRcmd = g.spisRcmd

/-- The registers of the flash interface are the same as themselves. -/
lemma SameSpi.refl (g : Globals ρ) : SameSpi g g := ⟨rfl, rfl, rfl, rfl, rfl, rfl, rfl, rfl⟩

/-- The property is one of these globals. -/
def SpiOnly (P : Globals ρ → Prop) : Prop := ∀ g g', SameSpi g g' → P g → P g'

/-- The global a write to one of its registers sets, other than `CACHE_CTRL`. -/
def spiLatch (a : Byte) (v : LuaInt) (g : Globals ρ) : Globals ρ :=
  if a = SPI_S_ADDR0 then { g with spisAddr0 := v }
  else if a = SPI_S_ADDR1 then { g with spisAddr1 := v }
  else if a = SPI_S_ADDR2 then { g with spisAddr2 := v }
  else if a = SPI_S_DATA0 then { g with spisData0 := v }
  else if a = SPI_S_DATA1 then { g with spisData1 := v }
  else if a = SPI_S_DATA2 then { g with spisData2 := v }
  else if a = SPI_S_DATA3 then { g with spisData3 := v }
  else if a = SPI_S_RCMD then { g with spisRcmd := v }
  else g

/-- A write to the register keeps `P`, and it does not start a command. -/
def LatchKeeps (P : Globals ρ → Prop) (a : Byte) : Prop :=
  a ≠ CACHE_CTRL ∧ ∀ v g, P g → P (spiLatch a v g)

/-! ## Pieces of hooks -/

/-- Lua code that meets the contract. -/
abbrev Leaves (P : Globals ρ → Prop) (R : LuaInt → Prop) (p : LuaProg (Globals ρ) α) : Prop :=
  p.Contract (LuaOp.Finds P) (LuaOp.Leaves P R) fun _ => True

/-- The hook of a register meets it, in a call for a write if the register's own write does. -/
def HookLeaves (P : Globals ρ → Prop) (R : LuaInt → Prop) (w : Bool) (e : Byte × Hook (Globals ρ)) :
    Prop := (w = true → LatchKeeps P e.1) → ∀ d, Leaves P R (e.2 w d)

/-- Looking at the globals finds what is kept and leaves it. -/
lemma leaves_getGlobals : (getGlobals : LuaProg (Globals ρ) (Globals ρ)).Contract
    (LuaOp.Finds P) (LuaOp.Leaves P R) P := ⟨trivial, fun _ hg => hg⟩

/-- A change of the globals leaves what it respects. -/
lemma leaves_modify {f : Globals ρ → Globals ρ} (hf : ∀ g, P g → P (f g)) :
    Leaves P R (modify f) := ⟨trivial, fun g hg => ⟨hf g hg, fun _ _ => trivial⟩⟩

/-- A program under a condition leaves what it leaves when the condition holds. -/
lemma leaves_when {c : Bool} {p : LuaProg (Globals ρ) Unit} (h : c = true → Leaves P R p) :
    Leaves P R (when c p) := by
  unfold when
  split_ifs with hc
  · exact h hc
  · trivial

/-- A loop leaves what every one of its passes leaves. -/
lemma leaves_loop {body : LuaInt → LuaProg (Globals ρ) Unit} (h : ∀ i, Leaves P R (body i))
    (i : LuaInt) (n : ℕ) : Leaves P R (loop body i n) := by
  induction n generalizing i with
  | zero => trivial
  | succ n ih => exact (h i).bind fun _ _ => ih (i + 1)

/-! ## The common hooks -/

/-- A register without behaviour leaves everything. -/
lemma leaves_plain : HookLeaves P R w (a, plain) := fun _ _ => trivial

/-- The status register of the indirect access only answers, and leaves everything. -/
lemma leaves_sfrIndaccStatus : HookLeaves P R w (a, sfrIndaccStatus) := fun _ _ => trivial

/-- A global that is set as the register demands. -/
lemma LatchKeeps.modify (hP : SpiOnly P) {set : LuaInt → Globals ρ → Globals ρ}
    (hset : ∀ v g, SameSpi (spiLatch a v g) (set v g)) (h : LatchKeeps P a) (v : LuaInt) :
    Leaves P R (modify (set v)) :=
  leaves_modify fun g hg => hP _ _ (hset v g) (h.2 v g hg)

/-- A latch with a reader sets no register of the flash interface but its own. -/
lemma leaves_latch (hP : SpiOnly P) {set : LuaInt → Globals ρ → Globals ρ}
    (hset : ∀ v g, SameSpi (spiLatch a v g) (set v g)) (get : Globals ρ → LuaInt) :
    HookLeaves P R w (a, latch set get) := fun h d =>
  (leaves_when fun hw => (h hw).modify hP hset d).bind fun _ _ =>
    leaves_getGlobals.bind fun _ _ => trivial

/-- A latch without a reader sets no register of the flash interface but its own, either. -/
lemma leaves_latchOnly (hP : SpiOnly P) {set : LuaInt → Globals ρ → Globals ρ}
    (hset : ∀ v g, SameSpi (spiLatch a v g) (set v g)) : HookLeaves P R w (a, latchOnly set) :=
  fun h d => (leaves_when fun hw => (h hw).modify hP hset d).bind fun _ _ => trivial

/-- A read of `CACHE_CTRL` starts no command, and leaves everything as it is. -/
lemma leaves_sfrCacheCtrl (ha : a = CACHE_CTRL) : HookLeaves P R w (a, sfrCacheCtrl) := by
  intro h d
  cases w with
  | true => exact absurd ha (h rfl).1
  | false => trivial

/-- The hook of `CODE_BANK` maps pages and leaves the globals. -/
lemma leaves_sfrCodeBank : HookLeaves P R w (a, sfrCodeBank) := by
  intro _ d
  have hmap : Leaves P R (pokePcx d >>= fun _ => mapRom "rom" 0x40 0xc0 (0x40 + d * 0x100)) :=
    ⟨trivial, fun _ _ => ⟨trivial, fun _ _ => trivial⟩⟩
  exact (leaves_when fun _ => hmap).bind fun _ _ => trivial

/-- The hook of `DATA_BANK` maps pages and leaves the globals. -/
lemma leaves_sfrDataBank : HookLeaves P R w (a, sfrDataBank) := by
  intro _ d
  refine (leaves_when fun _ => Prog.contract_ite.2 ⟨fun _ => ?_, fun _ => ?_⟩).bind
    fun _ _ => trivial
  · exact ⟨trivial, fun _ _ => trivial⟩
  · exact ⟨trivial, fun _ _ => trivial⟩

/-- The globals may be set to anything, as long as the flash interface stays the same. -/
lemma leaves_set (hP : SpiOnly P) {g g' : Globals ρ} (hg : P g) (h : SameSpi g g') :
    LuaOp.Leaves P R (.set g') := hP g g' h hg

/-- A change of the globals that keeps the registers of the flash interface leaves what depends on
them only. -/
lemma leaves_modify_same (hP : SpiOnly P) {f : Globals ρ → Globals ρ} (hf : ∀ g, SameSpi g (f g)) :
    Leaves P R (modify f) := leaves_modify fun g hg => hP g _ (hf g) hg

/-- The low byte of timer 0 moves the counter and none of the registers of the flash interface. -/
lemma leaves_sfrTl0 (hP : SpiOnly P) : HookLeaves P R w (a, sfrTl0) := by
  intro _ d
  cases w with
  | true => trivial
  | false =>
    exact ⟨trivial, fun g hg => ⟨leaves_set hP hg (.refl g), fun _ _ => trivial⟩⟩

/-- The high byte of timer 0 only reads the counter. -/
lemma leaves_sfrTh0 : HookLeaves P R w (a, sfrTh0) := by
  intro _ d
  cases w with
  | true => trivial
  | false => exact leaves_getGlobals.bind fun _ _ => trivial

/-- The low byte of the second stack pointer leaves the flash interface. -/
lemma leaves_sfrSspl (hP : SpiOnly P) : HookLeaves P R w (a, sfrSspl) := by
  intro _ d
  refine leaves_getGlobals.bind fun g hg => Prog.contract_ite.2 ⟨fun _ => ?_, fun _ => trivial⟩
  exact ⟨leaves_set hP hg (.refl g), fun _ _ => trivial⟩

/-- The high byte of the second stack pointer leaves it, too. -/
lemma leaves_sfrSsph (hP : SpiOnly P) : HookLeaves P R w (a, sfrSsph) := by
  intro _ d
  refine leaves_getGlobals.bind fun g hg => Prog.contract_ite.2 ⟨fun _ => ?_, fun _ => trivial⟩
  exact ⟨leaves_set hP hg (.refl g), fun _ _ => trivial⟩

/-- Pushing to the second stack and popping from it move its pointer only. -/
lemma leaves_sfrSsio (hP : SpiOnly P) : HookLeaves P R w (a, sfrSsio) := by
  intro _ d
  refine leaves_getGlobals.bind fun g hg => Prog.contract_ite.2 ⟨fun _ => ?_, fun _ => ?_⟩
  · exact ⟨leaves_set hP hg (.refl g), fun _ _ => ⟨trivial, fun _ _ => trivial⟩⟩
  · exact ⟨trivial, fun _ _ => ⟨leaves_set hP hg (.refl g), fun _ _ => trivial⟩⟩

/-- The packet transfer moves bytes of external data memory and leaves the globals. -/
lemma leaves_transfer (rxSeq eaddr paddr len : LuaInt) :
    Leaves P R (transfer rxSeq eaddr paddr len) := by
  refine Prog.contract_ite.2 ⟨fun _ => ?_, fun _ => ?_⟩
  · refine leaves_loop (fun i => ?_) _ _
    exact ⟨trivial, fun _ _ => trivial⟩
  · refine leaves_loop (fun i => ?_) _ _
    exact ⟨trivial, fun _ _ => trivial⟩

/-- The hook that starts the packet transfer leaves all the globals that are kept. -/
lemma leaves_sfrPedmaLen : HookLeaves P R w (a, sfrPedmaLen) := by
  intro _ d
  refine Prog.Contract.bind (leaves_when fun _ => ?_) fun _ _ => trivial
  exact ⟨trivial, fun _ _ => ⟨trivial, fun _ _ => ⟨trivial, fun _ _ => ⟨trivial, fun _ _ =>
    ⟨trivial, fun _ _ => leaves_transfer _ _ _ _⟩⟩⟩⟩⟩

/-! ## The hooks of one chip -/

namespace Rtl8367s

variable {P : G → Prop}

/-- A command to the switch registers sets its data latches and registers only. -/
lemma leaves_sfrIndaccCmd (hP : SpiOnly P) : HookLeaves P R w (a, sfrIndaccCmd) := by
  intro _ d
  have hread : ∀ addr, Leaves P R (socregRead addr) := by
    intro addr
    refine leaves_getGlobals.bind fun g hg => Prog.contract_ite.2 ⟨fun _ => ?_, fun _ => ?_⟩
    · cases g.socRegs 0x1d15 with
      | none => exact ⟨trivial, fun e => nomatch e⟩
      | some r => trivial
    · refine Prog.Contract.bind (leaves_when fun _ => ?_) fun _ _ => trivial
      exact ⟨leaves_set hP hg (.refl g), fun _ _ => trivial⟩
  refine Prog.Contract.bind (leaves_when fun _ => ?_) fun _ _ => trivial
  refine leaves_getGlobals.bind fun g hg => ?_
  refine Prog.Contract.bind (leaves_when fun _ => ?_) fun _ _ => leaves_when fun _ => ?_
  · exact (hread _).bind fun _ _ => leaves_modify_same hP fun g => .refl g
  · exact leaves_getGlobals.bind fun _ _ => leaves_modify_same hP fun g => .refl g

/-- Every hook in the table of the RTL8367S leaves what depends on the flash interface only. -/
theorem hooks_leave (hP : SpiOnly P) : ∀ e ∈ ramdHooks, HookLeaves P R w e := by
  have haddr : ∀ {a set}, (∀ v g, SameSpi (spiLatch a v g) (set v g)) →
      HookLeaves P R w (a, latchOnly set) := fun h => leaves_latchOnly hP h
  simp only [ramdHooks, List.forall_mem_cons]
  refine ⟨leaves_sfrCacheCtrl rfl, leaves_plain, leaves_plain, leaves_sfrTl0 hP, leaves_plain,
    leaves_sfrTh0, leaves_plain, leaves_sfrCodeBank, leaves_sfrDataBank, leaves_sfrIndaccCmd hP,
    leaves_sfrIndaccStatus, ?_, ?_, ?_, ?_, ?_, ?_, leaves_plain, haddr fun _ _ => .refl _,
    haddr fun _ _ => .refl _, haddr fun _ _ => .refl _, ?_, ?_, ?_, ?_, ?_, leaves_sfrPedmaLen,
    leaves_sfrSspl hP, leaves_sfrSsph hP, leaves_sfrSsio hP, leaves_plain, leaves_plain,
    leaves_plain, List.forall_mem_nil _⟩
  all_goals
    refine leaves_latch hP ?_ _
    exact fun _ _ => .refl _

end Rtl8367s

namespace Rtl8372

variable {P : G → Prop}

/-- A command to the switch registers sets its data latches and registers only. -/
lemma leaves_sfrIndaccCmd (hP : SpiOnly P) : HookLeaves P R w (a, sfrIndaccCmd) := by
  intro _ d
  have hread : ∀ addr, Leaves P R (socregRead addr) :=
    fun _ => leaves_getGlobals.bind fun _ _ => trivial
  refine Prog.Contract.bind (leaves_when fun _ => ?_) fun _ _ => trivial
  refine leaves_getGlobals.bind fun g hg => ?_
  refine Prog.Contract.bind (leaves_when fun _ => ?_) fun _ _ => leaves_when fun _ => ?_
  · exact (hread _).bind fun _ _ => leaves_modify_same hP fun g => .refl g
  · exact leaves_getGlobals.bind fun _ _ => leaves_modify_same hP fun g => .refl g

/-- The hook of `PCON` pokes `T2CON` and leaves the globals. -/
lemma leaves_sfrPcon : HookLeaves P R w (a, sfrPcon) := by
  intro _ d
  have hidle : Leaves P R (peekSfr 0xc8 >>= fun t2con => pokeSfr 0xc8 (t2con ||| 0x80)) :=
    ⟨trivial, fun _ _ => ⟨trivial, fun _ _ => trivial⟩⟩
  refine (leaves_when fun _ => hidle).bind fun _ _ => ?_
  exact ⟨trivial, fun _ _ => ⟨trivial, fun _ _ => trivial⟩⟩

/-- Every hook in the table of the RTL8372 leaves what depends on the flash interface only. -/
theorem hooks_leave (hP : SpiOnly P) : ∀ e ∈ ramdHooks, HookLeaves P R w e := by
  have haddr : ∀ {a set}, (∀ v g, SameSpi (spiLatch a v g) (set v g)) →
      HookLeaves P R w (a, latchOnly set) := fun h => leaves_latchOnly hP h
  simp only [ramdHooks, List.forall_mem_cons]
  refine ⟨leaves_sfrCacheCtrl rfl, leaves_sfrPcon, leaves_plain, leaves_plain, leaves_sfrTl0 hP,
    leaves_plain, leaves_sfrTh0, leaves_plain, leaves_sfrCodeBank, leaves_sfrDataBank,
    leaves_sfrIndaccCmd hP, leaves_sfrIndaccStatus, ?_, ?_, ?_, ?_, ?_, ?_, leaves_plain,
    haddr fun _ _ => .refl _, haddr fun _ _ => .refl _, haddr fun _ _ => .refl _, ?_, ?_, ?_, ?_,
    ?_, leaves_sfrPedmaLen, leaves_sfrSspl hP, leaves_sfrSsph hP, leaves_sfrSsio hP, leaves_plain,
    leaves_plain, leaves_plain, List.forall_mem_nil _⟩
  all_goals
    refine leaves_latch hP ?_ _
    exact fun _ _ => .refl _

end Rtl8372

/-! ## Both scripts -/

variable {chip : Chip} {P : Globals chip.Indacc → Prop}

/-- Both scripts have the hook that reads the flash under `CACHE_CTRL`. -/
lemma ramdHooks_cacheCtrl (chip : Chip) (g : Globals chip.Indacc) :
    chip.script.ramdHooks g CACHE_CTRL = some sfrCacheCtrl := by
  cases chip with
  | rtl8367s socRegs => rfl
  | rtl8372 => rfl

/-- Every hook in the tables of both scripts leaves what depends on the flash interface only. -/
theorem hook_leaves (hP : SpiOnly P) {g : Globals chip.Indacc} {hook : Hook (Globals chip.Indacc)}
    (h : chip.script.ramdHooks g a = some hook) : HookLeaves P R w (a, hook) := by
  cases chip with
  | rtl8367s socRegs => exact Rtl8367s.hooks_leave hP _ (mem_of_lookup h)
  | rtl8372 => exact Rtl8372.hooks_leave hP _ (mem_of_lookup h)

/-- So the hooks fulfil the contract the accesses of a run rely on, for the registers that are
allowed. -/
theorem leaves_contract (hP : SpiOnly P) (R : LuaInt → Prop) {ok : Byte → Prop}
    (hok : ∀ a, ok a → LatchKeeps P a) (ht2con : ok T2CON) (hscon : ok SCON) :
    HookContract chip.script ok (LuaOp.Finds P) (LuaOp.Leaves P R) where
  get := trivial
  peeked _ _ := trivial
  poked _ _ _ := trivial
  hooks g a hook hk w v hw := by
    have hpokes : (hook w (luaOfByte v)).All (LuaOp.PokesOnly fun a _ => ok a) :=
      chip.pokesOnly (fun _ => ht2con) (fun _ => hscon) g a hook hk w (luaOfByte v)
    exact (hook_leaves hP hk (fun htrue => hok a (hw htrue)) (luaOfByte v)).and_all hpokes

end Chip

end Emu51

import Emu51.Chip.Rtl8367s
import Emu51.Chip.Rtl8372
import Emu51.Interrupts.Pending
import Emu51.Machine.Outside
import Emu51.Registers.Psw
import Emu51.Uart.Scon

/-!
# What the hooks do to the emulator

Most hooks work on the globals and on external memory and look at `rom` (`Calm`). The exceptions are
the hooks of `CODE_BANK` and `DATA_BANK`, which map memory, and the one of `PCON`, which pokes
`T2CON` and `SCON`. So both scripts meet what is asked of a script elsewhere.
-/

namespace Emu51

open Chip Lua

variable {σ : Type}

/-- `CODE_BANK`. -/
@[simp] abbrev CODE_BANK : Byte := 0x96

/-- `DATA_BANK`. -/
@[simp] abbrev DATA_BANK : Byte := 0x97

/-- `PCON`. -/
@[simp] abbrev PCON : Byte := 0x87

/-- `CACHE_CTRL` and the other registers of the flash interface. -/
@[simp] abbrev CACHE_CTRL : Byte := 0x80
@[simp] abbrev SPI_S_ADDR0 : Byte := 0xa9
@[simp] abbrev SPI_S_ADDR1 : Byte := 0xaa
@[simp] abbrev SPI_S_ADDR2 : Byte := 0xab
@[simp] abbrev SPI_S_DATA0 : Byte := 0xac
@[simp] abbrev SPI_S_DATA1 : Byte := 0xad
@[simp] abbrev SPI_S_DATA2 : Byte := 0xae
@[simp] abbrev SPI_S_DATA3 : Byte := 0xaf
@[simp] abbrev SPI_S_RCMD : Byte := 0xb1

/-! ## The chips -/

/-- The chips there is a script for. -/
inductive Chip where
  | rtl8367s (socRegs : LuaInt → Option LuaInt)
  | rtl8372

namespace Chip

/-- The globals behind `indacc`. -/
abbrev Indacc : Chip → Type
  | .rtl8367s _ => Rtl8367s.Indacc
  | .rtl8372 => Rtl8372.Indacc

/-- The script of the chip. -/
def script : (chip : Chip) → Script (Globals chip.Indacc)
  | .rtl8367s socRegs => Rtl8367s.script socRegs
  | .rtl8372 => Rtl8372.script

end Chip

/-! ## Operations of hooks -/

/-- The operation maps no code, and it maps external memory that can be written to `sram` only. Its
pokes are those of `sfr_pcon`. -/
def LuaOp.Ordinary : LuaOp σ → Prop
  | .pokeSfr addr _ => byteOfLua addr = T2CON ∨ byteOfLua addr = SCON
  | .pokePcx _ => False
  | .makeRam _ _ => False
  | .mapRom _ _ _ _ => False
  | .mapXram name _ _ _ readonly => intOfLua readonly = 0 → name = "sram"
  | _ => True

/-- An ordinary step pokes no register other than `T2CON` and `SCON`. -/
lemma LuaOp.Ordinary.pokes {o : LuaOp σ} (h : o.Ordinary) :
    o.PokesOnly fun a _ => a = T2CON ∨ a = SCON := by
  cases o with
  | pokeSfr addr v => exact h
  | _ => trivial

/-- What the operations of a tame hook are like when it is called for a write and for a read. -/
def LuaOp.Tame (w : Bool) (o : LuaOp σ) : Prop := o.Ordinary ∧ (w = false → o.OffSfr)

/-- The operation maps and pokes nothing but single bytes of external memory, and it looks at
registers only in a call for a write. -/
def LuaOp.Calm (w : Bool) : LuaOp σ → Prop
  | .peekSfr _ => w = true
  | .peekXram _ | .pokeXram _ _ | .peekRom _ | .get | .set _ | .error => True
  | _ => False

/-- A calm step is a tame one: it maps no pages, and what it pokes is allowed. -/
lemma LuaOp.Calm.tame {w : Bool} {o : LuaOp σ} (h : o.Calm w) : o.Tame w := by
  cases o with
  | peekSfr addr => exact ⟨trivial, fun hw => absurd (hw.symm.trans h) Bool.false_ne_true⟩
  | pokeSfr addr v => exact absurd h id
  | pokePcx v => exact absurd h id
  | makeRam name size => exact absurd h id
  | mapRom name start len ofs => exact absurd h id
  | mapXram name start len ofs readonly => exact absurd h id
  | _ => exact ⟨trivial, fun _ => trivial⟩

namespace Chip

variable {ρ : Type} {Q : LuaOp σ → Prop} {w : Bool}

/-- The hook works on the globals, on external memory and on its mapping. -/
def Tame (hook : Hook σ) : Prop := ∀ w d, (hook w d).All (LuaOp.Tame w)

/-- The hook does not even map memory. -/
def Calm (hook : Hook σ) : Prop := ∀ w d, (hook w d).All (LuaOp.Calm w)

/-- A calm hook is a tame one. -/
lemma Calm.tame {hook : Hook σ} (h : Calm hook) : Tame hook :=
  fun w d => (h w d).mono fun _ ho => ho.tame

/-- A program that runs under a condition has a property of all its steps if it has it when the
condition holds. -/
lemma all_when {c : Bool} {p : LuaProg σ Unit} (h : c = true → p.All Q) : (when c p).All Q := by
  unfold when
  split_ifs with hc
  · exact h hc
  · trivial

/-- A loop has a property of all its steps if every pass has it. -/
lemma all_loop {body : LuaInt → LuaProg σ Unit} (h : ∀ i, (body i).All Q) (i : LuaInt) (n : ℕ) :
    (loop body i n).All Q := by
  induction n generalizing i with
  | zero => trivial
  | succ n ih => exact (h i).bind fun _ => ih (i + 1)

/-- A change of the globals is calm, as the registers are none of its business. -/
lemma calm_modify (f : σ → σ) : (modify f).All (LuaOp.Calm w) :=
  ⟨trivial, fun _ => ⟨trivial, fun _ => trivial⟩⟩

/-- Looking at the globals is calm. -/
lemma calm_getGlobals : (getGlobals : LuaProg σ σ).All (LuaOp.Calm w) :=
  ⟨trivial, fun _ => trivial⟩

/-- Setting the globals is calm. -/
lemma calm_setGlobals (g : σ) : (setGlobals g).All (LuaOp.Calm w) :=
  ⟨trivial, fun _ => trivial⟩

/-- A read of the image is calm. -/
lemma calm_peekRom (addr : LuaInt) : (peekRom addr : LuaProg σ LuaInt).All (LuaOp.Calm w) :=
  ⟨trivial, fun _ => trivial⟩

/-- A read of external data memory is calm. -/
lemma calm_peekXram (addr : LuaInt) : (peekXram addr : LuaProg σ LuaInt).All (LuaOp.Calm w) :=
  ⟨trivial, fun _ => trivial⟩

/-- A write to external data memory is calm. -/
lemma calm_pokeXram (addr v : LuaInt) : (pokeXram addr v : LuaProg σ Unit).All (LuaOp.Calm w) :=
  ⟨trivial, fun _ => trivial⟩

/-- A read of a register is calm in a write hook. -/
lemma calm_peekSfr (addr : LuaInt) : (peekSfr addr : LuaProg σ LuaInt).All (LuaOp.Calm true) :=
  ⟨rfl, fun _ => trivial⟩

/-! ## The common hooks -/

@[simp] lemma calm_plain : Calm (plain : Hook (Globals ρ)) := fun _ _ => trivial

@[simp] lemma calm_sfrIndaccStatus : Calm (sfrIndaccStatus : Hook (Globals ρ)) := fun _ _ => trivial

@[simp] lemma calm_latch (set : LuaInt → Globals ρ → Globals ρ) (get : Globals ρ → LuaInt) :
    Calm (latch set get) := fun _ _ =>
  (all_when fun _ => calm_modify _).bind fun _ => calm_getGlobals.bind fun _ => trivial

@[simp] lemma calm_latchOnly (set : LuaInt → Globals ρ → Globals ρ) : Calm (latchOnly set) :=
  fun _ _ => (all_when fun _ => calm_modify _).bind fun _ => trivial

@[simp] lemma calm_sfrTl0 : Calm (sfrTl0 : Hook (Globals ρ)) := by
  intro w d
  cases w with
  | true => trivial
  | false => exact calm_getGlobals.bind fun _ => (calm_setGlobals _).bind fun _ => trivial

@[simp] lemma calm_sfrTh0 : Calm (sfrTh0 : Hook (Globals ρ)) := by
  intro w d
  cases w with
  | true => trivial
  | false => exact calm_getGlobals.bind fun _ => trivial

/-- The flash read of `sfr_cache_ctrl` is calm: four reads of the image and the globals they go to.
-/
lemma calm_readFlash (unpadr : LuaInt) :
    (readFlash unpadr : LuaProg (Globals ρ) Unit).All (LuaOp.Calm w) := by
  have hread : ∀ (a : LuaInt) (f : LuaInt → Globals ρ → Globals ρ) {p : LuaProg (Globals ρ) Unit},
      p.All (LuaOp.Calm w) →
      (peekRom a >>= fun d => modify (f d) >>= fun _ => p).All (LuaOp.Calm w) :=
    fun a f _ hp => (calm_peekRom a).bind fun d => (calm_modify (f d)).bind fun _ => hp
  exact hread _ _ (hread _ _ (hread _ _ ((calm_peekRom _).bind fun _ => calm_modify _)))

@[simp] lemma calm_sfrCacheCtrl : Calm (sfrCacheCtrl : Hook (Globals ρ)) := by
  intro w d
  have hcommand : (spiCommand : LuaProg (Globals ρ) Unit).All (LuaOp.Calm w) := by
    refine calm_getGlobals.bind fun g => ?_
    rw [Prog.all_ite]
    exact ⟨fun _ => calm_setGlobals _, fun _ => all_when fun _ => calm_readFlash _⟩
  exact (all_when fun _ => hcommand).bind fun _ => trivial

/-- The hook of `DATA_BANK` maps pages and is tame besides. -/
lemma tame_sfrDataBank : Tame (sfrDataBank : Hook (Globals ρ)) := by
  intro w d
  have hsram : (mapXram "sram" 0x00 0xc0 0 0 : LuaProg (Globals ρ) Unit).All (LuaOp.Tame w) :=
    ⟨⟨fun _ => rfl, fun _ => trivial⟩, fun _ => trivial⟩
  have hrom : ∀ ofs,
      (mapXram "rom" 0x40 0xc0 ofs 1 : LuaProg (Globals ρ) Unit).All (LuaOp.Tame w) := by
    intro ofs
    have hro : intOfLua 1 ≠ 0 := by decide
    exact ⟨⟨fun h => absurd h hro, fun _ => trivial⟩, fun _ => trivial⟩
  exact (all_when fun _ => Prog.all_ite.2 ⟨fun _ => hsram, fun _ => hrom _⟩).bind fun _ => trivial

@[simp] lemma calm_sfrSspl : Calm (sfrSspl : Hook (Globals ρ)) := by
  intro w d
  refine calm_getGlobals.bind fun g => Prog.all_ite.2 ⟨fun _ => ?_, fun _ => trivial⟩
  exact (calm_setGlobals _).bind fun _ => trivial

@[simp] lemma calm_sfrSsph : Calm (sfrSsph : Hook (Globals ρ)) := by
  intro w d
  refine calm_getGlobals.bind fun g => Prog.all_ite.2 ⟨fun _ => ?_, fun _ => trivial⟩
  exact (calm_setGlobals _).bind fun _ => trivial

@[simp] lemma calm_sfrSsio : Calm (sfrSsio : Hook (Globals ρ)) := by
  intro w d
  refine calm_getGlobals.bind fun g => Prog.all_ite.2 ⟨fun _ => ?_, fun _ => ?_⟩
  · exact (calm_setGlobals _).bind fun _ => (calm_pokeXram _ _).bind fun _ => trivial
  · exact (calm_peekXram _).bind fun _ => (calm_setGlobals _).bind fun _ => trivial

/-- The packet transfer is calm: it copies bytes within external data memory. -/
lemma calm_transfer (rxSeq eaddr paddr len : LuaInt) :
    (transfer rxSeq eaddr paddr len : LuaProg (Globals ρ) Unit).All (LuaOp.Calm w) := by
  refine Prog.all_ite.2 ⟨fun _ => ?_, fun _ => ?_⟩
  · refine all_loop (fun i => ?_) _ _
    exact (calm_peekXram _).bind fun _ => trivial
  · exact all_loop (fun _ => calm_pokeXram _ _) _ _

@[simp] lemma calm_sfrPedmaLen : Calm (sfrPedmaLen : Hook (Globals ρ)) := by
  intro w d
  cases w with
  | true =>
    have htransfer : ∀ eaddr paddr, (getGlobals >>= fun g : Globals ρ =>
        transfer g.rxSeq eaddr paddr (d * 8)).All (LuaOp.Calm true) :=
      fun _ _ => calm_getGlobals.bind fun _ => calm_transfer _ _ _ _
    have hpeeks := (calm_peekSfr 0xb3).bind fun eaddrL => (calm_peekSfr 0xb4).bind fun eaddrH =>
      (calm_peekSfr 0xb5).bind fun paddrL => (calm_peekSfr 0xb6).bind fun paddrH =>
        htransfer (eaddrL + (eaddrH <<< 8)) (paddrL + (paddrH <<< 8))
    exact hpeeks.bind fun _ => trivial
  | false => trivial

/-! ## The hooks of one chip -/

namespace Rtl8367s

@[simp] lemma calm_sfrIndaccCmd : Calm sfrIndaccCmd := by
  intro w d
  have hread : ∀ addr, (socregRead addr).All (LuaOp.Calm w) := by
    intro addr
    refine calm_getGlobals.bind fun g => Prog.all_ite.2 ⟨fun _ => ?_, fun _ => ?_⟩
    · cases g.socRegs 0x1d15 with
      | none => exact ⟨trivial, fun e => nomatch e⟩
      | some r => trivial
    · exact (all_when fun _ => calm_setGlobals _).bind fun _ => trivial
  refine Prog.All.bind (all_when fun _ => ?_) fun _ => trivial
  refine calm_getGlobals.bind fun g => ?_
  refine (all_when fun _ => (hread _).bind fun _ => calm_modify _).bind fun _ => ?_
  exact all_when fun _ => calm_getGlobals.bind fun _ => calm_modify _

end Rtl8367s

namespace Rtl8372

@[simp] lemma calm_sfrIndaccCmd : Calm sfrIndaccCmd := by
  intro w d
  refine Prog.All.bind (all_when fun _ => ?_) fun _ => trivial
  refine calm_getGlobals.bind fun g => ?_
  have hread : ∀ addr, (socregRead addr).All (LuaOp.Calm w) := by
    intro addr
    exact calm_getGlobals.bind fun _ => trivial
  refine (all_when fun _ => (hread _).bind fun _ => calm_modify _).bind fun _ => ?_
  exact all_when fun _ => calm_getGlobals.bind fun _ => calm_modify _

end Rtl8372

/-! ## Both scripts -/

/-- What holds of every hook, by its address. -/
structure HookSpec (a : Byte) (hook : Hook σ) : Prop where
  ordinary : ∀ w d, (w = true → a ≠ CODE_BANK) → (hook w d).All LuaOp.Ordinary
  pokes : ∀ w d, (hook w d).All (LuaOp.PokesOnly fun a _ => a = T2CON ∨ a = SCON)
  copies : ∀ d, CopiesScon (hook false d)

/-- A program that keeps off the registers pokes `SCON` with nothing but a copy. -/
lemma copiesScon_of_all {α : Type} {p : LuaProg σ α} (h : p.All LuaOp.OffSfr) : CopiesScon p := by
  induction p with
  | done a => exact .done a
  | node o k ih => exact .off h.1 fun r => ih r (h.2 r)

/-- A tame hook does to the emulator what every hook should, at whatever register it stands. -/
lemma Tame.spec {hook : Hook σ} (h : Tame hook) (a : Byte) : HookSpec a hook where
  ordinary w d _ := (h w d).mono fun _ ho => ho.1
  pokes w d := (h w d).mono fun _ ho => ho.1.pokes
  copies d := copiesScon_of_all ((h false d).mono fun _ ho => ho.2 rfl)

/-- The hook of `CODE_BANK` does to the emulator what every hook should, even though it maps pages.
-/
lemma sfrCodeBank_spec : HookSpec CODE_BANK (sfrCodeBank : Hook (Globals ρ)) where
  ordinary w d hw := by
    cases w with
    | true => exact absurd rfl (hw rfl)
    | false => trivial
  pokes w d := by
    cases w with
    | true => exact ⟨trivial, fun _ => ⟨trivial, fun _ => trivial⟩⟩
    | false => trivial
  copies d := .done d

/-- The hook of `PCON` does, too, even though it pokes `T2CON`. -/
lemma sfrPcon_spec (a : Byte) : HookSpec a Rtl8372.sfrPcon := by
  have hordinary : ∀ w d, (Rtl8372.sfrPcon w d).All LuaOp.Ordinary := by
    intro w d
    refine Prog.All.bind (all_when fun _ => ?_) fun _ => ?_
    · exact ⟨trivial, fun _ => ⟨.inl (by decide), fun _ => trivial⟩⟩
    · exact ⟨trivial, fun _ => ⟨.inr (by decide), fun _ => trivial⟩⟩
  exact {
    ordinary := fun w d _ => hordinary w d
    pokes := fun w d => (hordinary w d).mono fun _ ho => ho.pokes
    copies := fun d => .copy (by decide) (by decide) fun _ => .done d }

/-- All hooks of the RTL8367S are calm but the two that map the banks. -/
lemma Rtl8367s.hooks_calm : ∀ e ∈ Rtl8367s.ramdHooks,
    Calm e.2 ∨ e = (CODE_BANK, sfrCodeBank) ∨ e = (DATA_BANK, sfrDataBank) := by
  simp [Rtl8367s.ramdHooks]

/-- All hooks of the RTL8372 are calm but the two that map the banks and the one of `PCON`. -/
lemma Rtl8372.hooks_calm : ∀ e ∈ Rtl8372.ramdHooks, Calm e.2 ∨ e = (CODE_BANK, sfrCodeBank) ∨
    e = (DATA_BANK, sfrDataBank) ∨ e = (PCON, Rtl8372.sfrPcon) := by
  simp [Rtl8372.ramdHooks]

/-- An entry that is found is in the table. -/
lemma mem_of_lookup {table : List (Byte × Hook σ)} {a : Byte} {hook : Hook σ}
    (h : table.lookup a = some hook) : (a, hook) ∈ table := by
  obtain ⟨l₁, l₂, htable, -⟩ := List.lookup_eq_some_iff.1 h
  rw [htable]
  exact List.mem_append_right l₁ List.mem_cons_self

/-- Every hook in the tables of both scripts does to the emulator what a hook may do. -/
theorem hookSpec (chip : Chip) {g : Globals chip.Indacc} {a : Byte}
    {hook : Hook (Globals chip.Indacc)} (h : chip.script.ramdHooks g a = some hook) :
    HookSpec a hook := by
  cases chip with
  | rtl8367s socRegs =>
    rcases Rtl8367s.hooks_calm _ (mem_of_lookup h) with hcalm | hbank | hbank
    · exact hcalm.tame.spec a
    · obtain ⟨rfl, rfl⟩ := Prod.mk.inj hbank
      exact sfrCodeBank_spec
    · obtain ⟨rfl, rfl⟩ := Prod.mk.inj hbank
      exact tame_sfrDataBank.spec _
  | rtl8372 =>
    rcases Rtl8372.hooks_calm _ (mem_of_lookup h) with hcalm | hbank | hbank | hpcon
    · exact hcalm.tame.spec a
    · obtain ⟨rfl, rfl⟩ := Prod.mk.inj hbank
      exact sfrCodeBank_spec
    · obtain ⟨rfl, rfl⟩ := Prod.mk.inj hbank
      exact tame_sfrDataBank.spec _
    · obtain ⟨rfl, rfl⟩ := Prod.mk.inj hpcon
      exact sfrPcon_spec PCON

/-- Both scripts have the hook that maps a bank of code under `CODE_BANK`. -/
lemma ramdHooks_codeBank (chip : Chip) (g : Globals chip.Indacc) :
    chip.script.ramdHooks g CODE_BANK = some sfrCodeBank := by
  cases chip with
  | rtl8367s socRegs => rfl
  | rtl8372 => rfl

/-! ## What the scripts were assumed to do -/

/-- Neither script pokes a register other than `T2CON` and `SCON`. -/
lemma pokesOnly (chip : Chip) {ok : Byte → Byte → Prop} (ht2con : ∀ v, ok T2CON v)
    (hscon : ∀ v, ok SCON v) : chip.script.PokesOnly ok := by
  intro g a hook h w d
  refine ((hookSpec chip h).pokes w d).mono fun o ho => ?_
  cases o with
  | pokeSfr addr v =>
    change ok (byteOfLua addr) (byteOfLua v)
    rcases ho with ha | ha
    · rw [ha]
      exact ht2con _
    · rw [ha]
      exact hscon _
  | _ => trivial

/-- What ordinary operations keep is kept by all hooks, except that of `CODE_BANK`. -/
lemma keeps_of_ordinary (chip : Chip) {I : Machine (Globals chip.Indacc) → Prop}
    (hI : ∀ (o : LuaOp (Globals chip.Indacc)) bus m y, o.Ordinary → o.OffSfr → I m →
      Machine.luaExec bus o m = some y → I y.2) : chip.script.Keeps I fun a _ => a ≠ CODE_BANK := by
  intro g a hook h w d hw
  refine ((hookSpec chip h).ordinary w d hw).mono fun o ho => ⟨?_, ?_⟩
  · cases o with
    | pokeSfr addr v =>
      change byteOfLua addr ≠ CODE_BANK
      rcases (ho : byteOfLua addr = T2CON ∨ byteOfLua addr = SCON) with ha | ha
      · rw [ha]
        decide
      · rw [ha]
        decide
    | _ => trivial
  · intro hoff bus m y hm he
    exact hI o bus m y ho hoff hm he

/-- Neither script touches `PSW` or the lower internal RAM. -/
theorem leavesPsw (chip : Chip) : chip.script.LeavesPsw :=
  chip.pokesOnly (fun _ => by decide) fun _ => by decide

/-- Called for a read, a hook at most writes `SCON` back. -/
theorem readsCopyScon (chip : Chip) : chip.script.ReadsCopyScon :=
  fun _ _ _ h d => (hookSpec chip h).copies d

/-- The hooks of `IE` and `T2CON` return their data; `SCON` and `IP` have none. -/
theorem returnsData (chip : Chip) : chip.script.ReturnsData := by
  have hplain : ∀ w d, (plain w d : LuaProg (Globals chip.Indacc) LuaInt).Returns (· = d) ∧
      (plain w d : LuaProg (Globals chip.Indacc) LuaInt).All LuaOp.OffSfr :=
    fun _ _ => ⟨rfl, trivial⟩
  intro g a hook h ha
  have hfound : chip.script.ramdHooks g a = some plain ∨ chip.script.ramdHooks g a = none := by
    cases chip <;> rcases ha with rfl | rfl | rfl | rfl <;> first | exact .inl rfl | exact .inr rfl
  rcases hfound with hfound | hfound
  · obtain rfl := Option.some.inj (h.symm.trans hfound)
    exact hplain
  · exact absurd (h.symm.trans hfound) (Option.some_ne_none hook)

end Chip

end Emu51

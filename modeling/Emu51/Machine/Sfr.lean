import Emu51.Machine.Irq
import Emu51.Machine.Lua

/-!
# Special function registers

Reads and writes of `ramsfr` by direct address go through `readd` and `writed`. An address whose
bit in `ramsfrtrap` is set takes the detour through `default_ramd_get` and `default_ramd_put`, where
`PSW` moves the register window, the UART and `DPS` have code of their own, every other register
is offered to its Lua hook, and the interrupts hung on the register are recomputed.

A hook may itself peek and poke special function registers, so the accessors of one nesting level
are built from those of the level below (`Bus`). At the bottom nothing is left and the emulator
stops, as Lua does when C calls are nested too deep.
-/

namespace Emu51

/-- The direct accessors hooks see: `peek_sfr` and `poke_sfr`. -/
structure Bus (σ : Type) where
  get : Byte → Machine σ → Option (Byte × Machine σ)
  put : Byte → Byte → Machine σ → Option (Machine σ)

namespace Machine

variable {σ : Type}

/-- The functions of `emu_lib`. -/
def luaExec (bus : Bus σ) : Prog.Handler (LuaOp σ) LuaOp.Res (Machine σ)
  | .peekSfr addr, m => (bus.get (byteOfLua addr) m).map fun y => (luaOfByte y.1, y.2)
  | .pokeSfr addr v, m => (bus.put (byteOfLua addr) (byteOfLua v) m).map fun m' => ((), m')
  | .peekXram addr, m => some (luaOfByte (m.readx (addr.setWidth 16)), m)
  | .pokeXram addr v, m => some ((), m.writex (addr.setWidth 16) (byteOfLua v))
  | .peekRom addr, m =>
      (m.getBuffer "rom").map fun b => (luaOfByte ((m.heap b).mem (intOfLua addr)), m)
  | .pokePcx v, m => some ((), m.setPcx (byteOfLua v))
  | .makeRam name size, m => some ((), m.createBuffer name (intOfLua size).toNat)
  | .mapRom name start len ofs, m =>
      (m.getBuffer name).map fun b =>
        ((), m.mapRom b (intOfLua start) (intOfLua len) (intOfLua ofs))
  | .mapXram name start len ofs readonly, m =>
      (m.getBuffer name).map fun b =>
        if intOfLua readonly ≠ 0 then
          ((), m.mapXramRo b (intOfLua start) (intOfLua len) (intOfLua ofs))
        else ((), m.mapXram b (intOfLua start) (intOfLua len) (intOfLua ofs))
  | .get, m => some (m.lua, m)
  | .set g, m => some ((), m.setLua g)
  | .error, _ => none

/-- `ramd_hook`, with `data` pointing at `ramsfr[addr]`: the hook's result is stored back there. -/
def ramdHook (script : Script σ) (bus : Bus σ) (write : Bool) (addr : Byte) (m : Machine σ) :
    Option (Machine σ) :=
  match script.ramdHooks m.lua addr with
  | none => some m
  | some hook =>
      ((hook write (luaOfByte (m.sfr addr))).run (luaExec bus) m).map fun y =>
        y.2.setSfr addr (byteOfLua y.1)

/-- `ramd_get`. -/
def ramdGet (script : Script σ) (bus : Bus σ) (addr : Byte) (m : Machine σ) :
    Option (Byte × Machine σ) :=
  if addr = SCON then some (m.sfr SCON, m)
  else if addr = SBUF then some (m.sfr SBUF, m)
  else (ramdHook script bus false addr m).map fun m' => (m'.sfr addr, m')

/-- The exclusive-or of the bits of a byte, computed as `default_ramd_get` does. -/
def parity (acc : Byte) : Byte :=
  let tmp := (acc >>> 4) ^^^ (acc &&& 0xf)
  let tmp := (tmp >>> 2) ^^^ (tmp &&& 0x3)
  (tmp >>> 1) ^^^ (tmp &&& 0x1)

/-- `PSW` with its parity flag brought up to date. -/
def pswWithParity (psw acc : Byte) : Byte :=
  let psw := psw &&& ~~~PSW_P
  if parity acc &&& 1 ≠ 0 then psw ||| PSW_P else psw

/-- Reading `PSW`: update the parity flag and the register window. -/
def refreshPsw (m : Machine σ) : Machine σ :=
  let m := m.setSfr PSW (pswWithParity (m.sfr PSW) (m.sfr ACC))
  m.setReg (regBase (m.sfr PSW))

/-- `default_ramd_get`. -/
def defaultRamdGet (script : Script σ) (bus : Bus σ) (addr : Byte) (m : Machine σ) :
    Option (Byte × Machine σ) :=
  ramdGet script bus addr (if addr = PSW then refreshPsw m else m)

/-- `readd`, over the accessors `bus` for hooks. -/
def readdVia (script : Script σ) (bus : Bus σ) (addr : Byte) (m : Machine σ) :
    Option (Byte × Machine σ) :=
  if m.ramsfrtrap addr then defaultRamdGet script bus addr m else some (m.sfr addr, m)

/-- The part of `default_ramd_put` after `ramd_put`: move the register window, recompute the
interrupts that watch the register. -/
def afterRamdPut (addr : Byte) (m : Machine σ) : Machine σ :=
  (if addr = PSW then m.setReg (regBase (m.sfr PSW)) else m).sfrNotify addr

/-- `writed` on `SCON`. This is the write inside `ramd_put`'s `SBUF` case; it involves no hook
(`writedVia_scon`). -/
def pokeScon (v : Byte) (m : Machine σ) : Machine σ :=
  if m.ramsfrtrap SCON then afterRamdPut SCON (m.setSfr SCON v) else m.setSfr SCON v

/-- `ramd_put`. -/
def ramdPut (script : Script σ) (bus : Bus σ) (addr val : Byte) (m : Machine σ) :
    Option (Machine σ) :=
  if addr = DPS then
    let m := m.setSfr DPS (val &&& 1)
    if val &&& 1 ≠ 0 then some (m.mapDptr ⟨DPL1, isDpl1⟩ ⟨DPH1, isDph1⟩)
    else some (m.mapDptr ⟨DPL0, isDpl0⟩ ⟨DPH0, isDph0⟩)
  else if addr = SCON then some (m.setSfr SCON val)
  else if addr = SBUF then
    let m := (m.transmit val).setSfr SBUF val
    some (pokeScon (m.sfr SCON ||| SCON_TI) m)
  else ramdHook script bus true addr (m.setSfr addr val)

/-- `default_ramd_put`. -/
def defaultRamdPut (script : Script σ) (bus : Bus σ) (addr val : Byte) (m : Machine σ) :
    Option (Machine σ) :=
  (ramdPut script bus addr val m).map (afterRamdPut addr)

/-- `writed`, over the accessors `bus` for hooks. -/
def writedVia (script : Script σ) (bus : Bus σ) (addr val : Byte) (m : Machine σ) :
    Option (Machine σ) :=
  if m.ramsfrtrap addr then defaultRamdPut script bus addr val m else some (m.setSfr addr val)

/-- The accessors available to a hook when `n` more levels of nesting are left. -/
def busAt (script : Script σ) : ℕ → Bus σ
  | 0 => { get := fun _ _ => none, put := fun _ _ _ => none }
  | n + 1 =>
      { get := readdVia script (busAt script n), put := writedVia script (busAt script n) }

/-- `readd`. -/
def readd (script : Script σ) (addr : Byte) (m : Machine σ) : Option (Byte × Machine σ) :=
  readdVia script (busAt script script.ccalls) addr m

/-- `writed`. -/
def writed (script : Script σ) (addr val : Byte) (m : Machine σ) : Option (Machine σ) :=
  writedVia script (busAt script script.ccalls) addr val m

/-- Lua code run outside any hook, such as the chip script itself. -/
def runLua {α : Type} (script : Script σ) (p : LuaProg σ α) (m : Machine σ) :
    Option (α × Machine σ) :=
  p.run (luaExec (busAt script (script.ccalls + 1))) m

variable {script : Script σ} {bus : Bus σ} {m : Machine σ}

/-- The write to `SCON` inside a write to `SBUF` is an ordinary `writed`. -/
theorem writedVia_scon (v : Byte) : writedVia script bus SCON v m = some (pokeScon v m) := by
  unfold writedVia pokeScon
  split_ifs
  · simp [defaultRamdPut, ramdPut]
  · rfl

/-- A register that is not trapped is read from its cell, and nothing changes. -/
lemma readdVia_of_untrapped {a : Byte} (h : m.ramsfrtrap a = false) :
    readdVia script bus a m = some (m.sfr a, m) := by
  simp [readdVia, h]

/-- A register that is not trapped is written to its cell, and nothing else changes. -/
lemma writedVia_of_untrapped {a v : Byte} (h : m.ramsfrtrap a = false) :
    writedVia script bus a v m = some (m.setSfr a v) := by
  simp [writedVia, h]

/-- This is so for the reads of instructions. -/
lemma readd_of_untrapped {a : Byte} (h : m.ramsfrtrap a = false) :
    readd script a m = some (m.sfr a, m) := readdVia_of_untrapped h

/-- And it is so for their writes. -/
lemma writed_of_untrapped {a v : Byte} (h : m.ramsfrtrap a = false) :
    writed script a v m = some (m.setSfr a v) := writedVia_of_untrapped h

/-- A trapped read of a register that has a hook. -/
lemma readd_of_hook {a : Byte} {hook : Hook σ} (ha : m.ramsfrtrap a = true) (h₁ : a ≠ SCON)
    (h₂ : a ≠ SBUF) (h₃ : a ≠ PSW) (h : script.ramdHooks m.lua a = some hook) :
    readd script a m = ((hook false (luaOfByte (m.sfr a))).run
      (luaExec (busAt script script.ccalls)) m).map fun y =>
        (byteOfLua y.1, y.2.setSfr a (byteOfLua y.1)) := by
  unfold readd readdVia defaultRamdGet ramdGet ramdHook
  rw [if_pos ha, if_neg h₃, if_neg h₁, if_neg h₂, h, Option.map_map]
  refine congrArg (Option.map · _) (funext fun y => ?_)
  change ((y.2.setSfr a (byteOfLua y.1)).sfr a, y.2.setSfr a (byteOfLua y.1)) = _
  rw [sfr_setSfr_self]

/-- A trapped write to a register that has a hook. -/
lemma writed_of_hook {a v : Byte} {hook : Hook σ} (ha : m.ramsfrtrap a = true) (h₀ : a ≠ DPS)
    (h₁ : a ≠ SCON) (h₂ : a ≠ SBUF) (h₃ : a ≠ PSW)
    (h : script.ramdHooks m.lua a = some hook) :
    writed script a v m = ((hook true (luaOfByte v)).run
      (luaExec (busAt script script.ccalls)) (m.setSfr a v)).map fun y =>
        (y.2.setSfr a (byteOfLua y.1)).sfrNotify a := by
  have hstored : (m.setSfr a v).sfr a = v := m.sfr_setSfr_self a v
  unfold writed writedVia defaultRamdPut ramdPut ramdHook
  rw [if_pos ha, if_neg h₀, if_neg h₁, if_neg h₂, setCell_lua, h, hstored, Option.map_map]
  refine congrArg (Option.map · _) (funext fun y => ?_)
  change afterRamdPut a (y.2.setSfr a (byteOfLua y.1)) = _
  rw [afterRamdPut, if_neg h₃]

/-! ## Initialisation -/

/-- `SFRNOTRAP`. -/
def sfrNoTrap (trap : Byte → Bool) (addr : Byte) : Byte → Bool := Function.update trap addr false

/-- The two `memset` calls on `ramsfrtrap`: all ones, then zeros in the lower half. -/
def memsetTrap : Byte → Bool := fun addr => decide (0x80 ≤ addr)

/-- The trap table `sfr_init` sets up. -/
def sfrInitTrap : Byte → Bool := [SP, DPL0, DPH0, PSW, ACC, B].foldl sfrNoTrap memsetTrap

/-- The trap table `init_8051` sets up, which nothing calls. -/
def init8051Trap : Byte → Bool := [SP, DPL0, DPH0, ACC, B].foldl sfrNoTrap memsetTrap

/-- `sfr_init`. -/
def sfrInit (script : Script σ) (m : Machine σ) : Option (Machine σ) :=
  writed script SP 0x07 { m with ramsfrtrap := sfrInitTrap }

/-- The lower half of the direct addresses, internal memory, is not trapped. -/
lemma sfrInitTrap_of_lt {a : Byte} (h : a < 0x80) : sfrInitTrap a = false := by
  revert a
  decide

/-- The two trap tables differ at `PSW` only, which `init_8051` leaves trapped. -/
lemma init8051Trap_eq : init8051Trap = Function.update sfrInitTrap PSW true := by
  funext a
  revert a
  decide

end Machine

end Emu51

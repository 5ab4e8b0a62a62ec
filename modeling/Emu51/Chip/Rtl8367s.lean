import Emu51.Chip.Common

/-!
# `rtl8367s.lua`

The registers behind `indacc` are 16 bits wide. The initial contents of `soc_regs`, a table of 8192
values, are a parameter.
-/

namespace Emu51

namespace Chip

open Lua

namespace Rtl8367s

/-- The globals of the data registers. -/
structure Indacc where
  wdataH : LuaInt
  wdataL : LuaInt
  rdataH : LuaInt
  rdataL : LuaInt

/-- The globals of this script. -/
abbrev G := Globals Indacc

/-- Set a data register. -/
def setIndacc (f : LuaInt → Indacc → Indacc) (v : LuaInt) (g : G) : G :=
  { g with indacc := f v g.indacc }

abbrev sfrIndaccWdataH : Hook G := latch (setIndacc fun v r => { r with wdataH := v })
    (·.indacc.wdataH)

abbrev sfrIndaccWdataL : Hook G := latch (setIndacc fun v r => { r with wdataL := v })
    (·.indacc.wdataL)

abbrev sfrIndaccRdataH : Hook G := latch (setIndacc fun v r => { r with rdataH := v })
    (·.indacc.rdataH)

abbrev sfrIndaccRdataL : Hook G := latch (setIndacc fun v r => { r with rdataL := v })
    (·.indacc.rdataL)

/-- `phyocp_read`. -/
def phyocpRead (_ : LuaInt) : LuaInt := 0xdead

/-- `socreg_read`. -/
def socregRead (addr : LuaInt) : LuaProg G LuaInt := do
  let g ← getGlobals
  if (0x2000 : LuaInt).sle addr && addr.slt 0x3000 then
    match g.socRegs 0x1d15 with
    | none => error
    | some r =>
        let addr15_10 := (r &&& 0x3f) <<< 9
        let addr5_1 := addr &&& 0x1f
        let addr9_6 := (addr &&& 0xf00) >>> 3
        let addr := addr5_1 ||| addr9_6 ||| addr15_10
        pure (phyocpRead (addr <<< 1))
  else do
    let data := (g.socRegs addr).getD 0xdead
    -- this register is cleared by reading it
    when (addr = 0x1a04) (setGlobals { g with socRegs := Function.update g.socRegs addr (some 0) })
    pure data

/-- `socreg_write`. -/
def socregWrite (addr data : LuaInt) : LuaProg G Unit :=
  modify fun g => { g with socRegs := Function.update g.socRegs addr (some data) }

def sfrIndaccCmd : Hook G := fun write data => do
  when write do
    let g ← getGlobals
    let addr := g.indaccAddrH * 0x100 + g.indaccAddrL
    when (data = 1) do
      let v ← socregRead addr
      modify fun g => { g with indacc := { g.indacc with rdataH := v >>> 8, rdataL := v &&& 0xff } }
    when (data = 3) do
      let g ← getGlobals
      let v := g.indacc.wdataH * 0x100 + g.indacc.wdataL
      socregWrite addr v
  pure 0

/-- The table `ramd_hooks`. -/
def ramdHooks : List (Byte × Hook G) := [
  (0x80, sfrCacheCtrl),
  (0x88, sfrTcon),
  (0x89, sfrTmod),
  (0x8a, sfrTl0),
  (0x8b, sfrTl1),
  (0x8c, sfrTh0),
  (0x8d, sfrTh1),
  (0x96, sfrCodeBank),
  (0x97, sfrDataBank),
  (0xa0, sfrIndaccCmd),
  (0xa1, sfrIndaccStatus),
  (0xa2, sfrIndaccAddrH),
  (0xa3, sfrIndaccAddrL),
  (0xa4, sfrIndaccWdataH),
  (0xa5, sfrIndaccWdataL),
  (0xa6, sfrIndaccRdataH),
  (0xa7, sfrIndaccRdataL),
  (0xa8, sfrIe),
  (0xa9, sfrSpisAddr0),
  (0xaa, sfrSpisAddr1),
  (0xab, sfrSpisAddr2),
  (0xac, sfrSpisData0),
  (0xad, sfrSpisData1),
  (0xae, sfrSpisData2),
  (0xaf, sfrSpisData3),
  (0xb1, sfrSpisRcmd),
  (0xb7, sfrPedmaLen),
  (0xb9, sfrSspl),
  (0xba, sfrSsph),
  (0xbb, sfrSsio),
  (0xc8, sfrT2con),
  (0xca, sfrRcap2l),
  (0xcb, sfrRcap2h)]

/-- The script, where `socRegs` is the table `soc_regs` to begin with. -/
def script (socRegs : LuaInt → Option LuaInt) : Script G where
  ramdHooks := fun _ addr => ramdHooks.lookup addr
  globals := initGlobals ⟨0, 0, 0, 0⟩ socRegs
  chunk := mapMemory
  ccalls := maxCcalls

end Rtl8367s

end Chip

end Emu51

import Emu51.Chip.Common

/-!
# `rtl8372.lua`

The registers behind `indacc` are 32 bits wide, and there is a hook for `PCON`.
-/

namespace Emu51

namespace Chip

open Lua

namespace Rtl8372

/-- The globals of the data registers. -/
structure Indacc where
  data24 : LuaInt
  data16 : LuaInt
  data8 : LuaInt
  data0 : LuaInt

/-- The globals of this script. -/
abbrev G := Globals Indacc

/-- Set a data register. -/
def setIndacc (f : LuaInt → Indacc → Indacc) (v : LuaInt) (g : G) : G :=
  { g with indacc := f v g.indacc }

abbrev sfrIndaccData24 : Hook G := latch (setIndacc fun v r => { r with data24 := v })
    (·.indacc.data24)

abbrev sfrIndaccData16 : Hook G := latch (setIndacc fun v r => { r with data16 := v })
    (·.indacc.data16)

abbrev sfrIndaccData8 : Hook G := latch (setIndacc fun v r => { r with data8 := v })
    (·.indacc.data8)

abbrev sfrIndaccData0 : Hook G := latch (setIndacc fun v r => { r with data0 := v })
    (·.indacc.data0)

/-- `soc_regs` to begin with. -/
def socRegs : List (LuaInt × LuaInt) := [
  (0x0004, 0x83720000),
  (0x0008, 0x00008000),
  (0x000c, 0x00200000),
  (0x0010, 0xb0010d07),
  (0x0014, 0x47305054),
  (0x0018, 0x00004734),
  (0x001c, 0xcad0001c)]

/-- `socreg_read`. -/
def socregRead (addr : LuaInt) : LuaProg G LuaInt := do
  let g ← getGlobals
  pure ((g.socRegs addr).getD 0xdeadbeef)

/-- What `socreg_write` stores: some bits clear themselves. -/
def selfClearing (addr data : LuaInt) : LuaInt :=
  let data := if addr = 0x0024 then 0 else data
  let data := if addr = 0x5cac then data &&& ~~~3 else data
  let data := if addr = 0x53d4 then 0 else data
  if addr = 0x0f60 then data &&& ~~~1 else data

/-- `socreg_write`. -/
def socregWrite (addr data : LuaInt) : LuaProg G Unit :=
  modify fun g =>
    { g with socRegs := Function.update g.socRegs addr (some (selfClearing addr data)) }

def sfrIndaccCmd : Hook G := fun write data => do
  when write do
    let g ← getGlobals
    let addr := g.indaccAddrH * 0x100 + g.indaccAddrL
    when (data = 1) do
      let v ← socregRead addr
      modify fun g =>
        { g with
          indacc := ⟨v >>> 24, (v >>> 16) &&& 0xff, (v >>> 8) &&& 0xff, v &&& 0xff⟩ }
    when (data = 3) do
      let g ← getGlobals
      let v := g.indacc.data24 * 0x1000000 + g.indacc.data16 * 0x10000 + g.indacc.data8 * 0x100 +
        g.indacc.data0
      socregWrite addr v
  pure 0

def sfrPcon : Hook G := fun write data => do
  when (write && truth (data &&& 1)) do
    let t2con ← peekSfr 0xc8
    pokeSfr 0xc8 (t2con ||| 0x80)
  let scon ← peekSfr 0x98
  pokeSfr 0x98 scon
  pure data

/-- The table `ramd_hooks`. -/
def ramdHooks : List (Byte × Hook G) := [
  (0x80, sfrCacheCtrl),
  (0x87, sfrPcon),
  (0x88, sfrTcon),
  (0x89, sfrTmod),
  (0x8a, sfrTl0),
  (0x8b, sfrTl1),
  (0x8c, sfrTh0),
  (0x8d, sfrTh1),
  (0x96, sfrCodeBank),
  (0x97, sfrDataBank),
  (0xa0, sfrIndaccCmd),
  (0xa1, sfrIndaccStatus),
  (0xa2, sfrIndaccAddrH),
  (0xa3, sfrIndaccAddrL),
  (0xa4, sfrIndaccData24),
  (0xa5, sfrIndaccData16),
  (0xa6, sfrIndaccData8),
  (0xa7, sfrIndaccData0),
  (0xa8, sfrIe),
  (0xa9, sfrSpisAddr0),
  (0xaa, sfrSpisAddr1),
  (0xab, sfrSpisAddr2),
  (0xac, sfrSpisData0),
  (0xad, sfrSpisData1),
  (0xae, sfrSpisData2),
  (0xaf, sfrSpisData3),
  (0xb1, sfrSpisRcmd),
  (0xb7, sfrPedmaLen),
  (0xb9, sfrSspl),
  (0xba, sfrSsph),
  (0xbb, sfrSsio),
  (0xc8, sfrT2con),
  (0xca, sfrRcap2l),
  (0xcb, sfrRcap2h)]

/-- The script. -/
def script : Script G where
  ramdHooks := fun _ addr => ramdHooks.lookup addr
  globals := initGlobals ⟨0, 0, 0, 0⟩ fun addr => socRegs.lookup addr
  chunk := mapMemory
  ccalls := maxCcalls

end Rtl8372

end Chip

end Emu51

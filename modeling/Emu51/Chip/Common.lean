import Emu51.Machine.Lua

/-!
# What the two chip scripts share

`rtl8367s.lua` and `rtl8372.lua` have most of their hooks in common, word for word. They differ in
the registers behind `indacc`, whose globals are the parameter `ρ` here. Hooks that print something
are modelled without it, and so are the names they return.
-/

namespace Emu51

/-! ## Lua -/

namespace Lua

variable {σ : Type}

/-- A number as a condition. Only `nil` and `false` count as false in Lua. -/
def truth (_ : LuaInt) : Bool := true

/-- `x // y`. -/
def idiv (x y : LuaInt) : LuaInt := BitVec.ofInt 64 (x.toInt.fdiv y.toInt)

/-- `x % y`. -/
def mod (x y : LuaInt) : LuaInt := BitVec.ofInt 64 (x.toInt.fmod y.toInt)

/-- `l[i]` for a table with the entries `l[1]`, `l[2]`, ... -/
def index (l : List LuaInt) (i : LuaInt) : Option LuaInt :=
  if i.toInt ≤ 0 then none else l[i.toInt.toNat - 1]?

/-- `if c then p end`. -/
def when (c : Bool) (p : LuaProg σ Unit) : LuaProg σ Unit := if c then p else pure ()

/-- Change the globals. -/
def modify (f : σ → σ) : LuaProg σ Unit := do
  let g ← getGlobals
  setGlobals (f g)

/-- `n` rounds of a loop that starts at `i`. -/
def loop (body : LuaInt → LuaProg σ Unit) (i : LuaInt) : ℕ → LuaProg σ Unit
  | 0 => pure ()
  | n + 1 => do
      body i
      loop body (i + 1) n

end Lua

namespace Chip

open Lua

/-! ## Globals -/

/-- The globals of a chip script. -/
structure Globals (ρ : Type) where
  t0Cnt : LuaInt
  indaccAddrH : LuaInt
  indaccAddrL : LuaInt
  indacc : ρ
  spisAddr0 : LuaInt
  spisAddr1 : LuaInt
  spisAddr2 : LuaInt
  spisData0 : LuaInt
  spisData1 : LuaInt
  spisData2 : LuaInt
  spisData3 : LuaInt
  spisRcmd : LuaInt
  /-- The table `soc_regs`. -/
  socRegs : LuaInt → Option LuaInt
  ssp : LuaInt
  rxSeq : LuaInt

variable {ρ : Type}

/-- The values the globals start with. -/
def initGlobals (indacc : ρ) (socRegs : LuaInt → Option LuaInt) : Globals ρ where
  t0Cnt := 0
  indaccAddrH := 0
  indaccAddrL := 0
  indacc := indacc
  spisAddr0 := 0
  spisAddr1 := 0
  spisAddr2 := 0
  spisData0 := 0
  spisData1 := 0
  spisData2 := 0
  spisData3 := 0
  spisRcmd := 0
  socRegs := socRegs
  ssp := 0
  rxSeq := 0

/-! ## Registers without a function -/

/-- A hook that returns `data`. -/
def plain : Hook (Globals ρ) := fun _ data => pure data

abbrev sfrTcon : Hook (Globals ρ) := plain

abbrev sfrTmod : Hook (Globals ρ) := plain

abbrev sfrTl1 : Hook (Globals ρ) := plain

abbrev sfrTh1 : Hook (Globals ρ) := plain

abbrev sfrIe : Hook (Globals ρ) := plain

abbrev sfrT2con : Hook (Globals ρ) := plain

abbrev sfrRcap2l : Hook (Globals ρ) := plain

abbrev sfrRcap2h : Hook (Globals ρ) := plain

/-! ## Timer 0 -/

def sfrTl0 : Hook (Globals ρ) := fun write data =>
  if write then pure data
  else do
    let g ← getGlobals
    setGlobals { g with t0Cnt := g.t0Cnt + 1 }
    pure (g.t0Cnt &&& 0xff)

def sfrTh0 : Hook (Globals ρ) := fun write data =>
  if write then pure data
  else do
    let g ← getGlobals
    pure (g.t0Cnt >>> 8)

/-! ## Registers that set a global -/

/-- A hook that sets a global when it is written and returns the global. -/
def latch (set : LuaInt → Globals ρ → Globals ρ) (get : Globals ρ → LuaInt) : Hook (Globals ρ) :=
  fun write data => do
    when write (modify (set data))
    let g ← getGlobals
    pure (get g)

/-- A hook that sets a global when it is written and returns `data`. -/
def latchOnly (set : LuaInt → Globals ρ → Globals ρ) : Hook (Globals ρ) := fun write data => do
  when write (modify (set data))
  pure data

def sfrIndaccStatus : Hook (Globals ρ) := fun _ _ => pure 0

abbrev sfrIndaccAddrH : Hook (Globals ρ) :=
  latch (fun v g => { g with indaccAddrH := v }) (·.indaccAddrH)

abbrev sfrIndaccAddrL : Hook (Globals ρ) :=
  latch (fun v g => { g with indaccAddrL := v }) (·.indaccAddrL)

abbrev sfrSpisAddr0 : Hook (Globals ρ) := latchOnly fun v g => { g with spisAddr0 := v }

abbrev sfrSpisAddr1 : Hook (Globals ρ) := latchOnly fun v g => { g with spisAddr1 := v }

abbrev sfrSpisAddr2 : Hook (Globals ρ) := latchOnly fun v g => { g with spisAddr2 := v }

abbrev sfrSpisData0 : Hook (Globals ρ) := latch (fun v g => { g with spisData0 := v }) (·.spisData0)

abbrev sfrSpisData1 : Hook (Globals ρ) := latch (fun v g => { g with spisData1 := v }) (·.spisData1)

abbrev sfrSpisData2 : Hook (Globals ρ) := latch (fun v g => { g with spisData2 := v }) (·.spisData2)

abbrev sfrSpisData3 : Hook (Globals ρ) := latch (fun v g => { g with spisData3 := v }) (·.spisData3)

abbrev sfrSpisRcmd : Hook (Globals ρ) := latch (fun v g => { g with spisRcmd := v }) (·.spisRcmd)

/-! ## The flash -/

/-- `unpadr`: where the byte at a flash address is in the unpacked image. -/
def unpackedAddr (adr : LuaInt) : LuaInt :=
  if (0x4000 : LuaInt).slt adr then
    let bank := idiv (adr - 0x4000) 0xc000 + 1
    let ofs := mod (adr - 0x4000) 0xc000 + 0x4000
    (bank <<< 16) ||| ofs
  else adr

/-- Read four bytes of the unpacked image. -/
def readFlash (unpadr : LuaInt) : LuaProg (Globals ρ) Unit := do
  let d0 ← peekRom (unpadr + 0)
  modify fun g => { g with spisData0 := d0 }
  let d1 ← peekRom (unpadr + 1)
  modify fun g => { g with spisData1 := d1 }
  let d2 ← peekRom (unpadr + 2)
  modify fun g => { g with spisData2 := d2 }
  let d3 ← peekRom (unpadr + 3)
  modify fun g => { g with spisData3 := d3 }

/-- The command in `spis_rcmd`. -/
def spiCommand : LuaProg (Globals ρ) Unit := do
  let g ← getGlobals
  let adr := (g.spisAddr2 <<< 16) ||| (g.spisAddr1 <<< 8) ||| g.spisAddr0
  if g.spisRcmd = 5 then setGlobals { g with spisData0 := 0 }
  else when (g.spisRcmd = 0xbb) (readFlash (unpackedAddr adr))

def sfrCacheCtrl : Hook (Globals ρ) := fun write data => do
  when (write && truth (data &&& 4)) spiCommand
  pure 0

/-! ## Banks -/

def sfrCodeBank : Hook (Globals ρ) := fun write data => do
  when write do
    let ofs := 0x40 + data * 0x100
    pokePcx data
    mapRom "rom" 0x40 0xc0 ofs
  pure data

def sfrDataBank : Hook (Globals ρ) := fun write data => do
  when write (if data = 0 then mapXram "sram" 0x00 0xc0 0 0
    else mapXram "rom" 0x40 0xc0 (0x40 + data * 0x100) 1)
  pure data

/-! ## The second stack -/

def sfrSspl : Hook (Globals ρ) := fun write data => do
  let g ← getGlobals
  if write then do
    let ssph := g.ssp >>> 8
    setGlobals { g with ssp := ssph * 0x100 + data }
    pure data
  else pure (g.ssp &&& 0xff)

def sfrSsph : Hook (Globals ρ) := fun write data => do
  let g ← getGlobals
  if write then do
    let sspl := g.ssp &&& 0xff
    setGlobals { g with ssp := data * 0x100 + sspl }
    pure data
  else pure (g.ssp >>> 8)

def sfrSsio : Hook (Globals ρ) := fun write data => do
  let g ← getGlobals
  if write then do
    setGlobals { g with ssp := g.ssp - 1 }
    pokeXram (g.ssp - 1) data
    pure data
  else do
    let data ← peekXram g.ssp
    setGlobals { g with ssp := g.ssp + 1 }
    pure data

/-! ## Packets -/

/-- `arp_packet`. -/
def arpPacket : List LuaInt := [
  0xff, 0xff, 0xff, 0xff, 0xff, 0xff,
  0xc8, 0x2b, 0x96, 0x06, 0x59, 0xa7,
  0x08, 0x06,
  0x00, 0x01,
  0x08, 0x00,
  0x06, 0x04,
  0x00, 0x01,
  0xc8, 0x2b, 0x96, 0x06, 0x59, 0xa7,
  0xc0, 0xa8, 0x08, 0x8b,
  0x00, 0x00, 0x00, 0x00, 0x00, 0x00,
  0xc0, 0xa8, 0x00, 0x01,
  0, 0, 0, 0, 0, 0, 0, 0,
  0, 0, 0, 0, 0, 0, 0, 0,
  0, 0]

/-- `pkt`: a header and the packet. -/
def pkt (rxSeq : LuaInt) : List LuaInt :=
  [rxSeq, 0, 0x10, 0, 0, 0, 0, BitVec.ofNat 64 arpPacket.length] ++ arpPacket

/-- A transfer of `len` bytes: written data is only printed, read data is the packet. -/
def transfer (rxSeq eaddr paddr len : LuaInt) : LuaProg (Globals ρ) Unit :=
  if (0x8000 : LuaInt).sle paddr then
    loop (fun i => do
      let _ ← peekXram (eaddr + i - 1)
      pure ()) 1 len.toInt.toNat
  else
    loop (fun i => pokeXram (eaddr + i - 1) ((index (pkt rxSeq) (i + paddr)).getD 0xff)) 1
      len.toInt.toNat

def sfrPedmaLen : Hook (Globals ρ) := fun write data => do
  when write do
    let eaddrL ← peekSfr 0xb3
    let eaddrH ← peekSfr 0xb4
    let eaddr := eaddrL + (eaddrH <<< 8)
    let paddrL ← peekSfr 0xb5
    let paddrH ← peekSfr 0xb6
    let paddr := paddrL + (paddrH <<< 8)
    let g ← getGlobals
    transfer g.rxSeq eaddr paddr (data * 8)
  pure 0

/-! ## Loading -/

/-- The calls at the end of both scripts. -/
def mapMemory : LuaProg (Globals ρ) Unit := do
  makeRam "sram" 0xc000
  mapRom "rom" 0x00 0x40 0
  mapXram "sram" 0x00 0xc0 0 0

/-- Lua's limit on nested C calls. -/
def maxCcalls : ℕ := 200

end Chip

end Emu51

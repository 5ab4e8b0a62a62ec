import Emu51.Chip.KeptGlobals

/-!
# The flash address in the globals

What an SPI flash read depends on is in four globals: the three bytes of the flash address, and the
command. Only the hooks of their own registers set them. The hook of `CACHE_CTRL` reads all four and
sets none of them, whatever it finds there. So the globals hold what was written to these registers
last, and this is a contract of all hooks: the calls depend on what is found in the globals.
-/

namespace Emu51

open Chip Lua

/-- The globals hold the flash address and the command that `r` gives for their registers. -/
@[simp] def SpiAt {ρ : Type} (r : Byte → Byte) (g : Globals ρ) : Prop :=
  g.spisAddr2 = luaOfByte (r SPI_S_ADDR2) ∧ g.spisAddr1 = luaOfByte (r SPI_S_ADDR1) ∧
    g.spisAddr0 = luaOfByte (r SPI_S_ADDR0) ∧ g.spisRcmd = luaOfByte (r SPI_S_RCMD)

/-- The registers of these globals. -/
def spiRegs : List Byte := [SPI_S_ADDR0, SPI_S_ADDR1, SPI_S_ADDR2, SPI_S_RCMD]

/-- What a write to one of these registers does to the globals. -/
def spiSet {ρ : Type} (g : Globals ρ) (e : Byte × Byte) : Globals ρ :=
  if e.1 = SPI_S_ADDR2 then { g with spisAddr2 := luaOfByte e.2 }
  else if e.1 = SPI_S_ADDR1 then { g with spisAddr1 := luaOfByte e.2 }
  else if e.1 = SPI_S_ADDR0 then { g with spisAddr0 := luaOfByte e.2 }
  else { g with spisRcmd := luaOfByte e.2 }

variable {ρ : Type} {r : Byte → Byte} {g : Globals ρ} {a v : Byte}

/-- `adr` as `sfr_cache_ctrl` puts it together from the three globals is the number whose bytes are
in the three registers. -/
lemma SpiAt.addr_eq (h : SpiAt r g) :
    (g.spisAddr2 <<< 16) ||| (g.spisAddr1 <<< 8) ||| g.spisAddr0 =
    (r SPI_S_ADDR2 ++ r SPI_S_ADDR1 ++ r SPI_S_ADDR0).setWidth 64 := by
  obtain ⟨h2, h1, h0, -⟩ := h
  rw [h2, h1, h0]
  apply BitVec.eq_of_getLsbD_eq
  intro i hi
  simp only [luaOfByte, BitVec.getLsbD_or, BitVec.getLsbD_shiftLeft, BitVec.getLsbD_setWidth,
    BitVec.getLsbD_append]
  grind

/-- A write to one of these registers puts the byte in its place. -/
lemma SpiAt.spiSet (h : SpiAt r g) (ha : a ∈ spiRegs) :
    SpiAt (Function.update r a v) (spiSet g (a, v)) := by
  obtain ⟨h2, h1, h0, hrcmd⟩ := h
  simp only [spiRegs, List.mem_cons, List.not_mem_nil, or_false] at ha
  rcases ha with rfl | rfl | rfl | rfl
  · exact ⟨h2, h1, rfl, hrcmd⟩
  · exact ⟨h2, rfl, h0, hrcmd⟩
  · exact ⟨rfl, h1, h0, hrcmd⟩
  · exact ⟨h2, h1, h0, rfl⟩

/-- What is written to another register does not matter. -/
lemma SpiAt.update (h : SpiAt r g) (ha : a ∉ spiRegs) : SpiAt (Function.update r a v) g := by
  simp only [spiRegs, List.mem_cons, List.not_mem_nil, or_false, not_or] at ha
  obtain ⟨h0, h1, h2, hrcmd⟩ := ha
  rw [SpiAt, Function.update_of_ne (Ne.symm h2), Function.update_of_ne (Ne.symm h1),
    Function.update_of_ne (Ne.symm h0), Function.update_of_ne (Ne.symm hrcmd)]
  exact h

namespace Chip

end Chip

end Emu51

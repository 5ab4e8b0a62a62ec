import Mathlib.Data.List.Basic
import Emu51.Flash.RomAccess
import Emu51.Flash.SpiData

/-!
# The bounds of the image

In every run the image is read at the places `romPlaces` gives, each from the registers as they were
written before the operation. So nothing is read behind its end exactly if these places are inside;
`map_rom`, `map_xram_ro` and `peek_rom` would go along with any others.
-/

namespace Emu51

open Chip Lua

/-- The call does not read the flash. -/
abbrev LuaOp.OffFlash {ρ : Type} (o : LuaOp (Globals ρ)) : Prop :=
  o.Leaves (fun _ => True) fun _ => False

namespace Machine

variable {chip : Chip} {file : List Byte} {rom : Buffer} {w : List (Byte × Byte)}
  {m m' m₀ : Machine (Globals chip.Indacc)} {q : Byte → Byte}

/-! ## The flash address and the command -/

/-- The banked pages have never been mapped. -/
def NoBank {σ : Type} (m : Machine σ) : Prop := ∀ p, (0x40 : Byte) ≤ p → m.rompage p = none

/-- That no bank has been mapped is known from what lies outside the CPU. -/
lemma noBank_isOuter {σ : Type} : IsOuter (NoBank : Machine σ → Prop) := by
  intro m m' hsame h p hp
  rw [hsame.rompage]
  exact h p hp

/-- What goes on outside the CPU and the registers keeps it. -/
lemma RomHistory.of_sameOutside {ρ : Type} {m m' : Machine (Globals ρ)}
    (hm : RomHistory file rom w m)
    (hsame : SameOutside m m') (htrap : m'.ramsfrtrap = m.ramsfrtrap) (hlua : m'.lua = m.lua) :
    RomHistory file rom w m' where
  code := ⟨codeMem_isOuter _ _ hsame hm.code.mem, htrap.trans hm.code.ramsfrtrap⟩
  unbanked hnone := noBank_isOuter _ _ hsame (hm.unbanked hnone)
  data := ⟨dataMem_isOuter _ _ hsame hm.data.mem, htrap.trans hm.data.ramsfrtrap⟩
  spi := by
    rw [hlua]
    exact hm.spi

/-- An interrupt leaves everything the accesses depend on. -/
lemma RomHistory.pollIrq (hm : RomHistory file rom w m) : RomHistory file rom w m.pollIrq := by
  refine hm.of_sameOutside m.sameOutside_pollIrq (pollIrq_setup m).ramsfrtrap ?_
  obtain ⟨l, hl | ⟨x, y, z, hl⟩⟩ := m.pollIrq_eq
  · rw [hl]
    rfl
  · rw [hl]
    rfl

/-- A received byte leaves everything the accesses depend on. -/
lemma RomHistory.uartListener (hm : RomHistory file rom w m) (d : Byte) :
    RomHistory file rom w (m.uartListener d).2 := by
  refine hm.of_sameOutside (m.sameOutside_uartListener d) (uartListener_setup d m).ramsfrtrap ?_
  unfold Machine.uartListener
  split_ifs
  · rfl
  · rfl

/-! ## One access -/

/-- The index a step uses is the place it has by the writes before. -/
def Placed (w : List (Byte × Byte)) {σ : Type} (o : Access σ) (m : Machine σ) : Prop :=
  o.romIndex m = (o.romPlace w m).map Int.ofNat

/-- What a register access demands of its calls if it writes neither `CACHE_CTRL` nor
`DATA_BANK`. -/
abbrev KeepsPlaces {ρ : Type} (o : LuaOp (Globals ρ)) : Prop := o.OffFlash ∧ o.OffXramMap

/-- Such an access finds and leaves external data memory mapped as the history says, so that its
reads are placed. -/
lemma DataMem.along {α : Type} {p : Accesses (Globals chip.Indacc) α}
    (hm : DataMem rom (written DATA_BANK w) m)
    (hp : p.Meets (LuaOp.Finds fun _ => True) KeepsPlaces) :
    p.Along (accessExec chip.script) (Placed w) m := by
  refine hp.along (I := DataMem rom (written DATA_BANK w)) (accessExec_contract
    (fun _ _ hsame _ hm => dataMem_isOuter _ _ hsame hm) fun o m y ho hm he => ?_)
    (fun o m ho hm => ?_) hm
  · have hoff : o.OffSfr := by
      cases o with
      | peekSfr addr => exact absurd he (Option.some_ne_none y).symm
      | pokeSfr addr v => exact absurd he (Option.some_ne_none y).symm
      | _ => trivial
    exact ⟨(luaExec_leaves ho.1 trivial he).1, hm.luaExec ho.2 hoff he⟩
  · cases o with
    | cpu o => exact absurd ho id
    | lua o =>
      cases o with
      | peekXram a => exact hm.xramIndex _
      | peekRom a => exact absurd ho.1 id
      | _ => rfl
    | _ => rfl

section Flash

variable {ρ : Type} {script : Script (Globals ρ)} {bus : AccessBus (Globals ρ)}
  {m : Machine (Globals ρ)}

end Flash

end Machine

end Emu51

import Emu51.Chip.FlashAddress
import Emu51.Flash.Banking

/-!
# Reading the flash through the SPI registers

`sfr_cache_ctrl` translates a flash address to a place in the unpacked image and reads four bytes
there. The translation is right for addresses above `0x4000` as long as the four bytes are in one
bank; it does not know of the two bytes `unpackrtl.py` drops, nor of the padding between banks.
-/

namespace Emu51

open Chip Lua

/-! ## The translation -/

/-- `unpadr` as a number. -/
def unpackIndex (adr : ℕ) : ℕ :=
  if 0x4000 < adr then
    ((adr - 0x4000) / 0xc000 + 1) * 0x10000 + (0x4000 + (adr - 0x4000) % 0xc000)
  else adr

/-- Where the four bytes from `adr` on are read right: they are in one bank, or the bytes that are
read in their place happen to be the same. -/
def ReadsTrue (image : List Byte) (adr : ℕ) : Prop :=
  ∀ j < 4,
    (adr ≤ 0x4000 → image[adr + j]? = if adr + j < 0x3ffe then image[adr + j + 2]? else some 0) ∧
    (0x4000 < adr → 0xc000 ≤ (adr - 0x4000) % 0xc000 + j → image[adr + j]? = some 0)

variable {image : List Byte} {adr : ℕ}

/-- Where the four bytes are in one bank, the translated address reads the right ones. -/
theorem readsTrue_of_bank (hadr : 0x4000 < adr) (hbank : (adr - 0x4000) % 0xc000 + 3 < 0xc000) :
    ReadsTrue image adr := by
  intro j hj
  exact ⟨fun hle => absurd hadr (by omega), fun _ hout => absurd hout (by omega)⟩

/-- What is read in the place of one byte. -/
lemma getElem?_unpackIndex (hL : 0x4000 ≤ image.length) {j : ℕ} (hj : j < 4)
    (hlen : adr + j < image.length) : (unpack image)[unpackIndex adr + j]? =
      if adr ≤ 0x4000 then if adr + j < 0x3ffe then image[adr + j + 2]? else some 0
      else if (adr - 0x4000) % 0xc000 + j < 0xc000 then image[adr + j]? else some 0 := by
  by_cases hle : adr ≤ 0x4000
  · rw [if_pos hle, unpackIndex, if_neg (by omega)]
    split_ifs with hlow
    · exact getElem?_unpack_low hL hlow
    · exact getElem?_unpack_gap hL (by omega) (by omega)
  · rw [if_neg hle, unpackIndex, if_pos (by omega)]
    split_ifs with hin
    · have hdiv : (adr - 0x4000 + j) / 0xc000 = (adr - 0x4000) / 0xc000 := by omega
      have hmod : (adr - 0x4000 + j) % 0xc000 = (adr - 0x4000) % 0xc000 + j := by omega
      have hplace := @getElem?_unpack_bank image (adr - 0x4000 + j) (by omega)
      rw [hdiv, hmod, show 0x4000 + (adr - 0x4000 + j) = adr + j by omega] at hplace
      rw [← hplace, Nat.add_assoc, Nat.add_assoc]
    · have hpad := @getElem?_unpack_pad image ((adr - 0x4000) / 0xc000 + 1)
        ((adr - 0x4000) % 0xc000 + j - 0xc000) (by omega) (by omega)
      rw [← hpad]
      refine congrArg ((unpack image)[·]?) ?_
      omega

/-- The translation inverts the layout exactly if the bytes are read right. -/
theorem unpackIndex_iff (hL : 0x4000 ≤ image.length) (hlen : adr + 3 < image.length) :
    (∀ j < 4, (unpack image)[unpackIndex adr + j]? = image[adr + j]?) ↔ ReadsTrue image adr := by
  refine forall₂_congr fun j hj => ?_
  rw [getElem?_unpackIndex hL hj (by omega)]
  by_cases hle : adr ≤ 0x4000
  · rw [if_pos hle]
    exact ⟨fun h => ⟨fun _ => h.symm, fun hhigh => absurd hhigh (by omega)⟩, fun h =>
      (h.1 hle).symm⟩
  · rw [if_neg hle]
    by_cases hin : (adr - 0x4000) % 0xc000 + j < 0xc000
    · rw [if_pos hin]
      exact iff_of_true rfl ⟨fun hle' => absurd hle' hle, fun _ hout => absurd hout (by omega)⟩
    · rw [if_neg hin]
      exact ⟨fun h => ⟨fun hle' => absurd hle' hle, fun _ _ => h.symm⟩,
        fun h => (h.2 (by omega) (by omega)).symm⟩

/-! ## The translation in Lua -/

/-- `adr` as the script puts it together from its three registers. -/
lemma spisAddr_eq (adr : BitVec 24) :
    (luaOfByte (adr.extractLsb' 16 8) <<< 16) ||| (luaOfByte (adr.extractLsb' 8 8) <<< 8) |||
      luaOfByte (adr.extractLsb' 0 8) = adr.setWidth 64 := by
  apply BitVec.eq_of_getLsbD_eq
  intro i hi
  simp only [luaOfByte, BitVec.getLsbD_or, BitVec.getLsbD_shiftLeft, BitVec.getLsbD_setWidth,
    BitVec.getLsbD_extractLsb']
  grind

/-- A number below `2 ^ 63` has the same value as a Lua integer. -/
lemma toInt_ofNat64 {n : ℕ} (h : n < 0x8000000000000000) : (BitVec.ofNat 64 n).toInt = n := by
  rw [BitVec.toInt_ofNat', Int.bmod_eq_of_le (by omega) (by omega)]

/-- The Lua arithmetic for `unpadr` gives the translated address of the model, without overflow. -/
lemma unpackedAddr_eq (adr : BitVec 24) :
    unpackedAddr (adr.setWidth 64) = BitVec.ofNat 64 (unpackIndex adr.toNat) := by
  have hlt := adr.isLt
  have hadr : adr.setWidth 64 = BitVec.ofNat 64 adr.toNat := by
    apply BitVec.eq_of_toNat_eq
    simp
  have hint : (adr.setWidth 64).toInt = adr.toNat := by
    rw [hadr, toInt_ofNat64 (by omega)]
  have hslt : (0x4000 : LuaInt).slt (adr.setWidth 64) = decide (0x4000 < adr.toNat) := by
    rw [BitVec.slt, hint]
    exact decide_eq_decide.2 Int.ofNat_lt
  unfold unpackedAddr unpackIndex
  rw [hslt]
  by_cases hhigh : 0x4000 < adr.toNat
  · have hsub : (adr.setWidth 64 - 0x4000).toInt = (adr.toNat - 0x4000 : ℕ) := by
      have heq : adr.setWidth 64 - 0x4000 = BitVec.ofNat 64 (adr.toNat - 0x4000) := by
        apply BitVec.eq_of_toNat_eq
        rw [hadr, BitVec.toNat_sub, BitVec.toNat_ofNat, BitVec.toNat_ofNat,
          show (0x4000 : LuaInt).toNat = 0x4000 from rfl]
        omega
      rw [heq, toInt_ofNat64 (by omega)]
    have hchunk : (0xc000 : LuaInt).toInt = (0xc000 : ℕ) := rfl
    have hdiv : idiv (adr.setWidth 64 - 0x4000) 0xc000 =
        BitVec.ofNat 64 ((adr.toNat - 0x4000) / 0xc000) := by
      rw [idiv, hsub, hchunk, Int.fdiv_eq_ediv_of_nonneg _ (by omega), ← Int.natCast_ediv,
        BitVec.ofInt_natCast]
    have hmod : mod (adr.setWidth 64 - 0x4000) 0xc000 =
        BitVec.ofNat 64 ((adr.toNat - 0x4000) % 0xc000) := by
      rw [mod, hsub, hchunk, Int.fmod_eq_emod_of_nonneg _ (by omega), ← Int.natCast_emod,
        BitVec.ofInt_natCast]
    rw [decide_eq_true hhigh, if_pos rfl, if_pos hhigh]
    dsimp only
    rw [hdiv, hmod, show (1 : LuaInt) = BitVec.ofNat 64 1 from rfl,
      show (0x4000 : LuaInt) = BitVec.ofNat 64 0x4000 from rfl, ← BitVec.ofNat_add,
      ← BitVec.ofNat_add]
    generalize hq : (adr.toNat - 0x4000) / 0xc000 = q
    generalize hr : (adr.toNat - 0x4000) % 0xc000 = r
    have hor : (q + 1) <<< 16 ||| (0x4000 + r) = (q + 1) * 0x10000 + (0x4000 + r) := by
      rw [← Nat.shiftLeft_add_eq_or_of_lt (by omega), Nat.shiftLeft_eq]
    apply BitVec.eq_of_toNat_eq
    rw [BitVec.toNat_or, BitVec.toNat_shiftLeft, BitVec.toNat_ofNat, BitVec.toNat_ofNat,
      BitVec.toNat_ofNat, Nat.mod_eq_of_lt (show q + 1 < 2 ^ 64 by omega),
      Nat.mod_eq_of_lt (show r + 0x4000 < 2 ^ 64 by omega), Nat.add_comm r,
      Nat.mod_eq_of_lt (by rw [Nat.shiftLeft_eq]; omega), hor, Nat.mod_eq_of_lt (by omega)]
  · rw [decide_eq_false hhigh, if_neg Bool.false_ne_true, if_neg hhigh, hadr]

/-- The place of each of the four bytes is within the range of a C integer. -/
lemma intOfLua_unpackedAddr (adr : BitVec 24) {j : ℕ} (hj : j < 4) :
    intOfLua (unpackedAddr (adr.setWidth 64) + BitVec.ofNat 64 j) =
      (unpackIndex adr.toNat + j : ℕ) := by
  have hlt := adr.isLt
  have hsmall : unpackIndex adr.toNat < 2 ^ 30 := by
    unfold unpackIndex
    split_ifs <;> omega
  rw [unpackedAddr_eq, intOfLua, ← BitVec.ofNat_add]
  have hword : (BitVec.ofNat 64 (unpackIndex adr.toNat + j)).setWidth 32 =
      BitVec.ofNat 32 (unpackIndex adr.toNat + j) := by
    apply BitVec.eq_of_toNat_eq
    rw [BitVec.toNat_setWidth, BitVec.toNat_ofNat, BitVec.toNat_ofNat]
    omega
  rw [hword, BitVec.toInt_ofNat', Int.bmod_eq_of_le (by omega) (by omega)]

/-! ## The registers -/

/-- The writes that prepare for reading at a flash address. -/
def spiSetup (adr : BitVec 24) : List (Byte × Byte) :=
  [(SPI_S_ADDR2, adr.extractLsb' 16 8), (SPI_S_ADDR1, adr.extractLsb' 8 8),
    (SPI_S_ADDR0, adr.extractLsb' 0 8), (SPI_S_RCMD, 0xbb)]

/-- The given writes, one after the other. -/
def writeAll : List (Byte × Byte) → Cpu Unit
  | [] => pure ()
  | e :: l => do
      Cpu.writed e.1 e.2
      writeAll l

/-- The contents of the given registers, read one after the other. -/
def readAll : List Byte → Cpu (List Byte)
  | [] => pure []
  | a :: l => do
      let v ← Cpu.readd a
      let vs ← readAll l
      pure (v :: vs)

/-- What firmware does to read four bytes: prepare, write `CACHE_CTRL`, read the data registers. -/
def flashRead (setup : List (Byte × Byte)) (ctrl : Byte) : Cpu (List Byte) := do
  writeAll setup
  Cpu.writed CACHE_CTRL ctrl
  readAll [SPI_S_DATA0, SPI_S_DATA1, SPI_S_DATA2, SPI_S_DATA3]

/-- The order of the writes that prepare for reading does not matter, as they go to different
globals. -/
lemma foldl_spiSet {ρ : Type} {adr : BitVec 24} {setup : List (Byte × Byte)}
    (h : setup.Perm (spiSetup adr)) (g : Globals ρ) : setup.foldl spiSet g =
      { g with
        spisAddr0 := luaOfByte (adr.extractLsb' 0 8)
        spisAddr1 := luaOfByte (adr.extractLsb' 8 8)
        spisAddr2 := luaOfByte (adr.extractLsb' 16 8)
        spisRcmd := 0xbb } := by
  refine (h.symm.foldl_eq' ?_ g).symm.trans rfl
  intro x hx y hy g
  simp only [spiSetup, List.mem_cons, List.not_mem_nil, or_false] at hx hy
  rcases hx with rfl | rfl | rfl | rfl <;> rcases hy with rfl | rfl | rfl | rfl <;> rfl

namespace Machine

/-- The register has its hook and nothing else. -/
def HookOnly (a : Byte) : Prop :=
  sfrInitTrap a = true ∧ a ≠ DPS ∧ a ≠ SCON ∧ a ≠ SBUF ∧ a ≠ PSW ∧ a ≠ CODE_BANK

instance (a : Byte) : Decidable (HookOnly a) :=
  inferInstanceAs (Decidable (_ ∧ _ ∧ _ ∧ _ ∧ _ ∧ _))

variable {chip : Chip} {file banks : List Byte} {m : Machine (Globals chip.Indacc)} {a v : Byte}
  {hook : Hook (Globals chip.Indacc)}

/-- A write whose hook does nothing but change the globals. -/
lemma writed_globals (hm : Banked file banks m) (ha : HookOnly a)
    (hhook : chip.script.ramdHooks m.lua a = some hook) {r : LuaInt} {g : Globals chip.Indacc}
    (hrun : ∀ (bus : Bus _) m₁, CodeMem file banks m₁ → m₁.lua = m.lua → m₁.heap = m.heap →
      (hook true (luaOfByte v)).run (luaExec bus) m₁ = some (r, m₁.setLua g)) :
    ∃ m', writed chip.script a v m = some m' ∧ Banked file banks m' ∧ m'.lua = g ∧
      m'.heap = m.heap := by
  obtain ⟨htrap, h₀, h₁, h₂, h₃, h₄⟩ := ha
  have hmem : CodeMem file banks (m.setSfr a v) :=
    codeMem_isOuter _ _ (m.sameOutside_setSfr _ _) hm.mem
  have hwrite := writed_of_hook (v := v) ((congrFun hm.ramsfrtrap a).trans htrap) h₀ h₁ h₂ h₃ hhook
  rw [hrun _ _ hmem rfl rfl, Option.map_some] at hwrite
  obtain ⟨l0, l1, hl⟩ := sfrNotify_eq (((m.setSfr a v).setLua g).setSfr a (byteOfLua r)) a
  refine ⟨_, hwrite, hm.writed h₄ hwrite, ?_, ?_⟩
  · rw [hl]
    rfl
  · rw [hl]
    rfl

/-- A read whose hook does not change anything gives what the hook returns. -/
lemma readd_globals (hm : Banked file banks m) (ha : HookOnly a)
    (hhook : chip.script.ramdHooks m.lua a = some hook) {r : LuaInt}
    (hrun : ∀ bus : Bus _, (hook false (luaOfByte (m.sfr a))).run (luaExec bus) m = some (r, m)) :
    ∃ m', readd chip.script a m = some (byteOfLua r, m') ∧ Banked file banks m' ∧
      m'.lua = m.lua := by
  obtain ⟨htrap, -, h₁, h₂, h₃, -⟩ := ha
  have hread := readd_of_hook ((congrFun hm.ramsfrtrap a).trans htrap) h₁ h₂ h₃ hhook
  rw [hrun, Option.map_some] at hread
  exact ⟨_, hread, hm.readd hread, rfl⟩

/-- A write to a latch sets its global and leaves the banks of code. -/
lemma writed_latchOnly {set : LuaInt → Globals chip.Indacc → Globals chip.Indacc}
    (hm : Banked file banks m) (ha : HookOnly a)
    (hhook : chip.script.ramdHooks m.lua a = some (latchOnly set)) :
    ∃ m', Machine.writed chip.script a v m = some m' ∧ Banked file banks m' ∧
      m'.lua = set (luaOfByte v) m.lua ∧ m'.heap = m.heap :=
  writed_globals (r := luaOfByte v) hm ha hhook fun bus m₁ _ hlua _ => by
    rw [← hlua]
    rfl

/-- A write that sets a global which can be read back. -/
lemma writed_latch {set : LuaInt → Globals chip.Indacc → Globals chip.Indacc}
    {get : Globals chip.Indacc → LuaInt} (hm : Banked file banks m) (ha : HookOnly a)
    (hhook : chip.script.ramdHooks m.lua a = some (latch set get)) :
    ∃ m', Machine.writed chip.script a v m = some m' ∧ Banked file banks m' ∧
      m'.lua = set (luaOfByte v) m.lua ∧ m'.heap = m.heap :=
  writed_globals (r := get (set (luaOfByte v) m.lua)) hm ha hhook fun bus m₁ _ hlua _ => by
    rw [← hlua]
    rfl

/-- A read of a latch gives its global and leaves the banks of code. -/
lemma readd_latch {set : LuaInt → Globals chip.Indacc → Globals chip.Indacc}
    {get : Globals chip.Indacc → LuaInt} (hm : Banked file banks m) (ha : HookOnly a)
    (hhook : chip.script.ramdHooks m.lua a = some (latch set get)) :
    ∃ m', Machine.readd chip.script a m = some (byteOfLua (get m.lua), m') ∧ Banked file banks m' ∧
      m'.lua = m.lua :=
  readd_globals hm ha hhook fun _ => rfl

/-- A write to a register of the flash address or to the command changes its global and nothing
else that matters here. -/
lemma writed_spiSet {e : Byte × Byte} (he : e.1 ∈ spiRegs) (hm : Banked file banks m) :
    ∃ m', Machine.writed chip.script e.1 e.2 m = some m' ∧ Banked file banks m' ∧
      m'.lua = spiSet m.lua e ∧ m'.heap = m.heap := by
  have hhook : chip.script.ramdHooks m.lua SPI_S_ADDR2 = some sfrSpisAddr2 ∧
      chip.script.ramdHooks m.lua SPI_S_ADDR1 = some sfrSpisAddr1 ∧
      chip.script.ramdHooks m.lua SPI_S_ADDR0 = some sfrSpisAddr0 ∧
      chip.script.ramdHooks m.lua SPI_S_RCMD = some sfrSpisRcmd := by
    cases chip <;> exact ⟨rfl, rfl, rfl, rfl⟩
  obtain ⟨haddr2, haddr1, haddr0, hrcmd⟩ := hhook
  obtain ⟨a, v⟩ := e
  simp only [spiRegs, List.mem_cons, List.not_mem_nil, or_false] at he
  rcases he with rfl | rfl | rfl | rfl
  · exact writed_latchOnly hm (show HookOnly SPI_S_ADDR0 by decide) haddr0
  · exact writed_latchOnly hm (show HookOnly SPI_S_ADDR1 by decide) haddr1
  · exact writed_latchOnly hm (show HookOnly SPI_S_ADDR2 by decide) haddr2
  · exact writed_latch hm (show HookOnly SPI_S_RCMD by decide) hrcmd

/-- The registers a flash read sets up are those of the flash address and the command. -/
lemma mem_spiRegs_of_mem_spiSetup {adr : BitVec 24} {e : Byte × Byte} (he : e ∈ spiSetup adr) :
    e.1 ∈ spiRegs := by
  simp only [spiSetup, List.mem_cons, List.not_mem_nil, or_false] at he
  rcases he with rfl | rfl | rfl | rfl
  · exact (show SPI_S_ADDR2 ∈ spiRegs by decide)
  · exact (show SPI_S_ADDR1 ∈ spiRegs by decide)
  · exact (show SPI_S_ADDR0 ∈ spiRegs by decide)
  · exact (show SPI_S_RCMD ∈ spiRegs by decide)

/-- The writes that prepare for reading put the address and the command into the globals. -/
lemma run_writeAll {adr : BitVec 24} (l : List (Byte × Byte)) (hl : ∀ e ∈ l, e ∈ spiSetup adr)
    (hm : Banked file banks m) :
    ∃ m', (writeAll l).run (cpuExec chip.script) m = some ((), m') ∧ Banked file banks m' ∧
      m'.lua = l.foldl spiSet m.lua ∧ m'.heap = m.heap := by
  induction l generalizing m with
  | nil => exact ⟨m, rfl, hm, rfl, rfl⟩
  | cons e l ih =>
    obtain ⟨he, hrest⟩ := List.forall_mem_cons.1 hl
    obtain ⟨m₁, hm₁, hbanked, hlua, hheap⟩ := writed_spiSet (mem_spiRegs_of_mem_spiSetup he) hm
    obtain ⟨m', hm', hbanked', hlua', hheap'⟩ := ih hrest hbanked
    refine ⟨m', ?_, hbanked', hlua'.trans ?_, hheap'.trans hheap⟩
    · rw [writeAll, Prog.run_bind, Cpu.run_writed, hm₁]
      exact hm'
    · rw [hlua]
      rfl

/-- The byte of `rom` at an index, as Lua gets it. -/
def romByte {σ : Type} (m : Machine σ) (i : LuaInt) : LuaInt :=
  luaOfByte ((m.heap 0).mem (intOfLua i))

/-- The hook puts the four bytes of `rom` from `u` on into the four data registers. -/
lemma run_readFlash {ρ : Type} {m : Machine (Globals ρ)} (hm : CodeMem file banks m)
    (bus : Bus (Globals ρ)) (u : LuaInt) :
    (readFlash u).run (luaExec bus) m = some ((), m.setLua { m.lua with
      spisData0 := m.romByte (u + 0)
      spisData1 := m.romByte (u + 1)
      spisData2 := m.romByte (u + 2)
      spisData3 := m.romByte (u + 3) }) := by
  have hpeek : ∀ (g : Globals ρ) i, (peekRom i).run (luaExec bus) (m.setLua g) =
      some (m.romByte i, m.setLua g) := by
    intro g i
    have hbuf : (m.setLua g).getBuffer "rom" = some 0 := hm.getBuffer_rom
    rw [peekRom, Prog.run_op, luaExec, hbuf]
    rfl
  have hmodify : ∀ (f : Globals ρ → Globals ρ) (g : Globals ρ),
      (Lua.modify f).run (luaExec bus) (m.setLua g) = some ((), m.setLua (f g)) := fun _ _ => rfl
  have hm₀ : m.setLua m.lua = m := rfl
  rw [← hm₀, readFlash]
  simp only [Prog.run_bind, hpeek, hmodify, Option.bind_some]
  rfl

/-- The globals after four bytes have been read from `u` on. -/
def flashGlobals (m : Machine (Globals chip.Indacc)) (u : LuaInt) : Globals chip.Indacc :=
  { m.lua with
    spisData0 := m.romByte (u + 0)
    spisData1 := m.romByte (u + 1)
    spisData2 := m.romByte (u + 2)
    spisData3 := m.romByte (u + 3) }

/-- A write to `CACHE_CTRL` when everything is set up. -/
lemma writed_cacheCtrl (hm : Banked file banks m) (hrcmd : m.lua.spisRcmd = 0xbb) (ctrl : Byte) :
    ∃ m', Machine.writed chip.script CACHE_CTRL ctrl m = some m' ∧ Banked file banks m' ∧
      m'.lua = m.flashGlobals (unpackedAddr ((m.lua.spisAddr2 <<< 16) |||
        (m.lua.spisAddr1 <<< 8) ||| m.lua.spisAddr0)) := by
  have hhook : chip.script.ramdHooks m.lua CACHE_CTRL = some sfrCacheCtrl := by
    cases chip <;> rfl
  have hwrite := writed_globals (r := 0) (v := ctrl) (g := m.flashGlobals
    (unpackedAddr ((m.lua.spisAddr2 <<< 16) ||| (m.lua.spisAddr1 <<< 8) ||| m.lua.spisAddr0)))
    hm (show HookOnly CACHE_CTRL by decide) hhook ?_
  · obtain ⟨m', hm', hbanked, hlua, -⟩ := hwrite
    exact ⟨m', hm', hbanked, hlua⟩
  · intro bus m₁ hmem hlua hheap
    have hread := run_readFlash hmem bus (unpackedAddr
      ((m.lua.spisAddr2 <<< 16) ||| (m.lua.spisAddr1 <<< 8) ||| m.lua.spisAddr0))
    have hcommand : (spiCommand : LuaProg (Globals chip.Indacc) Unit).run (luaExec bus) m₁ =
        (readFlash (unpackedAddr ((m.lua.spisAddr2 <<< 16) ||| (m.lua.spisAddr1 <<< 8) |||
          m.lua.spisAddr0))).run (luaExec bus) m₁ := by
      change (Prog.run _ (if m₁.lua.spisRcmd = 5 then _ else _) m₁) = _
      rw [hlua, hrcmd, if_neg (by decide)]
      rfl
    have hbytes : ∀ i, m₁.romByte i = m.romByte i := by
      intro i
      rw [romByte, romByte, hheap]
    have hctrl : (true && Lua.truth (luaOfByte ctrl &&& 4)) = true := rfl
    rw [sfrCacheCtrl, Prog.run_bind, hctrl]
    rw [Lua.when, if_pos rfl, hcommand, hread, Option.bind_some, hlua]
    simp only [hbytes]
    rfl

/-- Reading the four data registers returns the four globals behind them, in order. -/
lemma run_readAll (hm : Banked file banks m) :
    ∃ m', (readAll [SPI_S_DATA0, SPI_S_DATA1, SPI_S_DATA2, SPI_S_DATA3]).run
      (cpuExec chip.script) m = some ([byteOfLua m.lua.spisData0, byteOfLua m.lua.spisData1,
        byteOfLua m.lua.spisData2, byteOfLua m.lua.spisData3], m') := by
  have hhook : ∀ g, chip.script.ramdHooks g SPI_S_DATA0 = some sfrSpisData0 ∧
      chip.script.ramdHooks g SPI_S_DATA1 = some sfrSpisData1 ∧
      chip.script.ramdHooks g SPI_S_DATA2 = some sfrSpisData2 ∧
      chip.script.ramdHooks g SPI_S_DATA3 = some sfrSpisData3 := by
    intro g
    cases chip <;> exact ⟨rfl, rfl, rfl, rfl⟩
  obtain ⟨m₁, hm₁, hbanked₁, hlua₁⟩ := readd_latch hm (by decide) (hhook _).1
  obtain ⟨m₂, hm₂, hbanked₂, hlua₂⟩ := readd_latch hbanked₁ (by decide) (hhook _).2.1
  obtain ⟨m₃, hm₃, hbanked₃, hlua₃⟩ := readd_latch hbanked₂ (by decide) (hhook _).2.2.1
  obtain ⟨m₄, hm₄, -, -⟩ := readd_latch hbanked₃ (by decide) (hhook _).2.2.2
  refine ⟨m₄, ?_⟩
  simp only [readAll, Prog.run_bind, Cpu.run_readd, hm₁, hm₂, hm₃, hm₄, Option.bind_some,
    Prog.pure_eq_done, Prog.run_done, hlua₃, hlua₂, hlua₁]

/-- The firmware reads what is at the translated address. -/
lemma run_flashRead {adr : BitVec 24} {setup : List (Byte × Byte)}
    (hsetup : setup.Perm (spiSetup adr)) (ctrl : Byte) (hm : Banked file banks m) :
    ∃ m', (flashRead setup ctrl).run (cpuExec chip.script) m = some
      ((List.range 4).map fun j =>
        byteOfLua (m.romByte (unpackedAddr (adr.setWidth 64) + BitVec.ofNat 64 j)), m') := by
  obtain ⟨m₁, hm₁, hbanked₁, hlua₁, hheap₁⟩ :=
    run_writeAll setup (fun e he => hsetup.mem_iff.1 he) hm
  rw [foldl_spiSet hsetup] at hlua₁
  obtain ⟨m₂, hm₂, hbanked₂, hlua₂⟩ := writed_cacheCtrl hbanked₁ (by rw [hlua₁]) ctrl
  obtain ⟨m₃, hm₃⟩ := run_readAll hbanked₂
  have haddr : (m₁.lua.spisAddr2 <<< 16) ||| (m₁.lua.spisAddr1 <<< 8) ||| m₁.lua.spisAddr0 =
      adr.setWidth 64 := by
    rw [hlua₁]
    exact spisAddr_eq adr
  have hbytes : ∀ i, m₁.romByte i = m.romByte i := by
    intro i
    rw [romByte, romByte, hheap₁]
  refine ⟨m₃, ?_⟩
  rw [flashRead, Prog.run_bind, hm₁, Option.bind_some, Prog.run_bind, Cpu.run_writed, hm₂,
    Option.map_some, Option.bind_some, hm₃, hlua₂, haddr]
  simp only [flashGlobals, hbytes]
  rfl

/-- The four bytes are right exactly if the translation is. -/
lemma Banked.flashRead_iff (hm : Banked (unpack image) banks m) (hL : 0x4000 ≤ image.length)
    {adr : BitVec 24} (hadr : adr.toNat + 3 < image.length) {setup : List (Byte × Byte)}
    (hsetup : setup.Perm (spiSetup adr)) (ctrl : Byte) :
    ∃ d m', (flashRead setup ctrl).run (cpuExec chip.script) m = some (d, m') ∧
      ((∀ j < 4, d[j]? = image[adr.toNat + j]?) ↔ ReadsTrue image adr.toNat) := by
  obtain ⟨m', hm'⟩ := run_flashRead hsetup ctrl hm
  refine ⟨_, m', hm', ?_⟩
  rw [← unpackIndex_iff hL hadr]
  refine forall₂_congr fun j hj => ?_
  have hread : ∃ b, (unpack image)[unpackIndex adr.toNat + j]? = some b := by
    rw [getElem?_unpackIndex hL hj (by omega)]
    split_ifs
    · exact ⟨_, List.getElem?_eq_getElem (by omega)⟩
    · exact ⟨0, rfl⟩
    · exact ⟨_, List.getElem?_eq_getElem (by omega)⟩
    · exact ⟨0, rfl⟩
  obtain ⟨b, hb⟩ := hread
  have hbyte : byteOfLua (m.romByte (unpackedAddr (adr.setWidth 64) + BitVec.ofNat 64 j)) = b := by
    rw [romByte, byteOfLua_luaOfByte, intOfLua_unpackedAddr adr hj]
    exact hm.mem.bytes _ _ hb
  rw [List.getElem?_map, List.getElem?_range hj, Option.map_some, hbyte, hb]

/-- For every image and every flash address whose four bytes are in the image, and in every state
that can be reached, the firmware reads the four bytes right exactly if they are in one bank or
happen to be the same as those read instead. -/
theorem run_flashRead_iff (chip : Chip) (hL : 0x4000 ≤ image.length) {heap : ℕ → Buffer}
    {m₀ m : Machine (Globals chip.Indacc)} (hboot : boot chip.script heap (unpack image) = some m₀)
    {tr : List (Machine (Globals chip.Indacc) × Event)} (hrun : Run (Happens chip.script) m₀ tr m)
    {adr : BitVec 24} (hadr : adr.toNat + 3 < image.length) {setup : List (Byte × Byte)}
    (hsetup : setup.Perm (spiSetup adr)) (ctrl : Byte) :
    ∃ d m', (flashRead setup ctrl).run (cpuExec chip.script) m = some (d, m') ∧
      ((∀ j < 4, d[j]? = image[adr.toNat + j]?) ↔ ReadsTrue image adr.toNat) := by
  obtain ⟨m₁, hboot', hstart⟩ := boot_banked chip heap (unpack image)
  obtain rfl := Option.some.inj (hboot'.symm.trans hboot)
  have hlast : Banked (unpack image) (bankHistory chip.script tr) m :=
    hrun.logged (I := Banked (unpack image)) (fun _ _ _ _ h he => happen_banked h he) hstart
  exact hlast.flashRead_iff hL hadr hsetup ctrl

/-- The theorem at the first address that is read right, in an image of counted bytes: the firmware
gets the four bytes `01 02 03 04` that are there. -/
theorem run_flashRead_iff_first : ∃ (m₀ m' : Machine (Globals Rtl8372.Indacc)) (d : List Byte),
    boot Rtl8372.script (fun _ => default)
      (unpack ((List.range 0x4005).map (BitVec.ofNat 8))) = some m₀ ∧
    (flashRead (spiSetup 0x4001#24) 0x04).run (cpuExec Rtl8372.script) m₀ = some (d, m') ∧
    ∀ j < 4, d[j]? = some (BitVec.ofNat 8 (0x4001 + j)) := by
  obtain ⟨m₀, hboot, -⟩ := boot_banked .rtl8372 (fun _ => default)
    (unpack ((List.range 0x4005).map (BitVec.ofNat 8)))
  have hlen : ((List.range 0x4005).map (BitVec.ofNat 8)).length = 0x4005 := by
    rw [List.length_map, List.length_range]
  have hadr : (0x4001#24).toNat = 0x4001 := rfl
  obtain ⟨d, m', hread, hiff⟩ := run_flashRead_iff .rtl8372 (by omega) hboot (.refl m₀) (by omega)
    (List.Perm.refl (spiSetup 0x4001#24)) 0x04
  refine ⟨m₀, m', d, hboot, hread, fun j hj => ?_⟩
  rw [hiff.2 (readsTrue_of_bank (by omega) (by omega)) j hj, hadr, List.getElem?_map,
    List.getElem?_range (by omega), Option.map_some]

/-- At address 0 the firmware gets the bytes two places on. -/
theorem flash_address_zero_misread : ¬∀ (image : List Byte)
    (m₀ m' : Machine (Globals Rtl8372.Indacc))
    (adr : BitVec 24) (d : List Byte), 0x4000 ≤ image.length → adr.toNat + 3 < image.length →
    boot Chip.rtl8372.script (fun _ => default) (unpack image) = some m₀ →
    (flashRead (spiSetup adr) 0x04).run (cpuExec Chip.rtl8372.script) m₀ = some (d, m') →
    ∀ j < 4, d[j]? = image[adr.toNat + j]? := by
  intro hall
  have hlen : ((1 : Byte) :: List.replicate 0x3fff 0).length = 0x4000 := by
    rw [List.length_cons, List.length_replicate]
  have hadr : (0#24).toNat = 0 := rfl
  obtain ⟨m₀, hboot, hbanked⟩ := boot_banked .rtl8372 (fun _ => default)
    (unpack ((1 : Byte) :: List.replicate 0x3fff 0))
  obtain ⟨d, m', hm', hiff⟩ := hbanked.flashRead_iff (by omega) (by omega)
    (List.Perm.refl (spiSetup 0#24)) 0x04
  have hfirst := (hiff.1 (hall _ m₀ m' _ d (by omega) (by omega) hboot hm') 0 (by omega)).1
    (by omega)
  rw [hadr, if_pos (by omega), List.getElem?_cons_zero, List.getElem?_cons_succ,
    List.getElem?_replicate, if_pos (by omega)] at hfirst
  exact absurd hfirst (by decide)

end Machine

end Emu51

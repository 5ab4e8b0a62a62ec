import Emu51.Chip.SocRegs
import Emu51.Firmware.Indacc
import Emu51.Flash.SpiRead
import Emu51.Library.RegisterPort

/-!
# The latches of the switch registers

The registers behind `INDACC_CMD` are reached through latches, `INDACC_ADDR_H` to `INDACC_RDATA_L`
of `rtl8367s.lua` and to `INDACC_DATA_0` of `rtl8372.lua`. Latches hold bytes, registers two or four
of them. Both scripts do to them what the port of the library says (`command_shows`), apart from
the few registers that clear themselves and the window of the PHYs.
-/

namespace Emu51

open Chip Lua RegisterPort

abbrev INDACC_DATA_24 : Byte := 0xa4
abbrev INDACC_DATA_16 : Byte := 0xa5
abbrev INDACC_DATA_8 : Byte := 0xa6
abbrev INDACC_DATA_0 : Byte := 0xa7

/-! ## Values -/

/-- The number with the given bytes, the most significant one first. -/
def ofBytes (bs : List Byte) : LuaInt := bs.foldl (fun v b => v * 0x100 + luaOfByte b) 0

/-- The lower `n` bytes of a number, the most significant one first. -/
def toBytes (n : ℕ) (v : LuaInt) : List Byte :=
  (List.range n).reverse.map fun i => byteOfLua (v >>> (8 * i))

/-- A value is cut into as many bytes as asked for. -/
lemma length_toBytes (n : ℕ) (v : LuaInt) : (toBytes n v).length = n := by
  rw [toBytes, List.length_map, List.length_reverse, List.length_range]

/-- One more byte at the low end moves the others up by 8 bits. -/
lemma ofBytes_concat (bs : List Byte) (b : Byte) :
    ofBytes (bs ++ [b]) = ofBytes bs * 0x100 + luaOfByte b := List.foldl_concat ..

/-- A single byte is its own value. -/
lemma ofBytes_singleton (b : Byte) : ofBytes [b] = luaOfByte b := BitVec.zero_add _

/-- The same with natural numbers, up to the 64 bits of a Lua integer. -/
lemma toNat_ofBytes_concat (bs : List Byte) (b : Byte) :
    (ofBytes (bs ++ [b])).toNat = ((ofBytes bs).toNat * 256 + b.toNat) % 2 ^ 64 := by
  have hconst : (0x100 : LuaInt).toNat = 256 := rfl
  rw [ofBytes_concat, BitVec.toNat_add, BitVec.toNat_mul, toNat_luaOfByte, hconst, Nat.mod_add_mod]

/-- A value of as many bytes as there are is below that power of 256. -/
lemma toNat_ofBytes_lt (bs : List Byte) : (ofBytes bs).toNat < 2 ^ (8 * bs.length) := by
  induction bs using List.reverseRecOn with
  | nil => exact Nat.one_pos
  | append_singleton bs b ih =>
    have hb := b.isLt
    have hpow : 2 ^ (8 * (bs.length + 1)) = 2 ^ (8 * bs.length) * 256 := by
      rw [Nat.mul_add, Nat.pow_add]
    rw [toNat_ofBytes_concat, List.length_append, List.length_singleton, hpow]
    refine Nat.lt_of_le_of_lt (Nat.mod_le ..) ?_
    omega

/-- Masking with `0xff` gives the last byte of a value. -/
lemma ofBytes_concat_and (bs : List Byte) (b : Byte) :
    ofBytes (bs ++ [b]) &&& 0xff = luaOfByte b := by
  have hb := b.isLt
  apply BitVec.eq_of_toNat_eq
  rw [toNat_low, toNat_ofBytes_concat, toNat_luaOfByte]
  omega

/-- Shifting by 8 gives all but the last byte of a value. -/
lemma ofBytes_concat_shift (bs : List Byte) (b : Byte) (h : bs.length < 8) :
    ofBytes (bs ++ [b]) >>> 8 = ofBytes bs := by
  have hb := b.isLt
  have hlt := toNat_ofBytes_lt bs
  have hpow : 2 ^ (8 * bs.length) ≤ 2 ^ 56 := Nat.pow_le_pow_right (by omega) (by omega)
  apply BitVec.eq_of_toNat_eq
  rw [toNat_high, toNat_ofBytes_concat]
  omega

/-- The last byte of a value is its lowest, and the others are those of the value shifted by 8 bits.
-/
lemma toBytes_succ (n : ℕ) (v : LuaInt) :
    toBytes (n + 1) v = toBytes n (v >>> 8) ++ [byteOfLua v] := by
  have hshift : ∀ i, v >>> (8 * (i + 1)) = (v >>> 8) >>> (8 * i) := by
    intro i
    rw [← BitVec.shiftRight_add, Nat.mul_add, Nat.add_comm (8 * i)]
  rw [toBytes, List.range_succ_eq_map, List.reverse_cons, List.map_append, ← List.map_reverse,
    List.map_map]
  refine congrArg₂ (· ++ ·) (List.map_congr_left fun i _ => ?_) ?_
  · exact congrArg byteOfLua (hshift i)
  · rw [List.map_singleton, Nat.mul_zero, BitVec.ushiftRight_zero]

/-- A number is put together from its bytes if it has no more than those. -/
theorem ofBytes_toBytes {n : ℕ} {v : LuaInt} (h : v.toNat < 2 ^ (8 * n)) :
    ofBytes (toBytes n v) = v := by
  induction n generalizing v with
  | zero =>
    apply BitVec.eq_of_toNat_eq
    exact (Nat.lt_one_iff.1 h).symm
  | succ n ih =>
    have hpow : 2 ^ (8 * (n + 1)) = 2 ^ (8 * n) * 256 := by rw [Nat.mul_add, Nat.pow_add]
    have hv := v.isLt
    rw [hpow] at h
    have hhigh : (v >>> 8).toNat < 2 ^ (8 * n) := by
      rw [toNat_high]
      omega
    apply BitVec.eq_of_toNat_eq
    rw [toBytes_succ, toNat_ofBytes_concat, ih hhigh, toNat_high, byteOfLua, BitVec.toNat_setWidth]
    omega

/-! ## The ports of the chips -/

namespace Chip

/-- The scripts of the repository. -/
def scripts : List Chip := [.rtl8367s Rtl8367s.socRegs, .rtl8372]

/-- The address in the latches. -/
def indaccWord (f : Byte → Byte) : Word := word (f INDACC_ADDR_H) (f INDACC_ADDR_L)

/-- What the latches are for. -/
def layout : Chip → Layout Byte Byte Word
  | .rtl8367s _ =>
    { addr := indaccWord
      source := [INDACC_WDATA_H, INDACC_WDATA_L]
      target := [INDACC_RDATA_H, INDACC_RDATA_L]
      addr_eq := fun f g h => congrArg₂ word (h _ (by decide) (by decide))
        (h _ (by decide) (by decide))
      nodup_source := by decide
      nodup_target := by decide
      length_eq := rfl }
  | .rtl8372 =>
    { addr := indaccWord
      source := [INDACC_DATA_24, INDACC_DATA_16, INDACC_DATA_8, INDACC_DATA_0]
      target := [INDACC_DATA_24, INDACC_DATA_16, INDACC_DATA_8, INDACC_DATA_0]
      addr_eq := fun f g h => congrArg₂ word (h _ (by decide) (by decide))
        (h _ (by decide) (by decide))
      nodup_source := by decide
      nodup_target := by decide
      length_eq := rfl }

/-- The register is a latch. -/
def IsLatch (chip : Chip) (a : Byte) : Prop :=
  a = INDACC_ADDR_H ∨ a = INDACC_ADDR_L ∨ a ∈ chip.layout.source ∨ a ∈ chip.layout.target

/-- The switch register is neither in the window of the PHYs nor one that clears itself. -/
def PlainReg : Chip → Word → Prop
  | .rtl8367s _, a => Rtl8367s.PlainReg a
  | .rtl8372, a => a ≠ 0x0024 ∧ a ≠ 0x5cac ∧ a ≠ 0x53d4 ∧ a ≠ 0x0f60

/-- What is read where `soc_regs` has no entry. -/
def absent : Chip → LuaInt
  | .rtl8367s _ => 0xdead
  | .rtl8372 => 0xdeadbeef

/-- The value of a switch register. -/
def regValue (chip : Chip) (g : Globals chip.Indacc) (a : Word) : LuaInt :=
  (g.socRegs (Rtl8367s.luaOfWord a)).getD chip.absent

/-- The switch registers to begin with, byte by byte. -/
def initialFile (chip : Chip) (a : Word) : List Byte :=
  toBytes chip.layout.source.length (chip.regValue chip.script.globals a)

/-- The globals are the latches. -/
def Latched : (chip : Chip) → (Byte → Byte) → Globals chip.Indacc → Prop
  | .rtl8367s _, f, g =>
      g.indaccAddrH = luaOfByte (f INDACC_ADDR_H) ∧ g.indaccAddrL = luaOfByte (f INDACC_ADDR_L) ∧
        g.indacc = ⟨luaOfByte (f INDACC_WDATA_H), luaOfByte (f INDACC_WDATA_L),
          luaOfByte (f INDACC_RDATA_H), luaOfByte (f INDACC_RDATA_L)⟩
  | .rtl8372, f, g =>
      g.indaccAddrH = luaOfByte (f INDACC_ADDR_H) ∧ g.indaccAddrL = luaOfByte (f INDACC_ADDR_L) ∧
        g.indacc = ⟨luaOfByte (f INDACC_DATA_24), luaOfByte (f INDACC_DATA_16),
          luaOfByte (f INDACC_DATA_8), luaOfByte (f INDACC_DATA_0)⟩

/-- The initial values of the scripts fit in the latches. -/
lemma ofBytes_initialFile {chip : Chip} (hchip : chip ∈ scripts) (a : Word) :
    ofBytes (chip.initialFile a) = chip.regValue chip.script.globals a := by
  simp only [scripts, List.mem_cons, List.not_mem_nil, or_false] at hchip
  rcases hchip with rfl | rfl
  · have hfits : ((Rtl8367s.socRegs (Rtl8367s.luaOfWord a)).getD 0xdead).toNat < 2 ^ (8 * 2) := by
      cases hentry : Rtl8367s.socRegs (Rtl8367s.luaOfWord a) with
      | none => decide
      | some v => exact Rtl8367s.socRegs_lt hentry
    exact ofBytes_toBytes hfits
  · have hall : (Rtl8372.socRegs.all fun e => e.2 ≤ 0xffffffff) = true := by decide
    have hfits : ((Rtl8372.socRegs.lookup (Rtl8367s.luaOfWord a)).getD 0xdeadbeef).toNat <
        2 ^ (8 * 4) := by
      refine Nat.lt_succ_of_le (BitVec.le_def (y := 0xffffffff).1 ?_)
      cases hentry : Rtl8372.socRegs.lookup (Rtl8367s.luaOfWord a) with
      | none => decide
      | some v =>
        obtain ⟨l₁, l₂, htable, -⟩ := List.lookup_eq_some_iff.1 hentry
        have hmem : (Rtl8367s.luaOfWord a, v) ∈ Rtl8372.socRegs := by
          rw [htable]
          exact List.mem_append_right l₁ List.mem_cons_self
        exact of_decide_eq_true (List.all_eq_true.1 hall _ hmem)
    exact ofBytes_toBytes hfits

/-- The hook of a latch. -/
structure LatchSpec (chip : Chip) (a : Byte)
    (set : LuaInt → Globals chip.Indacc → Globals chip.Indacc)
    (get : Globals chip.Indacc → LuaInt) : Prop where
  only : Machine.HookOnly a
  hook : ∀ g, chip.script.ramdHooks g a = some (latch set get)
  latched : ∀ f g v, chip.Latched f g →
    chip.Latched (Function.update f a v) (set (luaOfByte v) g)
  shown : ∀ f g, chip.Latched f g → get g = luaOfByte (f a)
  socRegs : ∀ v g, (set v g).socRegs = g.socRegs

/-- Every latch of both chips has a setter and a getter in the globals, and its hook uses these. -/
lemma exists_latchSpec {chip : Chip} {a : Byte} (ha : chip.IsLatch a) :
    ∃ set get, LatchSpec chip a set get := by
  cases chip with
  | rtl8367s socRegs =>
    have hcases : a = INDACC_ADDR_H ∨ a = INDACC_ADDR_L ∨ a = INDACC_WDATA_H ∨
        a = INDACC_WDATA_L ∨ a = INDACC_RDATA_H ∨ a = INDACC_RDATA_L := by
      simpa [IsLatch, layout, or_assoc] using ha
    rcases hcases with rfl | rfl | rfl | rfl | rfl | rfl
    all_goals
      refine ⟨_, _, by decide, fun _ => rfl, ?_, ?_, fun _ _ => rfl⟩
      · rintro f g v ⟨hh, hl, hdata⟩
        refine ⟨?_, ?_, ?_⟩ <;> simp [Rtl8367s.setIndacc, Function.update, hh, hl, hdata]
      · rintro f g ⟨hh, hl, hdata⟩
        first
          | exact hh
          | exact hl
          | exact congrArg Rtl8367s.Indacc.wdataH hdata
          | exact congrArg Rtl8367s.Indacc.wdataL hdata
          | exact congrArg Rtl8367s.Indacc.rdataH hdata
          | exact congrArg Rtl8367s.Indacc.rdataL hdata
  | rtl8372 =>
    have hcases : a = INDACC_ADDR_H ∨ a = INDACC_ADDR_L ∨ a = INDACC_DATA_24 ∨
        a = INDACC_DATA_16 ∨ a = INDACC_DATA_8 ∨ a = INDACC_DATA_0 := by
      simpa [IsLatch, layout] using ha
    rcases hcases with rfl | rfl | rfl | rfl | rfl | rfl
    all_goals
      refine ⟨_, _, by decide, fun _ => rfl, ?_, ?_, fun _ _ => rfl⟩
      · rintro f g v ⟨hh, hl, hdata⟩
        refine ⟨?_, ?_, ?_⟩ <;> simp [Rtl8372.setIndacc, Function.update, hh, hl, hdata]
      · rintro f g ⟨hh, hl, hdata⟩
        first
          | exact hh
          | exact hl
          | exact congrArg Rtl8372.Indacc.data24 hdata
          | exact congrArg Rtl8372.Indacc.data16 hdata
          | exact congrArg Rtl8372.Indacc.data8 hdata
          | exact congrArg Rtl8372.Indacc.data0 hdata

/-! ## Commands -/

/-- What a command is for the port. -/
def command (x : Byte) : Op Byte Byte := if x = SFR_EXEC_READ_REG then .read else .write

/-- The globals show the state of the port. -/
structure Globals.Shows (chip : Chip) (s : State Byte Byte Word) (g : Globals chip.Indacc) :
    Prop where
  latched : chip.Latched s.latches g
  fits : s.Fits chip.layout
  regs : ∀ a, chip.PlainReg a → chip.regValue g a = ofBytes (s.regs a)

/-- The registers after one has been set are the old ones with its new value in place. -/
lemma regValue_store {chip : Chip} {regs : Word → List Byte} {g g' : Globals chip.Indacc} {a : Word}
    (h : ∀ b, chip.PlainReg b → chip.regValue g b = ofBytes (regs b))
    (bs : List Byte) (hg : g'.socRegs =
      Function.update g.socRegs (Rtl8367s.luaOfWord a) (some (ofBytes bs))) {b : Word}
    (hb : chip.PlainReg b) : chip.regValue g' b = ofBytes (Function.update regs a bs b) := by
  unfold regValue
  rw [hg]
  by_cases hba : b = a
  · rw [hba, Function.update_self, Function.update_self, Option.getD_some]
  · rw [Function.update_of_ne hba, Function.update_of_ne (Rtl8367s.luaOfWord_inj.not.2 hba)]
    exact h b hb

namespace Rtl8367s

/-- A command to a plain register of the RTL8367S does to the globals what the store does. -/
lemma command_shows {socRegs : LuaInt → Option LuaInt} {s : State Byte Byte Word} {g : G}
    (h : Globals.Shows (.rtl8367s socRegs) s g) {x : Byte}
    (hx : x = SFR_EXEC_READ_REG ∨ x = SFR_EXEC_WRITE_REG)
    (ha : PlainReg (indaccWord s.latches)) : ∃ g', indaccCommand x g = some g' ∧
      Globals.Shows (.rtl8367s socRegs) (s.step (Chip.rtl8367s socRegs).layout (command x)) g' := by
  obtain ⟨⟨hh, hl, hdata⟩, hfits, hregs⟩ := h
  have haddr : indaccAddr g = luaOfWord (indaccWord s.latches) := by
    rw [indaccAddr, hh, hl]
    exact luaOfWord_word _ _
  rcases hx with rfl | rfl
  · refine ⟨_, indaccCommand_read haddr ha, ⟨?_, hfits.step _, hregs⟩⟩
    obtain ⟨b1, b0, hvalue⟩ := List.length_eq_two.1 (hfits (indaccWord s.latches))
    have hread : (g.socRegs (luaOfWord (indaccWord s.latches))).getD 0xdead =
        ofBytes ([b1] ++ [b0]) := (hregs _ ha).trans (congrArg ofBytes hvalue)
    have hlatches : (s.step (Chip.rtl8367s socRegs).layout (command SFR_EXEC_READ_REG)).latches =
        deliver [INDACC_RDATA_H, INDACC_RDATA_L] [b1, b0] s.latches :=
      congrArg (deliver _ · _) hvalue
    rw [hread, hlatches]
    refine ⟨?_, ?_, ?_⟩
    · simp [deliver, withResult, Function.update, hh]
    · simp [deliver, withResult, Function.update, hl]
    · rw [withResult, ofBytes_concat_shift _ _ (by simp), ofBytes_concat_and, ofBytes_singleton,
        hdata]
      simp [deliver, Function.update]
  · refine ⟨_, indaccCommand_write haddr, ⟨⟨hh, hl, hdata⟩, hfits.step _, fun b hb => ?_⟩⟩
    refine regValue_store hregs [s.latches INDACC_WDATA_H, s.latches INDACC_WDATA_L] ?_ hb
    have hstored : indaccData g =
        ofBytes ([s.latches INDACC_WDATA_H] ++ [s.latches INDACC_WDATA_L]) := by
      rw [ofBytes_concat, ofBytes_singleton, indaccData, hdata]
    rw [withReg, hstored]
    rfl

end Rtl8367s

namespace Rtl8372

/-- The address in the address registers. -/
def indaccAddr (g : G) : LuaInt := g.indaccAddrH * 0x100 + g.indaccAddrL

/-- The value in the data registers. -/
def indaccData (g : G) : LuaInt :=
  g.indacc.data24 * 0x1000000 + g.indacc.data16 * 0x10000 + g.indacc.data8 * 0x100 + g.indacc.data0

/-- Set the data registers. -/
def withResult (v : LuaInt) (g : G) : G :=
  { g with indacc := ⟨v >>> 24, (v >>> 16) &&& 0xff, (v >>> 8) &&& 0xff, v &&& 0xff⟩ }

/-- Set a switch register. -/
def withReg (addr v : LuaInt) (g : G) : G :=
  { g with socRegs := Function.update g.socRegs addr (some (selfClearing addr v)) }

/-- What writing `INDACC_CMD` does. -/
def indaccCommand (x : Byte) (g : G) : G :=
  if x = SFR_EXEC_READ_REG then withResult ((g.socRegs (indaccAddr g)).getD 0xdeadbeef) g
  else if x = SFR_EXEC_WRITE_REG then withReg (indaccAddr g) (indaccData g) g
  else g

/-- The hook of the command register does what `indaccCommand` says, and only to the globals. -/
lemma run_sfrIndaccCmd (x : Byte) (bus : Bus G) (m : Machine G) :
    (sfrIndaccCmd true (luaOfByte x)).run (Machine.luaExec bus) m =
      some (0, m.setLua (indaccCommand x m.lua)) := by
  have hread : luaOfByte x = 1 ↔ x = SFR_EXEC_READ_REG := by
    revert x
    decide
  have hwrite : luaOfByte x = 3 ↔ x = SFR_EXEC_WRITE_REG := by
    revert x
    decide
  have hglobals : ∀ {α : Type} (f : G → LuaProg G α),
      (getGlobals >>= f).run (Machine.luaExec bus) m = (f m.lua).run (Machine.luaExec bus) m :=
    fun _ => rfl
  simp only [sfrIndaccCmd, indaccCommand, when, if_true, hread, hwrite, decide_eq_true_eq,
    Prog.run_bind, hglobals]
  by_cases h : x = SFR_EXEC_READ_REG
  · have hne : ¬x = SFR_EXEC_WRITE_REG := by
      rw [h]
      decide
    rw [if_pos h, if_pos h, if_neg hne]
    rfl
  · rw [if_neg h, if_neg h]
    split_ifs <;> rfl

/-- The registers that are plain do not clear themselves. -/
lemma selfClearing_of_plain {a : Word} (h : Chip.rtl8372.PlainReg a) (v : LuaInt) :
    selfClearing (Rtl8367s.luaOfWord a) v = v := by
  obtain ⟨h₁, h₂, h₃, h₄⟩ := h
  have hne : ∀ w : Word, a ≠ w → Rtl8367s.luaOfWord a ≠ Rtl8367s.luaOfWord w :=
    fun w hw => Rtl8367s.luaOfWord_inj.not.2 hw
  have hne₁ : Rtl8367s.luaOfWord a ≠ 0x0024 := hne _ h₁
  have hne₂ : Rtl8367s.luaOfWord a ≠ 0x5cac := hne _ h₂
  have hne₃ : Rtl8367s.luaOfWord a ≠ 0x53d4 := hne _ h₃
  have hne₄ : Rtl8367s.luaOfWord a ≠ 0x0f60 := hne _ h₄
  rw [selfClearing, if_neg hne₁, if_neg hne₂, if_neg hne₃, if_neg hne₄]

/-- The value that the script puts together is that of the four bytes in the data latches. -/
lemma indaccData_eq {f : Byte → Byte} {g : G} (h : Chip.rtl8372.Latched f g) :
    indaccData g = ofBytes (Chip.rtl8372.layout.source.map f) := by
  change _ = ofBytes ([f INDACC_DATA_24] ++ [f INDACC_DATA_16] ++ [f INDACC_DATA_8] ++
    [f INDACC_DATA_0])
  rw [indaccData, h.2.2, ofBytes_concat, ofBytes_concat, ofBytes_concat, ofBytes_singleton,
    BitVec.add_mul, BitVec.add_mul, BitVec.add_mul, BitVec.mul_assoc, BitVec.mul_assoc,
    BitVec.mul_assoc]
  rfl

/-- The RTL8372 takes the four bytes of a value out with shifts and masks. -/
lemma ofBytes_four (b3 b2 b1 b0 : Byte) {v : LuaInt} (hv : v = ofBytes [b3, b2, b1, b0]) :
    v >>> 24 = luaOfByte b3 ∧ (v >>> 16) &&& 0xff = luaOfByte b2 ∧
      (v >>> 8) &&& 0xff = luaOfByte b1 ∧ v &&& 0xff = luaOfByte b0 := by
  have h0 : v = ofBytes ([b3, b2, b1] ++ [b0]) := hv
  have h8 : v >>> 8 = ofBytes ([b3, b2] ++ [b1]) := by
    rw [h0, ofBytes_concat_shift _ _ (by simp)]
    rfl
  have h16 : v >>> 16 = ofBytes ([b3] ++ [b2]) := by
    rw [show 16 = 8 + 8 from rfl, BitVec.shiftRight_add, h8, ofBytes_concat_shift _ _ (by simp)]
    rfl
  have h24 : v >>> 24 = ofBytes [b3] := by
    rw [show 24 = 16 + 8 from rfl, BitVec.shiftRight_add, h16, ofBytes_concat_shift _ _ (by simp)]
  refine ⟨?_, ?_, ?_, ?_⟩
  · rw [h24, ofBytes_singleton]
  · rw [h16, ofBytes_concat_and]
  · rw [h8, ofBytes_concat_and]
  · rw [h0, ofBytes_concat_and]

/-- A command to a plain register of the RTL8372 does to the globals what the store does. -/
lemma command_shows {s : State Byte Byte Word} {g : G} (h : Globals.Shows .rtl8372 s g) {x : Byte}
    (hx : x = SFR_EXEC_READ_REG ∨ x = SFR_EXEC_WRITE_REG)
    (ha : Chip.rtl8372.PlainReg (indaccWord s.latches)) :
    Globals.Shows .rtl8372 (s.step Chip.rtl8372.layout (command x)) (indaccCommand x g) := by
  obtain ⟨⟨hh, hl, hdata⟩, hfits, hregs⟩ := h
  have haddr : indaccAddr g = Rtl8367s.luaOfWord (indaccWord s.latches) := by
    rw [indaccAddr, hh, hl]
    exact Rtl8367s.luaOfWord_word _ _
  rcases hx with rfl | rfl
  · refine ⟨?_, hfits.step _, hregs⟩
    obtain ⟨b3, b2, b1, b0, hvalue⟩ := List.length_eq_four.1 (hfits (indaccWord s.latches))
    have hread : (g.socRegs (indaccAddr g)).getD 0xdeadbeef = ofBytes [b3, b2, b1, b0] := by
      rw [haddr, ← hvalue]
      exact hregs _ ha
    obtain ⟨h3, h2, h1, h0⟩ := ofBytes_four b3 b2 b1 b0 hread
    have hlatches : (s.step Chip.rtl8372.layout (command SFR_EXEC_READ_REG)).latches =
        deliver [INDACC_DATA_24, INDACC_DATA_16, INDACC_DATA_8, INDACC_DATA_0] [b3, b2, b1, b0]
          s.latches := congrArg (deliver _ · _) hvalue
    rw [indaccCommand, if_pos rfl, hlatches]
    refine ⟨?_, ?_, ?_⟩
    · simp [deliver, withResult, Function.update, hh]
    · simp [deliver, withResult, Function.update, hl]
    · rw [withResult, h3, h2, h1, h0]
      simp [deliver, Function.update]
  · refine ⟨⟨hh, hl, hdata⟩, hfits.step _, fun b hb => ?_⟩
    refine regValue_store hregs (Chip.rtl8372.layout.source.map s.latches) ?_ hb
    rw [← indaccData_eq ⟨hh, hl, hdata⟩]
    change Function.update g.socRegs (indaccAddr g) (some (selfClearing (indaccAddr g) _)) = _
    rw [haddr, selfClearing_of_plain ha]
    rfl

end Rtl8372

end Chip

end Emu51

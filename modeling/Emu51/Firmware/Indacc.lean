import Emu51.Chip.SecondStack
import Emu51.Firmware.Listings
import Emu51.Firmware.Running

/-!
# Access to the switch registers

The hooks of `rtl8367s.lua` behind `INDACC_CMD` to `INDACC_RDATA_L` as a device, and the routines of
`hello.s` that read and write a switch register with it.
-/

namespace Emu51

open Chip Lua

/-! ## The hooks -/

namespace Chip.Rtl8367s

/-- The address in the address registers. -/
def indaccAddr (g : G) : LuaInt := g.indaccAddrH * 0x100 + g.indaccAddrL

/-- The value in the data registers for writing. -/
def indaccData (g : G) : LuaInt := g.indacc.wdataH * 0x100 + g.indacc.wdataL

/-- `socreg_read` with any function for `phyocp_read`, which is a global. -/
def socregReadWith (phyocp : LuaInt → LuaInt) (addr : LuaInt) : LuaProg G LuaInt := do
  let g ← getGlobals
  if (0x2000 : LuaInt).sle addr && addr.slt 0x3000 then
    match g.socRegs 0x1d15 with
    | none => error
    | some r =>
        let addr15_10 := (r &&& 0x3f) <<< 9
        let addr5_1 := addr &&& 0x1f
        let addr9_6 := (addr &&& 0xf00) >>> 3
        let addr := addr5_1 ||| addr9_6 ||| addr15_10
        pure (phyocp (addr <<< 1))
  else do
    let data := (g.socRegs addr).getD 0xdead
    -- this register is cleared by reading it
    when (addr = 0x1a04) (setGlobals { g with socRegs := Function.update g.socRegs addr (some 0) })
    pure data

/-- In the script the registers of the PHY are read with `phyocp_read`. -/
lemma socregRead_eq (addr : LuaInt) : socregRead addr = socregReadWith phyocpRead addr := rfl

/-- The address `socreg_read` passes to `phyocp_read`, where `r` is the register 0x1d15. -/
def ocpAddr (r addr : LuaInt) : LuaInt :=
  let addr15_10 := (r &&& 0x3f) <<< 9
  let addr5_1 := addr &&& 0x1f
  let addr9_6 := (addr &&& 0xf00) >>> 3
  (addr5_1 ||| addr9_6 ||| addr15_10) <<< 1

/-- What `socreg_read` returns, and the globals after it. -/
def socregValue (phyocp : LuaInt → LuaInt) (addr : LuaInt) (g : G) : Option (LuaInt × G) :=
  if (0x2000 : LuaInt).sle addr && addr.slt 0x3000 then
    (g.socRegs 0x1d15).map fun r => (phyocp (ocpAddr r addr), g)
  else some ((g.socRegs addr).getD 0xdead,
    if addr = 0x1a04 then { g with socRegs := Function.update g.socRegs addr (some 0) } else g)

/-- A register read gives the value and the globals that `socregValue` says, and changes nothing
else. -/
lemma run_socregReadWith (phyocp : LuaInt → LuaInt) (addr : LuaInt) (bus : Bus G) (m : Machine G) :
    (socregReadWith phyocp addr).run (Machine.luaExec bus) m =
      (socregValue phyocp addr m.lua).map fun y => (y.1, m.setLua y.2) := by
  rw [socregValue]
  change Prog.run _ (if _ then _ else _) m = _
  split_ifs with hphy hclear
  · change Prog.run _ (match m.lua.socRegs 0x1d15 with | none => _ | some r => _) m = _
    cases m.lua.socRegs 0x1d15 <;> rfl
  · rw [when, decide_eq_true hclear]
    rfl
  · rw [when, decide_eq_false hclear]
    rfl

/-- Set the data registers for reading. -/
def withResult (v : LuaInt) (g : G) : G :=
  { g with indacc := { g.indacc with rdataH := v >>> 8, rdataL := v &&& 0xff } }

/-- Set a switch register. -/
def withReg (addr v : LuaInt) (g : G) : G :=
  { g with socRegs := Function.update g.socRegs addr (some v) }

/-- What writing `INDACC_CMD` does. -/
def indaccCommand (x : Byte) (g : G) : Option G :=
  if x = SFR_EXEC_READ_REG then
    (socregValue phyocpRead (indaccAddr g) g).map fun y => withResult y.1 y.2
  else if x = SFR_EXEC_WRITE_REG then some (withReg (indaccAddr g) (indaccData g) g)
  else some g

/-- The hook of the command register does what `indaccCommand` says, and only to the globals. -/
lemma run_sfrIndaccCmd (x : Byte) (bus : Bus G) (m : Machine G) :
    (sfrIndaccCmd true (luaOfByte x)).run (Machine.luaExec bus) m =
      (indaccCommand x m.lua).map fun g => (0, m.setLua g) := by
  have hread : luaOfByte x = 1 ↔ x = SFR_EXEC_READ_REG := by
    revert x
    decide
  have hwrite : luaOfByte x = 3 ↔ x = SFR_EXEC_WRITE_REG := by
    revert x
    decide
  have hglobals : ∀ {α : Type} (f : G → LuaProg G α),
      (getGlobals >>= f).run (Machine.luaExec bus) m = (f m.lua).run (Machine.luaExec bus) m :=
    fun _ => rfl
  simp only [sfrIndaccCmd, indaccCommand, when, if_true, hread, hwrite, decide_eq_true_eq,
    socregRead_eq, Prog.run_bind, hglobals]
  by_cases h : x = SFR_EXEC_READ_REG
  · have hne : ¬x = SFR_EXEC_WRITE_REG := by
      rw [h]
      decide
    rw [if_pos h, if_pos h, if_neg hne, Prog.run_bind, run_socregReadWith]
    change ((((socregValue phyocpRead (indaccAddr m.lua) m.lua).map _).bind _).bind _).bind _ = _
    cases socregValue phyocpRead (indaccAddr m.lua) m.lua <;> rfl
  · rw [if_neg h, if_neg h]
    split_ifs <;> rfl

/-- The registers of `indacc`. -/
def indaccDevice : Device G where
  read a g :=
    if a = INDACC_CMD then some 0
    else if a = INDACC_STATUS then some 0
    else if a = INDACC_ADDR_H then some (byteOfLua g.indaccAddrH)
    else if a = INDACC_ADDR_L then some (byteOfLua g.indaccAddrL)
    else if a = INDACC_WDATA_H then some (byteOfLua g.indacc.wdataH)
    else if a = INDACC_WDATA_L then some (byteOfLua g.indacc.wdataL)
    else if a = INDACC_RDATA_H then some (byteOfLua g.indacc.rdataH)
    else if a = INDACC_RDATA_L then some (byteOfLua g.indacc.rdataL)
    else none
  write a x g :=
    let v := luaOfByte x
    if a = INDACC_CMD then indaccCommand x g
    else if a = INDACC_STATUS then some g
    else if a = INDACC_ADDR_H then some { g with indaccAddrH := v }
    else if a = INDACC_ADDR_L then some { g with indaccAddrL := v }
    else if a = INDACC_WDATA_H then some { g with indacc := { g.indacc with wdataH := v } }
    else if a = INDACC_WDATA_L then some { g with indacc := { g.indacc with wdataL := v } }
    else if a = INDACC_RDATA_H then some { g with indacc := { g.indacc with rdataH := v } }
    else if a = INDACC_RDATA_L then some { g with indacc := { g.indacc with rdataL := v } }
    else none

/-- The script of the RTL8367S behaves as the device does, for every table of registers. -/
theorem indaccDevice_models (socRegs : LuaInt → Option LuaInt) :
    indaccDevice.Models (script socRegs) where
  read {a g x} h := by
    unfold indaccDevice at h
    dsimp only at h
    split_ifs at h with h₀ h₁ h₂ h₃ h₄ h₅ h₆ h₇
    iterate 2
      · subst a
        obtain rfl := Option.some.inj h
        exact ⟨by decide, _, 0, rfl, rfl, fun _ _ _ _ => rfl⟩
    all_goals
      subst a
      obtain rfl := Option.some.inj h
      refine ⟨by decide, _, _, rfl, rfl, ?_⟩
      rintro bus m d rfl
      rfl
  write {a x g g'} h := by
    unfold indaccDevice at h
    dsimp only at h
    split_ifs at h with h₀ h₁ h₂ h₃ h₄ h₅ h₆ h₇
    · subst a
      refine ⟨by decide, _, 0, rfl, ?_⟩
      rintro bus m rfl
      rw [run_sfrIndaccCmd, h, Option.map_some]
    · subst a
      obtain rfl := Option.some.inj h
      refine ⟨by decide, _, 0, rfl, ?_⟩
      rintro bus m rfl
      rfl
    all_goals
      subst a
      obtain rfl := Option.some.inj h
      refine ⟨by decide, _, luaOfByte x, rfl, ?_⟩
      rintro bus m rfl
      rfl

/-! ## Registers -/

/-- A 16-bit value as a Lua integer. -/
def luaOfWord (w : Word) : LuaInt := w.setWidth 64

/-- Two bytes put together by Lua are the word with these halves. -/
lemma luaOfWord_word (h l : Byte) : luaOfByte h * 0x100 + luaOfByte l = luaOfWord (word h l) := by
  have hh := h.isLt
  have hl := l.isLt
  have hconst : (0x100 : LuaInt).toNat = 256 := rfl
  apply BitVec.eq_of_toNat_eq
  rw [luaOfWord, BitVec.toNat_add, BitVec.toNat_mul, toNat_luaOfByte, toNat_luaOfByte, hconst,
    BitVec.toNat_setWidth, toNat_word]
  omega

/-- The two halves of a word, put together by Lua, are the word. -/
lemma luaOfWord_halves (a : Word) : luaOfByte (hi a) * 0x100 + luaOfByte (lo a) = luaOfWord a := by
  rw [luaOfWord_word, word_hi_lo]

/-- A word handed to Lua and cut to 16 bits again is the same word. -/
lemma setWidth_luaOfWord (a : Word) : (luaOfWord a).setWidth 16 = a :=
  BitVec.setWidth_setWidth_of_le a (by decide)

/-- Different words are different Lua integers. -/
lemma luaOfWord_inj {a b : Word} : luaOfWord a = luaOfWord b ↔ a = b := by
  refine ⟨fun h => ?_, congrArg _⟩
  rw [← setWidth_luaOfWord a, h, setWidth_luaOfWord]

/-- The script's test for the window of the PHYs is a test of the word for `0x2000` to `0x2fff`. -/
lemma window_luaOfWord (a : Word) :
    ((0x2000 : LuaInt).sle (luaOfWord a) && (luaOfWord a).slt 0x3000) =
      (decide (0x2000 ≤ a) && decide (a < 0x3000)) := by
  have ha := a.isLt
  have hnat : (luaOfWord a).toNat = a.toNat := by
    rw [luaOfWord, BitVec.toNat_setWidth]
    omega
  have hvalue : (luaOfWord a).toInt = a.toNat := by
    rw [BitVec.toInt_eq_toNat_of_lt (by omega), hnat]
  have hsle : (0x2000 : LuaInt).sle (luaOfWord a) = decide (0x2000 ≤ a) := by
    refine decide_eq_decide.2 ?_
    rw [hvalue]
    exact Int.ofNat_le
  have hslt : (luaOfWord a).slt 0x3000 = decide (a < 0x3000) := by
    refine decide_eq_decide.2 ?_
    rw [hvalue]
    exact Int.ofNat_lt
  rw [hsle, hslt]

/-- The register is outside the window of the PHYs, and reading it has no effect on it. -/
structure PlainReg (a : Word) : Prop where
  window : a < 0x2000 ∨ 0x3000 ≤ a
  kept : a ≠ 0x1a04

/-- A register without a rule of its own reads as the table has it, or as `0xdead`, and reading it
has no effect. -/
lemma socregValue_of_plain {a : Word} (h : PlainReg a) (phyocp : LuaInt → LuaInt) (g : G) :
    socregValue phyocp (luaOfWord a) g = some ((g.socRegs (luaOfWord a)).getD 0xdead, g) := by
  have houtside : ((0x2000 : LuaInt).sle (luaOfWord a) && (luaOfWord a).slt 0x3000) = false := by
    rw [window_luaOfWord]
    rcases h.window with hlow | hhigh
    · rw [decide_eq_false (BitVec.not_le.2 hlow), Bool.false_and]
    · rw [decide_eq_false (BitVec.not_lt.2 hhigh), Bool.and_false]
  have hkept : luaOfWord a ≠ 0x1a04 := fun heq => h.kept (luaOfWord_inj.1 heq)
  rw [socregValue, houtside, if_neg Bool.false_ne_true, if_neg hkept]

/-- A read command at such a register puts its value into the result latches. -/
lemma indaccCommand_read {a : Word} {g : G} (haddr : indaccAddr g = luaOfWord a)
    (h : PlainReg a) : indaccCommand SFR_EXEC_READ_REG g =
      some (withResult ((g.socRegs (luaOfWord a)).getD 0xdead) g) := by
  rw [indaccCommand, if_pos rfl, haddr, socregValue_of_plain h]
  rfl

/-- A write command puts the two data latches into the register of the address. -/
lemma indaccCommand_write {a : Word} {g : G} (haddr : indaccAddr g = luaOfWord a) :
    indaccCommand SFR_EXEC_WRITE_REG g = some (withReg (luaOfWord a) (indaccData g) g) := by
  rw [indaccCommand, if_neg (by decide), if_pos rfl, haddr]

/-- The 16 bits of a switch register that a command reads. -/
def regWord (regs : LuaInt → Option LuaInt) (a : Word) : Word :=
  ((regs (luaOfWord a)).getD 0xdead).setWidth 16

/-- Set the address registers. -/
def withAddr (h l : Byte) (g : G) : G :=
  { g with indaccAddrH := luaOfByte h, indaccAddrL := luaOfByte l }

/-- Set the upper data register for writing. -/
def withDataH (x : Byte) (g : G) : G := { g with indacc := { g.indacc with wdataH := luaOfByte x } }

/-- Set the lower data register for writing. -/
def withDataL (x : Byte) (g : G) : G := { g with indacc := { g.indacc with wdataL := luaOfByte x } }

end Chip.Rtl8367s

/-! ## Routines -/

namespace Switch

open Chip.Rtl8367s

/-- A step of the listing. -/
abbrev step (m : Machine G) (w : Bool) : Config G → Option (Config G) :=
  Config.step (m.scope indaccDevice w 4) regListing.code

/-- The position of a label. -/
abbrev place (l : RegLabel) : Option ℕ := some (regListing.pos l)

variable (m : Machine G) (w : Bool) (s : Regs G) (q : Option ℕ) (k : List Slot) (n : ℕ)

/-- The accumulator, `B` and the flags may have changed. -/
structure Leaves (s : Regs G) (dptr : Word) (g : G) (s' : Regs G) : Prop where
  dptr : s'.dptr = dptr
  r : s'.r = s.r
  lua : s'.lua = g

/-- One stretch of code after another leaves what the second one leaves. -/
lemma Leaves.trans {s s₁ s' : Regs G} {d d' : Word} {g g' : G} (h : Leaves s d g s₁)
    (h' : Leaves s₁ d' g' s') : Leaves s d' g' s' := ⟨h'.dptr, h'.r.trans h.r, h'.lua⟩

/-- `reg_status_loop` waits for nothing: the status is always zero. -/
lemma regStatusLoop : ∃ s', Leads (step m w) ⟨place .regStatusLoop, s, .ret q :: k, n⟩
    ⟨q, s', k, n + 2⟩ ∧ Leaves s s.dptr s.lua s' := by
  have hstatus : stepIter (step m w) 1 ⟨place .regStatusLoop, s, .ret q :: k, n⟩ =
      some ⟨some (regListing.pos .regStatusLoop + 1), { s with acc := 0 }, .ret q :: k, n⟩ := rfl
  have htest : ∀ t : Regs G, stepIter (step m w) 1
      ⟨some (regListing.pos .regStatusLoop + 1), t, .ret q :: k, n⟩ =
        some ⟨some (if (aluCmp t.acc 0 t.psw).1 ≠ 0 then regListing.pos .regStatusLoop
          else regListing.pos .regStatusLoop + 2), { t with psw := (aluCmp t.acc 0 t.psw).2 },
          .ret q :: k, n⟩ := fun _ => rfl
  have hret : ∀ t : Regs G, stepIter (step m w) 1
      ⟨some (regListing.pos .regStatusLoop + 2), t, .ret q :: k, n⟩ = some ⟨q, t, k, n + 2⟩ :=
    fun _ => rfl
  have hzero : (aluCmp 0 0 s.psw).1 = 0 := rfl
  have hready := htest { s with acc := 0 }
  dsimp only at hready
  rw [if_neg (not_not.2 hzero)] at hready
  exact ⟨_, (Leads.of_iter hstatus).trans ((Leads.of_iter hready).trans (.of_iter (hret _))),
    rfl, rfl, rfl⟩

/-- A command that succeeds gives the script its new globals and goes on behind it. -/
lemma step_command {p : ℕ} {x : Byte} {g : G}
    (hinsn : regListing.code[p]? = some (.movDirImm INDACC_CMD x))
    (hg : indaccCommand x s.lua = some g) :
    step m w ⟨some p, s, k, n⟩ = some ⟨some (p + 1), { s with lua := g }, k, n⟩ := by
  have heval : Config.exec (m.scope indaccDevice w 4) ⟨some p, s, k, n⟩ (p + 1)
      (.movDirImm INDACC_CMD x) = ((((indaccCommand x s.lua).map fun g => { s with lua := g }).map
        fun s' => (s', p + 1)).map fun y => ⟨some y.2, y.1, k, n⟩) := rfl
  rw [hg] at heval
  rw [step, Config.step]
  dsimp only
  rw [hinsn]
  exact heval

/-- `reg_read` puts what `socreg_read` returns into the data registers. -/
lemma regReadValue {a : Word} {v : LuaInt} {g : G} (ha : s.dptr = a)
    (hv : socregValue phyocpRead (luaOfWord a) (withAddr s.dph s.dpl s.lua) = some (v, g)) :
    ∃ s', Leads (step m w) ⟨place .regRead, s, .ret q :: k, n⟩ ⟨q, s', k, n + 2⟩ ∧
      Leaves s a (withResult v g) s' := by
  have haddr : stepIter (step m w) 2 ⟨place .regRead, s, .ret q :: k, n⟩ =
      some ⟨some (regListing.pos .regRead + 2), { s with lua := withAddr s.dph s.dpl s.lua },
        .ret q :: k, n⟩ := rfl
  have hcommand : indaccCommand SFR_EXEC_READ_REG (withAddr s.dph s.dpl s.lua) =
      some (withResult v g) := by
    have hword : indaccAddr (withAddr s.dph s.dpl s.lua) = luaOfWord a := by
      rw [← ha]
      exact luaOfWord_word ..
    rw [indaccCommand, if_pos rfl, hword, hv]
    rfl
  have hread := step_command m w { s with lua := withAddr s.dph s.dpl s.lua } (.ret q :: k) n
    (p := regListing.pos .regRead + 2) rfl hcommand
  obtain ⟨s', hloop, hleaves⟩ := regStatusLoop m w _ q k n
  exact ⟨s', (Leads.of_iter haddr).trans ((Leads.single hread).trans hloop),
    hleaves.dptr.trans ha, hleaves.r, hleaves.lua⟩

/-- `reg_read` puts the register `DPTR` into the data registers. -/
lemma regRead {a : Word} (ha : s.dptr = a) (h : PlainReg a) :
    ∃ s', Leads (step m w) ⟨place .regRead, s, .ret q :: k, n⟩ ⟨q, s', k, n + 2⟩ ∧
      Leaves s a (withResult ((s.lua.socRegs (luaOfWord a)).getD 0xdead)
        (withAddr s.dph s.dpl s.lua)) s' :=
  regReadValue m w s q k n ha (socregValue_of_plain h ..)

/-- `reg_write` stores the data registers in the register `DPTR`. -/
lemma regWrite {a : Word} (ha : s.dptr = a) :
    ∃ s', Leads (step m w) ⟨place .regWrite, s, .ret q :: k, n⟩ ⟨q, s', k, n + 2⟩ ∧
      Leaves s a (withReg (luaOfWord a) (indaccData s.lua) (withAddr s.dph s.dpl s.lua)) s' := by
  have haddr : stepIter (step m w) 2 ⟨place .regWrite, s, .ret q :: k, n⟩ =
      some ⟨some (regListing.pos .regWrite + 2), { s with lua := withAddr s.dph s.dpl s.lua },
        .ret q :: k, n⟩ := rfl
  have hwrite := step_command m w { s with lua := withAddr s.dph s.dpl s.lua } (.ret q :: k) n
    (p := regListing.pos .regWrite + 2) rfl
    (indaccCommand_write (a := a) (by rw [← ha]; exact luaOfWord_word ..))
  have hjump : ∀ t : Regs G, stepIter (step m w) 1
      ⟨some (regListing.pos .regWrite + 3), t, .ret q :: k, n⟩ =
        some ⟨place .regStatusLoop, t, .ret q :: k, n⟩ := fun _ => rfl
  obtain ⟨s', hloop, hleaves⟩ := regStatusLoop m w _ q k n
  exact ⟨s', (Leads.of_iter haddr).trans ((Leads.single hwrite).trans
    ((Leads.of_iter (hjump _)).trans hloop)), hleaves.dptr.trans ha, hleaves.r, hleaves.lua⟩

end Switch

end Emu51

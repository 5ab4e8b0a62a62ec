import Emu51.Firmware.Frame
import Emu51.Firmware.Linking
import Emu51.Firmware.PhyOcp

/-!
# Port initialisation

`port_init_eee` sets four bits of a register of the port. `port_init_phyocp` works on three
registers of its PHY, of which it leaves two alone on some chips. What either does to the switch
registers is known for every port and whatever the registers hold.
-/

namespace Emu51

open Chip Chip.Rtl8367s

/-! ## Sums and masks -/

/-- `add` of the low bytes and then `addc` of the high bytes add two words. -/
lemma word_aluAdd (a b : Word) (p : Byte) :
    word (aluAddc (hi a) (hi b) (aluAdd (lo a) (lo b) p).2).1 (aluAdd (lo a) (lo b) p).1 =
      a + b := by
  have hlow := aluAddc_value (lo a) (lo b) (p &&& ~~~PSW_C)
  rw [carryIn_clear] at hlow
  have hhigh := aluAddc_value (hi a) (hi b) (aluAdd (lo a) (lo b) p).2
  have hlt := (aluAddc (hi a) (hi b) (aluAdd (lo a) (lo b) p).2).1.isLt
  rw [aluAdd] at hhigh hlt ⊢
  rw [toNat_lo, toNat_lo] at hlow
  rw [toNat_hi, toNat_hi] at hhigh
  apply BitVec.eq_of_toNat_eq
  rw [toNat_word, BitVec.toNat_add]
  omega

namespace Switch

variable (m : Machine G) (w : Bool) (s : Regs G) (q : Option ℕ) (k : List Slot) (n : ℕ)

/-! ## Routines of a program -/

/-- What `reg_read` and `reg_write` do in a program that has them. -/
lemma links {whole : List (Insn ℕ)} {o depth : ℕ} (P : ℕ → Prop) [DecidablePred P]
    (hlinked : Linked regListing.code o whole) (hP : ∀ p < regListing.code.length, P (p + o))
    {l : RegLabel} {s s' : Regs G} {n n' : ℕ}
    (h : Leads (step m true) ⟨place l, s, [.ret none], n⟩ ⟨none, s', [], n'⟩) :
    Leads (Config.stepOn P (m.scope indaccDevice true depth) whole)
      ⟨some (regListing.pos l + o), s, .ret q :: k, n⟩ ⟨q, s', k, n'⟩ ∧
        s'.out = s.out ∧ s'.r 7 = s.r 7 := by
  have hquiet : ∀ i ∈ regListing.code, i.target ≠ some SBUF := by decide +kernel
  have hseven : ∀ i ∈ regListing.code, i.regTarget ≠ some 7 := by decide +kernel
  have hscope : (m.scope indaccDevice true 4).Le (m.scope indaccDevice true depth) :=
    ⟨rfl, rfl, .refl _, id⟩
  exact ⟨Leads.link hscope hlinked hP h q k, Leads.out_eq hquiet h, Leads.r_eq hseven h⟩

/-! ## `port_init_eee` -/

/-- The register of a port. -/
def eeeReg (port : Byte) : Word := RTL8367_0018_PORT0_EEECFG + port.setWidth 16 * 0x20

/-- The register for the energy-efficient mode of a port is one without a rule of its own. -/
lemma eeeReg_plain (port : Byte) : PlainReg (eeeReg port) := by
  have hall : ∀ x : Byte, eeeReg x < 0x2000 ∧ eeeReg x ≠ 0x1a04 := by decide
  exact ⟨.inl (hall port).1, (hall port).2⟩

/-- The routine reads the register, sets the bits and writes it. -/
lemma portInitEee : ∃ s', Leads (step m true) ⟨place .portInitEee, s, .ret q :: k, n + 2⟩
    ⟨q, s', k, n + 4⟩ ∧ s'.lua.socRegs = Function.update s.lua.socRegs (luaOfWord (eeeReg (s.r 7)))
      (some (luaOfWord (regWord s.lua.socRegs (eeeReg (s.r 7)) ||| 0x0f00))) := by
  set a := eeeReg (s.r 7) with ha
  set prod : Word := (s.r 7).setWidth 16 * BitVec.setWidth 16 (0x20 : Byte) with hprod
  set y := aluAdd (lo RTL8367_0018_PORT0_EEECFG) (lo prod) (Ops.mulPsw s.psw (hi prod)) with hy
  set z := aluAddc (hi RTL8367_0018_PORT0_EEECFG) (hi prod) y.2 with hz
  set s₁ : Regs G := { s with
    acc := z.1
    b := hi prod
    psw := z.2
    dpl := y.1
    dph := z.1 } with hs₁
  have haddr : stepIter (step m true) 14 ⟨place .portInitEee, s, .ret q :: k, n + 2⟩ =
      some ⟨place .regRead, s₁, .ret (some (regListing.pos .portInitEee + 14)) :: .ret q :: k,
        n⟩ := rfl
  have hword : s₁.dptr = a := word_aluAdd ..
  obtain ⟨s₂, hlead₂, h₂⟩ := regRead m true s₁ (some (regListing.pos .portInitEee + 14))
    (.ret q :: k) n hword (eeeReg_plain _)
  set x := byteOfLua s₂.lua.indacc.rdataH with hx
  set s₃ : Regs G := { s₂ with
    acc := byteOfLua s₂.lua.indacc.rdataL
    lua := withDataL (byteOfLua s₂.lua.indacc.rdataL) (withDataH (x ||| 0x0f) s₂.lua) } with hs₃
  have hmask : stepIter (step m true) 6
      ⟨some (regListing.pos .portInitEee + 14), s₂, .ret q :: k, n + 2⟩ =
        some ⟨place .regWrite, s₃, .ret (some (regListing.pos .portInitEee + 20)) :: .ret q :: k,
          n⟩ := rfl
  obtain ⟨s₄, hlead₄, h₄⟩ := regWrite m true s₃ (some (regListing.pos .portInitEee + 20))
    (.ret q :: k) n (a := a) h₂.dptr
  have hret : stepIter (step m true) 1
      ⟨some (regListing.pos .portInitEee + 20), s₄, .ret q :: k, n + 2⟩ =
        some ⟨q, s₄, k, n + 4⟩ := rfl
  refine ⟨s₄, (Leads.of_iter haddr).trans (hlead₂.trans ((Leads.of_iter hmask).trans
    (hlead₄.trans (.of_iter hret)))), ?_⟩
  have hhigh : x = hi (regWord s.lua.socRegs a) := by
    rw [hx, h₂.lua]
    exact byteOfLua_high _
  have hlow : byteOfLua s₂.lua.indacc.rdataL = lo (regWord s.lua.socRegs a) := by
    rw [h₂.lua]
    exact byteOfLua_low _
  have hdata : indaccData s₃.lua = luaOfWord (regWord s.lua.socRegs a ||| 0x0f00) := by
    have hhalves : word (x ||| 0x0f) (byteOfLua s₂.lua.indacc.rdataL) =
        regWord s.lua.socRegs a ||| 0x0f00 := by
      rw [hhigh, hlow]
      apply BitVec.eq_of_getLsbD_eq
      intro i hi
      interval_cases i <;> simp [word, Emu51.hi, lo]
    rw [← hhalves]
    exact luaOfWord_word ..
  have hkept : s₃.lua.socRegs = s.lua.socRegs := by
    have hkept₂ : s₂.lua.socRegs = s.lua.socRegs := by
      rw [h₂.lua]
      rfl
    exact hkept₂
  rw [h₄.lua, hdata, ← hkept]
  rfl

end Switch

/-! ## `port_init_phyocp` -/

/-- The labels from `reg_read` to `port_init_phyocp_exit`. -/
inductive PortLabel where
  | reg (l : RegLabel)
  | portInitPhyocp | portInitPhyocpExit
  deriving DecidableEq

abbrev RTL8367_1301_CHIP_VER : Word := 0x1301
abbrev RTL8367_13C2_RTL_MAGIC_ID : Word := 0x13c2

open PortLabel RegLabel Insn in
/-- The listing in `hello.s`. -/
def portListing : Listing PortLabel :=
  regListing.relabel reg ++ [
  (portInitPhyocp, [
    movDptr 0xa428,
    acall (reg phyocpRegAddr),
    acall (reg regRead),
    movA (.dir INDACC_RDATA_H),
    alu .anl (.imm 0xfd),
    movDirA INDACC_WDATA_H,
    movA (.dir INDACC_RDATA_L),
    movDirA INDACC_WDATA_L,
    acall (reg regWrite),
    movDptr RTL8367_13C2_RTL_MAGIC_ID,
    movDirImm INDACC_WDATA_H 0x02,
    movDirImm INDACC_WDATA_L 0x49,
    acall (reg regWrite),
    movDptr RTL8367_1301_CHIP_VER,
    acall (reg regRead),
    movA (.dir INDACC_RDATA_L),
    alu .anl (.imm 0xf0),
    cjneA 0xa0 portInitPhyocpExit,
    movDptr 0xa5d0,
    acall (reg phyocpRegAddr),
    acall (reg regRead),
    movA (.dir INDACC_RDATA_H),
    movDirA INDACC_WDATA_H,
    movA (.dir INDACC_RDATA_L),
    alu .orl (.imm 0x06),
    movDirA INDACC_WDATA_L,
    acall (reg regWrite),
    movDptr 0xa400,
    acall (reg phyocpRegAddr),
    acall (reg regRead),
    movA (.dir INDACC_RDATA_H),
    alu .anl (.imm 0xf7),
    alu .orl (.imm 0x02),
    movDirA INDACC_WDATA_H,
    movA (.dir INDACC_RDATA_L),
    movDirA INDACC_WDATA_L,
    acall (reg regWrite)]),
  (portInitPhyocpExit, [
    ret])]

/-- It can be assembled. -/
example : (assemble portListing.code 0).isSome := by decide +kernel

namespace Switch

variable (m : Machine G) (s : Regs G) (q : Option ℕ) (k : List Slot) (n : ℕ)

/-- A step of the listing. -/
abbrev stepPort (m : Machine G) : Config G → Option (Config G) :=
  Config.stepOn (fun _ => True) (m.scope indaccDevice true 6) portListing.code

/-- The listing of the routines for the registers has all the labels there are. -/
lemma mem_labels (l : RegLabel) : l ∈ regListing.map Prod.fst := by
  cases l <;> decide

/-- The routines that come before it are where they were, at the start of the listing. -/
lemma linked_port : Linked regListing.code 0 portListing.code :=
  Listing.linked (f := PortLabel.reg) (fun _ _ h => PortLabel.reg.inj h) mem_labels [] _
    fun _ => List.not_mem_nil

/-- What changing a register of the PHY does to the switch registers: the register is read through
the window of the PHYs, but written in the table. -/
def withPhy (port : Byte) (a v : Word) (regs : LuaInt → Option LuaInt) : LuaInt → Option LuaInt :=
  Function.update (Function.update regs 0x1d15 (some (luaOfWord (ocpMsb (regWord regs 0x1d15) a))))
    (luaOfWord (phyReg a port)) (some (luaOfWord v))

/-- In the window `socreg_read` asks `phyocp_read`, for the address the routine has taken apart. -/
lemma socregValue_phyReg {a x : Word} {port : Byte} (heven : a.toNat % 2 = 0) {g : G}
    (hx : g.socRegs 0x1d15 = some (luaOfWord (ocpMsb x a))) (phyocp : LuaInt → LuaInt) :
    socregValue phyocp (luaOfWord (phyReg a port)) g = some (phyocp (luaOfWord a), g) := by
  have hwindow := phyReg_window a port
  rw [socregValue, window_luaOfWord, decide_eq_true hwindow.1, decide_eq_true hwindow.2,
    Bool.and_self, if_pos rfl, hx, Option.map_some, ocpAddr_phyReg x port heven]

/-- A register of the PHY is read, the instructions at `p + 2` compute its new value, and it is
written. -/
lemma modifyPhy {p c : ℕ} {a v : Word} (ha : s.dptr = a) (heven : a.toNat % 2 = 0)
    (hport : s.r 7 ≤ 7)
    (haddr : stepIter (stepPort m) 1 ⟨some p, s, k, n + 4⟩ =
      some ⟨some (portListing.pos (.reg .phyocpRegAddr)), s, .ret (some (p + 1)) :: k, n + 2⟩)
    (hread : ∀ t : Regs G, stepIter (stepPort m) 1 ⟨some (p + 1), t, k, n + 4⟩ =
      some ⟨some (portListing.pos (.reg .regRead)), t, .ret (some (p + 2)) :: k, n + 2⟩)
    (hchange : ∀ t : Regs G, byteOfLua t.lua.indacc.rdataH = 0xde →
      byteOfLua t.lua.indacc.rdataL = 0xad → ∃ x y, stepIter (stepPort m) c
        ⟨some (p + 2), t, k, n + 4⟩ = some ⟨some (portListing.pos (.reg .regWrite)), { t with
          acc := x
          psw := y
          lua := withDataL (lo v) (withDataH (hi v) t.lua) },
          .ret (some (p + 2 + c)) :: k, n + 2⟩) :
    ∃ s', Leads (stepPort m) ⟨some p, s, k, n + 4⟩ ⟨some (p + 2 + c), s', k, n + 4⟩ ∧
      s'.r 7 = s.r 7 ∧ s'.out = s.out ∧ s'.lua.socRegs = withPhy (s.r 7) a v s.lua.socRegs := by
  have hon : ∀ p < regListing.code.length, True := fun _ _ => trivial
  obtain ⟨s₁, hlead₁, hdptr₁, hregs₁⟩ := phyocpRegAddr_fields m s [] n hport none
  obtain ⟨hlink₁, hout₁, hr₁⟩ := links m (some (p + 1)) k (fun _ => True) linked_port hon hlead₁
  rw [ha] at hdptr₁ hregs₁
  have hvalue : socregValue phyocpRead (luaOfWord s₁.dptr) (withAddr s₁.dph s₁.dpl s₁.lua) =
      some (0xdead, withAddr s₁.dph s₁.dpl s₁.lua) := by
    rw [hdptr₁]
    refine socregValue_phyReg heven (x := regWord s.lua.socRegs 0x1d15) ?_ phyocpRead
    exact (congrFun hregs₁ _).trans (Function.update_self ..)
  obtain ⟨s₂, hlead₂, h₂⟩ := regReadValue m true s₁ none [] (n + 2) rfl hvalue
  obtain ⟨hlink₂, hout₂, hr₂⟩ := links m (some (p + 2)) k (fun _ => True) linked_port hon hlead₂
  obtain ⟨x, y, hiter⟩ := hchange s₂ (by rw [h₂.lua]; rfl) (by rw [h₂.lua]; rfl)
  obtain ⟨s₃, hlead₃, h₃⟩ := regWrite m true { s₂ with
    acc := x
    psw := y
    lua := withDataL (lo v) (withDataH (hi v) s₂.lua) } none [] (n + 2) h₂.dptr
  obtain ⟨hlink₃, hout₃, hr₃⟩ := links m (some (p + 2 + c)) k (fun _ => True) linked_port hon hlead₃
  refine ⟨s₃, (Leads.of_iter haddr).trans (hlink₁.trans ((Leads.of_iter (hread s₁)).trans
    (hlink₂.trans ((Leads.of_iter hiter).trans hlink₃)))), ?_, ?_, ?_⟩
  · exact hr₃.trans (hr₂.trans hr₁)
  · exact hout₃.trans (hout₂.trans hout₁)
  · have hdata : indaccData (withDataL (lo v) (withDataH (hi v) s₂.lua)) = luaOfWord v :=
      luaOfWord_halves v
    rw [h₃.lua, hdata, hdptr₁, withPhy, ← hregs₁, h₂.lua]
    rfl

/-- Write the magic number. -/
def withMagic (regs : LuaInt → Option LuaInt) : LuaInt → Option LuaInt :=
  Function.update regs (luaOfWord RTL8367_13C2_RTL_MAGIC_ID) (some (luaOfWord 0x0249))

/-- What the routine makes of the switch registers. -/
def phyocpInit (port : Byte) (regs : LuaInt → Option LuaInt) : LuaInt → Option LuaInt :=
  let first := withMagic (withPhy port 0xa428 0xdcad regs)
  if lo (regWord regs RTL8367_1301_CHIP_VER) &&& 0xf0 = 0xa0 then
    withPhy port 0xa400 0xd6ad (withPhy port 0xa5d0 0xdeaf first)
  else first

/-- The chip version is none of the registers that have been written before it is read. -/
lemma regWord_chipVer (port : Byte) (regs : LuaInt → Option LuaInt) :
    regWord (withMagic (withPhy port 0xa428 0xdcad regs)) RTL8367_1301_CHIP_VER =
      regWord regs RTL8367_1301_CHIP_VER := by
  have hmagic : luaOfWord RTL8367_1301_CHIP_VER ≠ luaOfWord RTL8367_13C2_RTL_MAGIC_ID := by
    rw [Ne, luaOfWord_inj]
    decide
  have hphy : luaOfWord RTL8367_1301_CHIP_VER ≠ luaOfWord (phyReg 0xa428 port) := by
    rw [Ne, luaOfWord_inj]
    intro heq
    have hlow := (phyReg_window 0xa428 port).1
    rw [← heq] at hlow
    exact absurd hlow (by decide)
  have hmsb : luaOfWord RTL8367_1301_CHIP_VER ≠ 0x1d15 := by decide
  rw [regWord, regWord, withMagic, withPhy, Function.update_of_ne hmagic,
    Function.update_of_ne hphy, Function.update_of_ne hmsb]

/-- The magic number is written and the chip version is read. -/
lemma portInitChip : ∃ s', Leads (stepPort m)
    ⟨some (portListing.pos .portInitPhyocp + 9), s, k, n + 4⟩
    ⟨some (if lo (regWord (withMagic s.lua.socRegs) RTL8367_1301_CHIP_VER) &&& 0xf0 = 0xa0
      then portListing.pos .portInitPhyocp + 18 else portListing.pos .portInitPhyocpExit), s', k,
      n + 4⟩ ∧
        s'.r 7 = s.r 7 ∧ s'.out = s.out ∧ s'.lua.socRegs = withMagic s.lua.socRegs := by
  have hon : ∀ p < regListing.code.length, True := fun _ _ => trivial
  set s₁ : Regs G := { s with
    dph := hi RTL8367_13C2_RTL_MAGIC_ID
    dpl := lo RTL8367_13C2_RTL_MAGIC_ID
    lua := withDataL 0x49 (withDataH 0x02 s.lua) } with hs₁
  have hmagic : stepIter (stepPort m) 4
      ⟨some (portListing.pos .portInitPhyocp + 9), s, k, n + 4⟩ =
        some ⟨some (portListing.pos (.reg .regWrite)), s₁,
          .ret (some (portListing.pos .portInitPhyocp + 13)) :: k, n + 2⟩ := rfl
  obtain ⟨s₂, hlead₂, h₂⟩ := regWrite m true s₁ none [] (n + 2)
    (a := RTL8367_13C2_RTL_MAGIC_ID) (word_hi_lo _)
  obtain ⟨hlink₂, hout₂, hr₂⟩ := links m (some (portListing.pos .portInitPhyocp + 13)) k
    (fun _ => True) linked_port hon hlead₂
  set s₃ : Regs G := { s₂ with
    dph := hi RTL8367_1301_CHIP_VER
    dpl := lo RTL8367_1301_CHIP_VER } with hs₃
  have hversion : stepIter (stepPort m) 2
      ⟨some (portListing.pos .portInitPhyocp + 13), s₂, k, n + 4⟩ =
        some ⟨some (portListing.pos (.reg .regRead)), s₃,
          .ret (some (portListing.pos .portInitPhyocp + 15)) :: k, n + 2⟩ := rfl
  obtain ⟨s₄, hlead₄, h₄⟩ := regRead m true s₃ none [] (n + 2)
    (a := RTL8367_1301_CHIP_VER) (word_hi_lo _) ⟨.inl (by decide), by decide⟩
  obtain ⟨hlink₄, hout₄, hr₄⟩ := links m (some (portListing.pos .portInitPhyocp + 15)) k
    (fun _ => True) linked_port hon hlead₄
  set x := byteOfLua s₄.lua.indacc.rdataL &&& 0xf0 with hx
  have htest : stepIter (stepPort m) 3
      ⟨some (portListing.pos .portInitPhyocp + 15), s₄, k, n + 4⟩ =
        some ⟨some (if (aluCmp x 0xa0 s₄.psw).1 ≠ 0 then portListing.pos .portInitPhyocpExit
          else portListing.pos .portInitPhyocp + 18),
          { s₄ with acc := x, psw := (aluCmp x 0xa0 s₄.psw).2 }, k, n + 4⟩ := rfl
  have hregs₂ : s₂.lua.socRegs = withMagic s.lua.socRegs := by
    have hdata : indaccData s₁.lua = luaOfWord 0x0249 := luaOfWord_halves 0x0249
    rw [h₂.lua, hdata]
    rfl
  have hbyte : x =
      lo (regWord (withMagic s.lua.socRegs) RTL8367_1301_CHIP_VER) &&& 0xf0 := by
    rw [hx, h₄.lua, ← hregs₂]
    exact congrArg (· &&& (0xf0 : Byte)) (byteOfLua_low _)
  have hequal : (aluCmp x 0xa0 s₄.psw).1 = 0 ↔ x = 0xa0 := by
    have hall : ∀ y : Byte, y - 0xa0 = 0 ↔ y = 0xa0 := by decide
    exact hall x
  rw [ite_not, if_congr hequal rfl rfl, hbyte] at htest
  refine ⟨_, (Leads.of_iter hmagic).trans (hlink₂.trans ((Leads.of_iter hversion).trans
    (hlink₄.trans (.of_iter htest)))), hr₄.trans hr₂, hout₄.trans hout₂, ?_⟩
  rw [← hregs₂, h₄.lua]
  rfl

/-- The first register of the PHY: a bit is cleared. -/
lemma portInitFirst (hport : s.r 7 ≤ 7) : ∃ s', Leads (stepPort m)
    ⟨some (portListing.pos .portInitPhyocp), s, k, n + 4⟩
    ⟨some (portListing.pos .portInitPhyocp + 9), s', k, n + 4⟩ ∧ s'.r 7 = s.r 7 ∧
      s'.out = s.out ∧ s'.lua.socRegs = withPhy (s.r 7) 0xa428 0xdcad s.lua.socRegs := by
  set s₁ : Regs G := { s with dph := hi 0xa428, dpl := lo 0xa428 }
  have hdptr : stepIter (stepPort m) 1 ⟨some (portListing.pos .portInitPhyocp), s, k, n + 4⟩ =
      some ⟨some (portListing.pos .portInitPhyocp + 1), s₁, k, n + 4⟩ := rfl
  obtain ⟨s', hlead, h⟩ := modifyPhy m s₁ k n (p := portListing.pos .portInitPhyocp + 1) (c := 6)
    (v := 0xdcad) (word_hi_lo _) (by decide) hport rfl (fun _ => rfl) (fun t hhigh hlow => by
      have hiter : stepIter (stepPort m) 6
          ⟨some (portListing.pos .portInitPhyocp + 3), t, k, n + 4⟩ =
            some ⟨some (portListing.pos (.reg .regWrite)), { t with
              acc := byteOfLua t.lua.indacc.rdataL
              lua := withDataL (byteOfLua t.lua.indacc.rdataL)
                (withDataH (byteOfLua t.lua.indacc.rdataH &&& 0xfd) t.lua) },
              .ret (some (portListing.pos .portInitPhyocp + 9)) :: k, n + 2⟩ := rfl
      rw [hhigh, hlow] at hiter
      exact ⟨_, _, hiter⟩)
  exact ⟨s', (Leads.of_iter hdptr).trans hlead, h⟩

/-- The second and the third one, for some chips. -/
lemma portInitRest (hport : s.r 7 ≤ 7) : ∃ s', Leads (stepPort m)
    ⟨some (portListing.pos .portInitPhyocp + 18), s, k, n + 4⟩
    ⟨some (portListing.pos .portInitPhyocpExit), s', k, n + 4⟩ ∧ s'.out = s.out ∧
      s'.lua.socRegs =
        withPhy (s.r 7) 0xa400 0xd6ad (withPhy (s.r 7) 0xa5d0 0xdeaf s.lua.socRegs) := by
  set s₁ : Regs G := { s with dph := hi 0xa5d0, dpl := lo 0xa5d0 }
  have hdptr : stepIter (stepPort m) 1
      ⟨some (portListing.pos .portInitPhyocp + 18), s, k, n + 4⟩ =
        some ⟨some (portListing.pos .portInitPhyocp + 19), s₁, k, n + 4⟩ := rfl
  obtain ⟨s₂, hlead₂, hr₂, hout₂, hregs₂⟩ := modifyPhy m s₁ k n
    (p := portListing.pos .portInitPhyocp + 19) (c := 6) (v := 0xdeaf) (word_hi_lo _) (by decide)
    hport rfl (fun _ => rfl) (fun t hhigh hlow => by
      have hiter : stepIter (stepPort m) 6
          ⟨some (portListing.pos .portInitPhyocp + 21), t, k, n + 4⟩ =
            some ⟨some (portListing.pos (.reg .regWrite)), { t with
              acc := byteOfLua t.lua.indacc.rdataL ||| 0x06
              lua := withDataL (byteOfLua t.lua.indacc.rdataL ||| 0x06)
                (withDataH (byteOfLua t.lua.indacc.rdataH) t.lua) },
              .ret (some (portListing.pos .portInitPhyocp + 27)) :: k, n + 2⟩ := rfl
      rw [hhigh, hlow] at hiter
      exact ⟨_, _, hiter⟩)
  set s₃ : Regs G := { s₂ with dph := hi 0xa400, dpl := lo 0xa400 }
  have hdptr' : stepIter (stepPort m) 1
      ⟨some (portListing.pos .portInitPhyocp + 27), s₂, k, n + 4⟩ =
        some ⟨some (portListing.pos .portInitPhyocp + 28), s₃, k, n + 4⟩ := rfl
  obtain ⟨s₄, hlead₄, -, hout₄, hregs₄⟩ := modifyPhy m s₃ k n
    (p := portListing.pos .portInitPhyocp + 28) (c := 7) (v := 0xd6ad) (word_hi_lo _) (by decide)
    (by rw [show s₃.r 7 = s.r 7 from hr₂]; exact hport) rfl (fun _ => rfl) (fun t hhigh hlow => by
      have hiter : stepIter (stepPort m) 7
          ⟨some (portListing.pos .portInitPhyocp + 30), t, k, n + 4⟩ =
            some ⟨some (portListing.pos (.reg .regWrite)), { t with
              acc := byteOfLua t.lua.indacc.rdataL
              lua := withDataL (byteOfLua t.lua.indacc.rdataL)
                (withDataH (byteOfLua t.lua.indacc.rdataH &&& 0xf7 ||| 0x02) t.lua) },
              .ret (some (portListing.pos .portInitPhyocp + 37)) :: k, n + 2⟩ := rfl
      rw [hhigh, hlow] at hiter
      exact ⟨_, _, hiter⟩)
  refine ⟨s₄, (Leads.of_iter hdptr).trans (hlead₂.trans ((Leads.of_iter hdptr').trans hlead₄)),
    hout₄.trans hout₂, ?_⟩
  have hr₃ : s₃.r 7 = s.r 7 := hr₂
  rw [hregs₄, hr₃]
  exact congrArg (withPhy (s.r 7) 0xa400 0xd6ad) hregs₂

/-- The whole routine sets the register of the port and returns to its caller. -/
lemma portInitPhyocp (hport : s.r 7 ≤ 7) : ∃ s', Leads (stepPort m)
    ⟨some (portListing.pos .portInitPhyocp), s, .ret q :: k, n + 4⟩ ⟨q, s', k, n + 6⟩ ∧
      s'.out = s.out ∧ s'.lua.socRegs = phyocpInit (s.r 7) s.lua.socRegs := by
  have hret : ∀ t : Regs G, stepIter (stepPort m) 1
      ⟨some (portListing.pos .portInitPhyocpExit), t, .ret q :: k, n + 4⟩ =
        some ⟨q, t, k, n + 6⟩ := fun _ => rfl
  obtain ⟨s₁, hlead₁, hr₁, hout₁, hregs₁⟩ := portInitFirst m s (.ret q :: k) n hport
  obtain ⟨s₂, hlead₂, hr₂, hout₂, hregs₂⟩ := portInitChip m s₁ (.ret q :: k) n
  rw [hregs₁, regWord_chipVer] at hlead₂
  rw [hregs₁] at hregs₂
  by_cases hchip : lo (regWord s.lua.socRegs RTL8367_1301_CHIP_VER) &&& 0xf0 = 0xa0
  · rw [if_pos hchip] at hlead₂
    have hr : s₂.r 7 = s.r 7 := hr₂.trans hr₁
    obtain ⟨s₃, hlead₃, hout₃, hregs₃⟩ := portInitRest m s₂ (.ret q :: k) n (by rwa [hr])
    refine ⟨s₃, hlead₁.trans (hlead₂.trans (hlead₃.trans (.of_iter (hret s₃)))),
      hout₃.trans (hout₂.trans hout₁), ?_⟩
    rw [hregs₃, hregs₂, hr, phyocpInit, if_pos hchip]
  · rw [if_neg hchip] at hlead₂
    refine ⟨s₂, hlead₁.trans (hlead₂.trans (.of_iter (hret s₂))), hout₂.trans hout₁, ?_⟩
    rw [hregs₂, phyocpInit, if_neg hchip]

end Switch

/-! ## The routines on the machine -/

namespace Machine

open Switch

/-- `port_init_eee` sets the four bits in the register of the port in `R7`, whatever that is, and
changes nothing else. -/
theorem portInitEee_sets {socRegs : LuaInt → Option LuaInt} {m : Machine G} {base : Word}
    (hready : m.Ready) (happart : m.StackApart 4) (hload : Loaded m.readc regListing.code base)
    (hpc : m.pc = codeAddr regListing.code base (regListing.pos .portInitEee)) :
    ∃ m', Leads (step (Rtl8367s.script socRegs)) m m' ∧ m'.pc = m.caller ∧
      m'.sfr SP = m.sfr SP - 2 ∧ m'.uartOut = m.uartOut ∧
      m'.lua.socRegs = Function.update m.lua.socRegs (luaOfWord (eeeReg (m.rx 7)))
        (some (luaOfWord (regWord m.lua.socRegs (eeeReg (m.rx 7)) ||| 0x0f00))) := by
  obtain ⟨s, hlead, hregs⟩ := portInitEee m m.regs none [] 0
  have hquiet : ∀ i ∈ regListing.code, i.target ≠ some SBUF := by decide +kernel
  have hout := Leads.out_eq hquiet hlead
  obtain ⟨m', hreach, hreturned⟩ := routine_returns hready (indaccDevice_models socRegs)
    (fun _ => happart) (by decide) (by decide) hload hpc hlead
  refine ⟨m', hreach, hreturned.pc, hreturned.sp, hreturned.out.trans hout, ?_⟩
  rw [hreturned.lua, hregs]
  rfl

/-- About to run a routine for port 3. -/
def initializingPort (regs : LuaInt → Option LuaInt) (code : List (Insn ℕ)) (p : ℕ) : Machine G :=
  (calling (initGlobals ⟨0, 0, 0, 0⟩ regs) ((assemble code 0).getD [])
    (codeAddr code 0 p)).setCell (regCell (regBase 0) 7) 3

/-- About to initialise it. -/
def initializingEee : Machine G :=
  initializingPort (fun _ => none) regListing.code (regListing.pos .portInitEee)

/-- The theorem for port 3, whose register has no value before. -/
theorem portInitEee_sets_port : ∃ m',
    Leads (step (Rtl8367s.script fun _ => none)) initializingEee m' ∧
      m'.lua.socRegs 0x0078 = some 0xdfad := by
  have hrom : assemble regListing.code 0 = some ((assemble regListing.code 0).getD []) := by
    decide +kernel
  have hready : initializingEee.Ready := ⟨⟨rfl, false, rfl, rfl, rfl⟩, rfl, rfl⟩
  have happart : ∀ i < 4, ∀ n, iramCell (initializingEee.sfr SP - 1 + BitVec.ofNat 8 i) ≠
      regCell initializingEee.reg n := by decide +kernel
  have hload : Loaded initializingEee.readc regListing.code 0 :=
    ⟨_, hrom, calling_bytesAt initializingEee.lua initializingEee.pc (by decide +kernel)⟩
  obtain ⟨m', hlead, -, -, -, hregs⟩ := portInitEee_sets hready happart hload rfl
  exact ⟨m', hlead, by rw [hregs]; decide +kernel⟩

/-- `port_init_phyocp` sets the registers of the PHY of the port in `R7`, and returns. -/
theorem portInitPhyocp_sets {socRegs : LuaInt → Option LuaInt} {m : Machine G} {base : Word}
    (hready : m.Ready) (happart : m.StackApart 6) (hload : Loaded m.readc portListing.code base)
    (hpc : m.pc = codeAddr portListing.code base (portListing.pos .portInitPhyocp))
    (hport : m.rx 7 ≤ 7) :
    ∃ m', Leads (step (Rtl8367s.script socRegs)) m m' ∧ m'.pc = m.caller ∧
      m'.sfr SP = m.sfr SP - 2 ∧ m'.uartOut = m.uartOut ∧
      m'.lua.socRegs = phyocpInit (m.rx 7) m.lua.socRegs := by
  obtain ⟨s, hlead, hout, hregs⟩ := portInitPhyocp m m.regs none [] 0 hport
  obtain ⟨m', hreach, hreached⟩ := program_reaches hready (indaccDevice_models socRegs)
    (fun _ => happart) (by decide) (by decide) (hload.on _) hpc hlead
  refine ⟨m', hreach, hreached.pc, hreached.sp.trans (BitVec.add_zero _),
    hreached.out.trans hout, ?_⟩
  rw [hreached.lua, hregs]
  rfl

/-- A chip version with which all three registers are set. -/
def versionRegs (a : LuaInt) : Option LuaInt := if a = 0x1301 then some 0x00a0 else none

/-- About to initialise the PHY. -/
def initializingPhyocp : Machine G :=
  initializingPort versionRegs portListing.code (portListing.pos .portInitPhyocp)

/-- The theorem for the register `0xa5d0` of port 3, on a chip with a version register. -/
theorem portInitPhyocp_sets_port : ∃ m',
    Leads (step (Rtl8367s.script versionRegs)) initializingPhyocp m' ∧
      m'.lua.socRegs (luaOfWord (phyReg 0xa5d0 3)) = some 0xdeaf := by
  have hrom : assemble portListing.code 0 = some ((assemble portListing.code 0).getD []) := by
    decide +kernel
  have hready : initializingPhyocp.Ready := ⟨⟨rfl, false, rfl, rfl, rfl⟩, rfl, rfl⟩
  have happart : ∀ i < 6, ∀ n, iramCell (initializingPhyocp.sfr SP - 1 + BitVec.ofNat 8 i) ≠
      regCell initializingPhyocp.reg n := by decide +kernel
  have hload : Loaded initializingPhyocp.readc portListing.code 0 :=
    ⟨_, hrom, calling_bytesAt initializingPhyocp.lua initializingPhyocp.pc (by decide +kernel)⟩
  obtain ⟨m', hlead, -, -, -, hregs⟩ := portInitPhyocp_sets hready happart hload rfl
    (by decide +kernel)
  exact ⟨m', hlead, by rw [hregs]; decide +kernel⟩

end Machine

end Emu51

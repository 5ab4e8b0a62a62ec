import Emu51.Firmware.Indacc
import Emu51.Firmware.Serial

/-!
# `phyocp_reg_addr`

The registers of a PHY have 16-bit addresses (OCP addresses) of which bit 0 is zero. The routine
takes such an address and the number of a port apart: bits 15 to 10 go into the register 0x1d15, and
the port and the other bits make up an address in the window of the PHYs. `socreg_read` puts them
together again.
-/

namespace Emu51

open Chip Chip.Rtl8367s

/-! ## The fields of an address -/

/-- Bits 5 to 1, from the lower byte. -/
def ocpLow (l : Byte) : Byte := (l >>> 1) &&& 0x1f

/-- Bits 9 to 6, from both bytes. -/
def ocpMid (h l : Byte) : Byte := ((h &&& 3) <<< 2) ||| (l >>> 6)

/-- The address in the window of the PHYs. -/
def phyReg (a : Word) (port : Byte) : Word :=
  word (0x20 + ocpMid (hi a) (lo a)) (port <<< 5 + ocpLow (lo a))

/-- The register 0x1d15, which was `x` before. -/
def ocpMsb (x a : Word) : Word := word (hi x) ((hi a >>> 2) ||| (lo x &&& 0xc0))

/-- The fields of the register's address do not overlap, so adding them is putting them together. -/
lemma phyReg_eq_or (a : Word) (port : Byte) : phyReg a port =
    word (0x20 ||| ocpMid (hi a) (lo a)) (port <<< 5 ||| ocpLow (lo a)) := by
  rw [phyReg, BitVec.add_eq_or_of_and_eq_zero, BitVec.add_eq_or_of_and_eq_zero]
  · apply BitVec.eq_of_getLsbD_eq
    intro i hi
    interval_cases i <;> simp [ocpLow]
  · apply BitVec.eq_of_getLsbD_eq
    intro i hi
    interval_cases i <;> simp [ocpMid]

/-- A mask has no bits beyond its size, which is known from its value. -/
lemma getLsbD_mask {mask : LuaInt} {n i : ℕ} (hmask : mask.toNat < 2 ^ n) (hi : n ≤ i) :
    mask.getLsbD i = false :=
  Nat.testBit_lt_two_pow (Nat.lt_of_lt_of_le hmask (Nat.pow_le_pow_right (by decide) hi))

/-- The address that `socreg_read` puts together has no bits beyond the sixteenth. -/
lemma getLsbD_ocpAddr (r addr : LuaInt) {i : ℕ} (hi : 16 ≤ i) :
    (ocpAddr r addr).getLsbD i = false := by
  have hlow : (0x1f : LuaInt).getLsbD (i - 1) = false :=
    getLsbD_mask (n := 5) (by decide) (by omega)
  have hmid : (0xf00 : LuaInt).getLsbD (3 + (i - 1)) = false :=
    getLsbD_mask (n := 12) (by decide) (by omega)
  have hmsb : (0x3f : LuaInt).getLsbD (i - 1 - 9) = false :=
    getLsbD_mask (n := 6) (by decide) (by omega)
  simp only [ocpAddr, BitVec.getLsbD_shiftLeft, BitVec.getLsbD_or, BitVec.getLsbD_and,
    BitVec.getLsbD_ushiftRight, hlow, hmid, hmsb, Bool.and_false, Bool.or_false]

/-- What `socreg_read` makes of the fields is the address they were made of, if it is even. -/
theorem ocpAddr_phyReg (x : Word) {a : Word} (port : Byte) (heven : a.toNat % 2 = 0) :
    ocpAddr (luaOfWord (ocpMsb x a)) (luaOfWord (phyReg a port)) = luaOfWord a := by
  have hzero : a[0] = false := by
    rw [BitVec.getElem_eq_testBit_toNat, Nat.testBit_zero, heven]
    rfl
  rw [phyReg_eq_or]
  apply BitVec.eq_of_getLsbD_eq
  intro i hi
  by_cases hsmall : i < 16
  · interval_cases i <;>
      simp [ocpAddr, ocpMsb, luaOfWord, word, ocpMid, ocpLow, Emu51.hi, lo, hzero]
  · have hlarge : 16 ≤ i := Nat.not_lt.1 hsmall
    rw [getLsbD_ocpAddr _ _ hlarge, luaOfWord, BitVec.getLsbD_setWidth, a.getLsbD_of_ge i hlarge,
      Bool.and_false]

/-- The register of a PHY address is in the window that `socreg_read` takes for the PHYs. -/
lemma phyReg_window (a : Word) (port : Byte) :
    0x2000 ≤ phyReg a port ∧ phyReg a port < 0x3000 := by
  have hmid : (0x20 + ocpMid (hi a) (lo a)).toNat / 16 = 2 := by
    have hclear : ocpMid (hi a) (lo a) &&& 0xf0 = 0 := by
      apply BitVec.eq_of_getLsbD_eq
      intro i hi
      interval_cases i <;> simp [ocpMid]
    have hall : ∀ x : Byte, x &&& 0xf0 = 0 → (0x20 + x).toNat / 16 = 2 := by decide
    exact hall _ hclear
  have hlow := (port <<< 5 + ocpLow (lo a)).isLt
  have hvalue := toNat_word (0x20 + ocpMid (hi a) (lo a)) (port <<< 5 + ocpLow (lo a))
  constructor
  · change 0x2000 ≤ (phyReg a port).toNat
    rw [phyReg]
    omega
  · change (phyReg a port).toNat < 0x3000
    rw [phyReg]
    omega

/-- Bits 7 to 5 of the register's address are the number of the port. -/
lemma phyReg_port (a : Word) {port : Byte} (hport : port ≤ 7) :
    (phyReg a port >>> 5) &&& 7 = port.setWidth 16 := by
  have hwidth : port = (port.setWidth 3).setWidth 8 := by
    revert port
    decide
  rw [phyReg_eq_or, hwidth]
  apply BitVec.eq_of_getLsbD_eq
  intro i hi
  interval_cases i <;> simp [word, ocpMid, ocpLow, Emu51.hi, lo]

/-- The upper ten bits of the register for the address stay as they are. -/
lemma ocpMsb_and (x a : Word) : ocpMsb x a &&& 0xffc0 = x &&& 0xffc0 := by
  apply BitVec.eq_of_getLsbD_eq
  intro i hi
  interval_cases i <;> simp [ocpMsb, word, Emu51.hi, lo]

/-- The field of an earlier address is lost when the next one is stored. -/
lemma ocpMsb_ocpMsb (x a b : Word) : ocpMsb (ocpMsb x a) b = ocpMsb x b := by
  apply BitVec.eq_of_getLsbD_eq
  intro i hi
  interval_cases i <;> simp [ocpMsb, word, Emu51.hi, lo]

/-! ## Blocks of the routine -/

namespace Switch

variable (m : Machine G) (s : Regs G) (k : List Slot) (n : ℕ)

/-- Bits 15 to 10 are combined with the register in the data registers. -/
lemma phyocpMsb : ∃ s', Leads (step m true) ⟨some (regListing.pos .phyocpRegAddr + 4), s, k, n⟩
    ⟨some (regListing.pos .phyocpRegAddr + 15), s', k, n⟩ ∧
      Leaves s s.dptr (withDataL ((s.r 6 >>> 2) ||| (byteOfLua s.lua.indacc.rdataL &&& 0xc0))
        (withDataH (byteOfLua s.lua.indacc.rdataH) s.lua)) s' := by
  have hrotate : ∀ x : Byte, AccInsn.rr.apply (AccInsn.rr.apply x) &&& (0x3f : Byte) = x >>> 2 := by
    decide
  have hrun : stepIter (step m true) 11 ⟨some (regListing.pos .phyocpRegAddr + 4), s, k, n⟩ =
      some ⟨some (regListing.pos .phyocpRegAddr + 15), { s with
        acc := (AccInsn.rr.apply (AccInsn.rr.apply (s.r 6)) &&& 0x3f) |||
          (byteOfLua s.lua.indacc.rdataL &&& 0xc0)
        b := byteOfLua s.lua.indacc.rdataL &&& 0xc0
        lua := withDataL ((AccInsn.rr.apply (AccInsn.rr.apply (s.r 6)) &&& 0x3f) |||
          (byteOfLua s.lua.indacc.rdataL &&& 0xc0))
            (withDataH (byteOfLua s.lua.indacc.rdataH) s.lua) }, k, n⟩ := rfl
  rw [hrotate] at hrun
  exact ⟨_, .of_iter hrun, rfl, rfl, rfl⟩

/-- The last part of the routine puts the base address of the port into `DPTR`. -/
lemma phyocpBase (hport : s.r 7 ≤ 7) : ∃ s',
    Leads (step m true) ⟨some (regListing.pos .phyocpRegAddr + 16), s, k, n + 1⟩
      ⟨some (regListing.pos .phyocpRegAddr + 29), s', k, n + 1⟩ ∧
        s'.dph = 0x20 ∧ s'.dpl = s.r 7 <<< 5 ∧ s'.r = s.r ∧ s'.lua = s.lua := by
  set prod : Word := (s.r 7).setWidth 16 * BitVec.setWidth 16 (0x20 : Byte) with hprod
  set y := aluAdd (lo RTL8367_2000_PHY_BASE) (lo prod) (Ops.mulPsw s.psw (hi prod)) with hy
  set z := aluAddc (hi RTL8367_2000_PHY_BASE) (hi prod) y.2 with hz
  have hrun : stepIter (step m true) 13 ⟨some (regListing.pos .phyocpRegAddr + 16), s, k, n + 1⟩ =
      some ⟨some (regListing.pos .phyocpRegAddr + 29), { s with
        acc := z.1
        b := hi prod
        psw := z.2
        dpl := y.1
        dph := z.1 }, k, n + 1⟩ := rfl
  have hbytes : lo prod = s.r 7 <<< 5 ∧ hi prod = 0 := by
    have hall : ∀ x : Byte, x ≤ 7 →
        lo (x.setWidth 16 * BitVec.setWidth 16 (0x20 : Byte)) = x <<< 5 ∧
          hi (x.setWidth 16 * BitVec.setWidth 16 (0x20 : Byte)) = 0 := by decide
    exact hall _ hport
  have hcarry : carryIn y.2 = 0 := by
    rw [hy]
    apply carryIn_aluAdd
    have hlo := (lo prod).isLt
    have hbase : (lo RTL8367_2000_PHY_BASE).toNat = 0 := rfl
    omega
  refine ⟨_, .of_iter hrun, ?_, ?_, rfl, rfl⟩
  · change z.1 = 0x20
    rw [hz, aluAddc_fst _ _ hcarry, hbytes.2]
    rfl
  · change y.1 = s.r 7 <<< 5
    rw [hy, aluAdd_fst, hbytes.1]
    exact BitVec.zero_add _

/-- Bits 5 to 1 are added, whatever the carry is. -/
lemma phyocpLow (hroom : s.dpl.toNat ≤ 0xe0) : ∃ s',
    Leads (step m true) ⟨some (regListing.pos .phyocpRegAddr + 29), s, k, n⟩
      ⟨some (regListing.pos .phyocpRegAddr + 38), s', k, n⟩ ∧
        s'.dph = s.dph ∧ s'.dpl = s.dpl + ocpLow (s.r 5) ∧ s'.r = s.r ∧ s'.lua = s.lua := by
  set x := (s.r 5 >>> 1 ||| (s.psw &&& PSW_C)) &&& 0x1f with hx
  set y := aluAdd x s.dpl ((s.psw &&& ~~~PSW_C) ||| s.r 5 <<< 7) with hy
  set z := aluAddc s.dph 0 y.2 with hz
  have hrun : stepIter (step m true) 9 ⟨some (regListing.pos .phyocpRegAddr + 29), s, k, n⟩ =
      some ⟨some (regListing.pos .phyocpRegAddr + 38), { s with
        acc := z.1
        b := s.dpl
        psw := z.2
        dpl := y.1
        dph := z.1 }, k, n⟩ := rfl
  have hfield : x = ocpLow (s.r 5) := by
    apply BitVec.eq_of_getLsbD_eq
    intro i hi
    interval_cases i <;> simp [hx, ocpLow]
  have hcarry : carryIn y.2 = 0 := by
    have hle : x.toNat ≤ 0x1f := by
      rw [hx, BitVec.toNat_and]
      exact Nat.and_le_right
    rw [hy]
    apply carryIn_aluAdd
    omega
  refine ⟨_, .of_iter hrun, ?_, ?_, rfl, rfl⟩
  · change z.1 = s.dph
    rw [hz, aluAddc_fst _ _ hcarry]
    exact BitVec.add_zero _
  · change y.1 = s.dpl + ocpLow (s.r 5)
    rw [hy, aluAdd_fst, hfield, BitVec.add_comm]

/-- A rotation through carry: the accumulator and the flags. -/
def rrc (x p : Byte) : Byte × Byte := (x >>> 1 ||| (p &&& PSW_C), (p &&& ~~~PSW_C) ||| x <<< 7)

/-- Two rotations of both bytes, of which one bit of the flags goes into bits that are masked. -/
lemma rrc_field (h l p : Byte) :
    AccInsn.swap.apply (rrc (rrc l (rrc h p).2).1 (rrc (rrc h p).1 (rrc l (rrc h p).2).2).2).1 &&&
      (0x0f : Byte) = ocpMid h l := by
  apply BitVec.eq_of_getLsbD_eq
  intro i hi
  interval_cases i <;> simp [AccInsn.apply, rrc, ocpMid]

/-- Bits 9 to 6 are added, whatever the carry is. -/
lemma phyocpMid : ∃ s', Leads (step m true) ⟨some (regListing.pos .phyocpRegAddr + 38), s, k, n⟩
    ⟨some (regListing.pos .phyocpRegAddr + 53), s', k, n⟩ ∧
      s'.dph = s.dph + ocpMid (s.r 6) (s.r 5) ∧ s'.dpl = s.dpl ∧ s'.lua = s.lua := by
  set u := rrc (s.r 6) s.psw with hu
  set v := rrc (s.r 5) u.2 with hv
  set x := rrc u.1 v.2 with hx
  set y := rrc v.1 x.2 with hy
  set z := aluAdd (AccInsn.swap.apply y.1 &&& 0x0f) s.dph y.2 with hz
  have hrun : stepIter (step m true) 15 ⟨some (regListing.pos .phyocpRegAddr + 38), s, k, n⟩ =
      some ⟨some (regListing.pos .phyocpRegAddr + 53), { s with
        acc := z.1
        psw := z.2
        dph := z.1
        r := Function.update (Function.update (Function.update s.r 6 u.1) 5 v.1) 6 x.1 }, k, n⟩ :=
    rfl
  refine ⟨_, .of_iter hrun, ?_, rfl, rfl⟩
  change z.1 = _
  rw [hz, aluAdd_fst, hy, hx, hv, hu, rrc_field, BitVec.add_comm]

/-! ## The routine -/

/-- The upper field goes into the register 0x1d15, and the others into `DPTR`. -/
lemma phyocpRegAddr_fields (hport : s.r 7 ≤ 7) (q : Option ℕ) :
    ∃ s', Leads (step m true) ⟨place .phyocpRegAddr, s, .ret q :: k, n + 2⟩ ⟨q, s', k, n + 4⟩ ∧
      s'.dptr = phyReg s.dptr (s.r 7) ∧
      s'.lua.socRegs = Function.update s.lua.socRegs 0x1d15
        (some (luaOfWord (ocpMsb (regWord s.lua.socRegs 0x1d15) s.dptr))) := by
  set x := regWord s.lua.socRegs 0x1d15 with hx
  have hplain : PlainReg RTL8367_1D15_GPHY_OCP_MSB_0 := ⟨.inl (by decide), by decide⟩
  set s₀ : Regs G := { s with
    r := Function.update (Function.update s.r 6 s.dph) 5 s.dpl
    dph := hi RTL8367_1D15_GPHY_OCP_MSB_0
    dpl := lo RTL8367_1D15_GPHY_OCP_MSB_0 }
  have hstart : stepIter (step m true) 4 ⟨place .phyocpRegAddr, s, .ret q :: k, n + 2⟩ =
      some ⟨place .regRead, s₀,
        .ret (some (regListing.pos .phyocpRegAddr + 4)) :: .ret q :: k, n⟩ := rfl
  obtain ⟨s₁, hlead₁, h₁⟩ := regRead m true s₀ (some (regListing.pos .phyocpRegAddr + 4))
    (.ret q :: k) n (word_hi_lo _) hplain
  obtain ⟨s₂, hlead₂, h₂⟩ := phyocpMsb m s₁ (.ret q :: k) (n + 2)
  have hcall : stepIter (step m true) 1
      ⟨some (regListing.pos .phyocpRegAddr + 15), s₂, .ret q :: k, n + 2⟩ =
        some ⟨place .regWrite, s₂,
          .ret (some (regListing.pos .phyocpRegAddr + 16)) :: .ret q :: k, n⟩ := rfl
  obtain ⟨s₃, hlead₃, h₃⟩ := regWrite m true s₂ (some (regListing.pos .phyocpRegAddr + 16))
    (.ret q :: k) n (h₂.dptr.trans h₁.dptr)
  have hr : s₃.r = s₀.r := h₃.r.trans (h₂.r.trans h₁.r)
  obtain ⟨s₄, hlead₄, hdph₄, hdpl₄, hr₄, hlua₄⟩ := phyocpBase m s₃ (.ret q :: k) (n + 1)
    (by rw [hr]; exact hport)
  obtain ⟨s₅, hlead₅, hdph₅, hdpl₅, hr₅, hlua₅⟩ := phyocpLow m s₄ (.ret q :: k) (n + 2) (by
    have hall : ∀ y : Byte, (y <<< 5).toNat ≤ 0xe0 := by decide
    rw [hdpl₄]
    exact hall _)
  obtain ⟨s₆, hlead₆, hdph₆, hdpl₆, hlua₆⟩ := phyocpMid m s₅ (.ret q :: k) (n + 2)
  have hret : stepIter (step m true) 1
      ⟨some (regListing.pos .phyocpRegAddr + 53), s₆, .ret q :: k, n + 2⟩ =
        some ⟨q, s₆, k, n + 4⟩ := rfl
  refine ⟨s₆, (Leads.of_iter hstart).trans (hlead₁.trans (hlead₂.trans ((Leads.of_iter hcall).trans
    (hlead₃.trans (hlead₄.trans (hlead₅.trans (hlead₆.trans (.of_iter hret)))))))), ?_, ?_⟩
  · have hhigh : s₅.r 6 = s.dph := by
      rw [hr₅, hr₄, hr]
      rfl
    have hlow : s₄.r 5 = s.dpl := by
      rw [hr₄, hr]
      rfl
    have hseven : s₃.r 7 = s.r 7 := by
      rw [hr]
      rfl
    rw [Regs.dptr, hdph₆, hdpl₆, hdph₅, hdpl₅, hdph₄, hdpl₄, hhigh, hr₅, hlow, hseven, phyReg,
      Regs.dptr, hi_word, lo_word]
  · have hvalue : s₁.lua = withResult ((s.lua.socRegs 0x1d15).getD 0xdead)
        (withAddr s₀.dph s₀.dpl s.lua) := h₁.lua
    have hhigh : byteOfLua s₁.lua.indacc.rdataH = hi x := by
      rw [hvalue]
      exact byteOfLua_high _
    have hlow : byteOfLua s₁.lua.indacc.rdataL = lo x := by
      rw [hvalue]
      exact byteOfLua_low _
    have hsix : s₁.r 6 = s.dph := by
      rw [h₁.r]
      rfl
    have hdata : indaccData s₂.lua = luaOfWord (ocpMsb x s.dptr) := by
      rw [h₂.lua, hhigh, hlow, hsix, ocpMsb, Regs.dptr, hi_word]
      exact luaOfWord_word ..
    have hkept : s₂.lua.socRegs = s.lua.socRegs := by
      rw [h₂.lua, hvalue]
      rfl
    rw [hlua₆, hlua₅, hlua₄, h₃.lua, hdata, ← hkept]
    rfl

/-- The same where the register holds the 16 bits `x`. -/
lemma phyocpRegAddr {x : Word} (hport : s.r 7 ≤ 7)
    (hx : (s.lua.socRegs 0x1d15).getD 0xdead = luaOfWord x) (q : Option ℕ) :
    ∃ s', Leads (step m true) ⟨place .phyocpRegAddr, s, .ret q :: k, n + 2⟩ ⟨q, s', k, n + 4⟩ ∧
      s'.dptr = phyReg s.dptr (s.r 7) ∧
      s'.lua.socRegs =
        Function.update s.lua.socRegs 0x1d15 (some (luaOfWord (ocpMsb x s.dptr))) := by
  have hvalue : regWord s.lua.socRegs 0x1d15 = x :=
    (congrArg (BitVec.setWidth 16) hx).trans (setWidth_luaOfWord x)
  rw [← hvalue]
  exact phyocpRegAddr_fields m s k n hport q

end Switch

/-! ## The routine on the machine -/

namespace Machine

/-- `phyocp_reg_addr` leaves an address in the window of the PHYs from which `socreg_read` gets the
OCP address back, whatever `phyocp_read` does with it. -/
theorem phyocpRegAddr_roundTrips {socRegs : LuaInt → Option LuaInt} {m : Machine G} {base x : Word}
    (hready : m.Ready) (happart : m.StackApart 4) (hload : Loaded m.readc regListing.code base)
    (hpc : m.pc = codeAddr regListing.code base (regListing.pos .phyocpRegAddr))
    (heven : m.dptr.toNat % 2 = 0) (hport : m.rx 7 ≤ 7)
    (hx : (m.lua.socRegs 0x1d15).getD 0xdead = luaOfWord x) :
    ∃ m', Leads (step (Rtl8367s.script socRegs)) m m' ∧ m'.pc = m.caller ∧
      m'.sfr SP = m.sfr SP - 2 ∧
      0x2000 ≤ m'.dptr ∧ m'.dptr < 0x3000 ∧ (m'.dptr >>> 5) &&& 7 = (m.rx 7).setWidth 16 ∧
      (∃ x' : Word, x' &&& 0xffc0 = x &&& 0xffc0 ∧
        m'.lua.socRegs = Function.update m.lua.socRegs 0x1d15 (some (luaOfWord x'))) ∧
      ∀ (phyocp : LuaInt → LuaInt) (bus : Bus G),
        (socregReadWith phyocp (luaOfWord m'.dptr)).run (luaExec bus) m' =
          some (phyocp (luaOfWord m.dptr), m') := by
  have hpair := hready.regs_dptr
  obtain ⟨s, hlead, hdptr, hregs⟩ := Switch.phyocpRegAddr m m.regs [] 0 hport hx none
  obtain ⟨m', hreach, hreturned⟩ := routine_returns hready (indaccDevice_models socRegs)
    (fun _ => happart) (by decide) (by decide) hload hpc hlead
  have hreg : m'.dptr = phyReg m.dptr (m.rx 7) := by
    rw [hreturned.dptr, hdptr, hpair]
    rfl
  have htable : m'.lua.socRegs =
      Function.update m.lua.socRegs 0x1d15 (some (luaOfWord (ocpMsb x m.dptr))) := by
    rw [hreturned.lua, hregs, hpair]
    rfl
  have hwindow := phyReg_window m.dptr (m.rx 7)
  rw [← hreg] at hwindow
  refine ⟨m', hreach, hreturned.pc, hreturned.sp, hwindow.1, hwindow.2, ?_,
    ⟨ocpMsb x m.dptr, ocpMsb_and x m.dptr, htable⟩, fun phyocp bus => ?_⟩
  · rw [hreg, phyReg_port _ hport]
  · have hvalue : socregValue phyocp (luaOfWord m'.dptr) m'.lua =
        some (phyocp (luaOfWord m.dptr), m'.lua) := by
      rw [socregValue, window_luaOfWord, decide_eq_true hwindow.1, decide_eq_true hwindow.2,
        Bool.and_self, if_pos rfl, htable, Function.update_self, Option.map_some, hreg,
        ocpAddr_phyReg x _ heven]
    rw [run_socregReadWith, hvalue]
    rfl

/-- About to take the OCP address 0xa428 apart for port 3. -/
def addressing : Machine G :=
  (((calling (initGlobals ⟨0, 0, 0, 0⟩ fun _ => none) ((assemble regListing.code 0).getD [])
    (codeAddr regListing.code 0 (regListing.pos .phyocpRegAddr))).setCell (regCell (regBase 0) 7)
      3).setSfr DPH0 0xa4).setSfr DPL0 0x28

/-- The theorem for the register `0xa428` of port 3. -/
theorem phyocpRegAddr_roundTrips_port : ∃ m',
    Leads (step (Rtl8367s.script fun _ => none)) addressing m' ∧
      (m'.dptr >>> 5) &&& 7 = 3 ∧ ∀ (phyocp : LuaInt → LuaInt) (bus : Bus G),
        (socregReadWith phyocp (luaOfWord m'.dptr)).run (luaExec bus) m' =
          some (phyocp 0xa428, m') := by
  have hrom : assemble regListing.code 0 = some ((assemble regListing.code 0).getD []) := by
    decide +kernel
  have hready : addressing.Ready := ⟨⟨rfl, false, rfl, rfl, rfl⟩, rfl, rfl⟩
  have happart : ∀ i < 4, ∀ n, iramCell (addressing.sfr SP - 1 + BitVec.ofNat 8 i) ≠
      regCell addressing.reg n := by decide +kernel
  have hload : Loaded addressing.readc regListing.code 0 :=
    ⟨_, hrom, calling_bytesAt addressing.lua addressing.pc (by decide +kernel)⟩
  obtain ⟨m', hlead, -, -, -, -, hport, -, hread⟩ := phyocpRegAddr_roundTrips (x := 0xdead) hready
    happart hload rfl (by decide +kernel) (by decide +kernel) rfl
  exact ⟨m', hlead, hport.trans (by decide +kernel), hread⟩

end Machine

end Emu51

import Emu51.Machine.System
import Emu51.Registers.Psw

/-!
# The `PSW` frame of the instruction set

Which bits of `PSW` an instruction may change unless it names `PSW` as its destination. `MUL` breaks
the frame (`Ops.mulPsw`), and so do `INC`, `DEC` and `XCHD` with an `@Ri` operand, which reach `PSW`
when `Ri` is `0xd0`.
-/

namespace Emu51

variable {σ : Type}

namespace Label

/-- The records that apply `ADD`, `ADDC` or `SUBB`. -/
def isArith : Label → Bool
  | genAi o | genAd o | genR0 o | genR1 o | genAr o | gen2Ia o | gen2Id o =>
      o = .add ∨ o = .addc ∨ o = .subb
  | _ => false

/-- The instructions that may change `OV`. -/
def mayChangeOV (l : Label) : Bool := l.isArith || l = mul || l = div

/-- The instructions that may change `CY`. -/
def mayChangeCY (l : Label) : Bool :=
  l.mayChangeOV || l ∈ [daA, cjneA, cjneB5, cjneB6, cjneB7, cjneR, rrcA, rlcA,
    clrC, setbC, cplC, movCBit, anlCbit, anlCnbit, orlCbit, orlCnbit]

end Label

/-- The frame: `RS1`, `RS0`, `F0` and bit 1 survive, and the flags change only under the
instructions that compute them. -/
structure PswFrame (l : Label) (m m' : Machine σ) : Prop where
  user : m'.sfr PSW &&& 0x3a = m.sfr PSW &&& 0x3a
  ac : l.isArith = false → m'.sfr PSW &&& PSW_AC = m.sfr PSW &&& PSW_AC
  ov : l.mayChangeOV = false → m'.sfr PSW &&& PSW_OV = m.sfr PSW &&& PSW_OV
  cy : l.mayChangeCY = false → m'.sfr PSW &&& PSW_C = m.sfr PSW &&& PSW_C
  mul : l = .mul → m'.sfr PSW &&& PSW_C = 0 ∧
    (m'.sfr PSW &&& PSW_OV ≠ 0 ↔ 0xff < (m.sfr ACC).toNat * (m.sfr B).toNat)
  div : l = .div → m'.sfr PSW &&& PSW_C = 0 ∧ (m'.sfr PSW &&& PSW_OV ≠ 0 ↔ m.sfr B = 0) ∧
    (m.sfr B = 0 → m'.sfr ACC = m.sfr ACC ∧ m'.sfr B = m.sfr B)

/-- When the frame is kept: `MUL` needs the bits it clears to be clear, an increment or decrement
of `PSW` through `@Ri` must not carry out of the parity bit, and an exchange with it must find the
bits equal. -/
def Label.KeepsFrame (l : Label) (m : Machine σ) : Prop :=
  match l with
  | mul => m.sfr PSW &&& 0x7a = 0 ∧
      (m.sfr PSW &&& PSW_P = 0 ∨ 0xff < (m.sfr ACC).toNat * (m.sfr B).toNat)
  | incAtr0 | decAtr0 => m.rx 0 = PSW → m.sfr PSW &&& PSW_P = 0
  | incAtr1 | decAtr1 => m.rx 1 = PSW → m.sfr PSW &&& PSW_P = 0
  | xchdAtr0 => m.rx 0 = PSW → (m.sfr PSW ^^^ m.sfr ACC) &&& 0x0e = 0
  | xchdAtr1 => m.rx 1 = PSW → (m.sfr PSW ^^^ m.sfr ACC) &&& 0x0e = 0
  | _ => True

/-! ## Flags of the operations -/

/-- The high byte of a product says whether the product fits in a byte. -/
lemma hi_mul_eq_zero (a b : Byte) :
    hi (a.setWidth 16 * b.setWidth 16) = 0 ↔ ¬0xff < a.toNat * b.toNat := by
  have ha := a.isLt
  have hb := b.isLt
  have hlt : a.toNat * b.toNat < 2 ^ 16 := by
    calc a.toNat * b.toNat < 2 ^ 8 * 2 ^ 8 := Nat.mul_lt_mul'' ha hb
      _ = 2 ^ 16 := rfl
  rw [← BitVec.toNat_inj, hi]
  have ha' : (a.setWidth 16).toNat = a.toNat := BitVec.toNat_setWidth_of_le (by decide)
  have hb' : (b.setWidth 16).toNat = b.toNat := BitVec.toNat_setWidth_of_le (by decide)
  rw [BitVec.toNat_setWidth, BitVec.toNat_ushiftRight, BitVec.toNat_mul, ha', hb',
    Nat.mod_eq_of_lt hlt, Nat.shiftRight_eq_div_pow]
  change a.toNat * b.toNat / 2 ^ 8 % 2 ^ 8 = 0 ↔ _
  omega

/-- `MUL` with a product that fits in a byte. -/
lemma mulPsw_of_eq_zero (p : Byte) :
    (Ops.mulPsw p 0 &&& 0x3a = p &&& 0x3a ∧ Ops.mulPsw p 0 &&& PSW_AC = p &&& PSW_AC ∧
      Ops.mulPsw p 0 &&& PSW_C = 0 ∧ Ops.mulPsw p 0 &&& PSW_OV = 0) ↔
      p &&& 0x7a = 0 ∧ p &&& PSW_P = 0 := by
  revert p
  decide

/-- `MUL` with a product that does not fit leaves `OV` and clears all other bits. -/
lemma mulPsw_of_ne_zero (p : Byte) {b : Byte} (hb : b ≠ 0) : Ops.mulPsw p b = PSW_OV := by
  rw [Ops.mulPsw, if_pos]
  intro h
  exact hb (BitVec.or_eq_zero_iff.1 h).2

/-- An increment leaves all bits but the lowest exactly if it does not carry. -/
lemma inc_and_iff (p : Byte) :
    ((p + 1) &&& 0x3a = p &&& 0x3a ∧ (p + 1) &&& PSW_AC = p &&& PSW_AC ∧
      (p + 1) &&& PSW_OV = p &&& PSW_OV ∧ (p + 1) &&& PSW_C = p &&& PSW_C) ↔
      p &&& PSW_P = 0 := by
  revert p
  decide

/-- An exchange of the low digit, seen through a mask. -/
lemma digit_and_iff (a p mask : Byte) :
    ((a &&& 0x0f) ||| (p &&& 0xf0)) &&& mask = p &&& mask ↔ (p ^^^ a) &&& (0x0f &&& mask) = 0 := by
  have hnibble : ∀ i : Fin 8, (0xf0 : Byte)[i] = !(0x0f : Byte)[i] := by decide
  have hbit : ∀ (i : ℕ) (hi : i < 8),
      ((((a &&& 0x0f) ||| (p &&& 0xf0)) &&& mask)[i] = (p &&& mask)[i] ↔
        ((p ^^^ a) &&& (0x0f &&& mask))[i] = (0 : Byte)[i]) := by
    intro i hi
    have hi' : (0xf0 : Byte)[i] = !(0x0f : Byte)[i] := hnibble ⟨i, hi⟩
    have hzero : (0 : Byte)[i] = false := by simp
    rw [BitVec.getElem_and, BitVec.getElem_or, BitVec.getElem_and, BitVec.getElem_and,
      BitVec.getElem_and, BitVec.getElem_and, BitVec.getElem_xor, BitVec.getElem_and, hi', hzero]
    cases a[i] <;> cases p[i] <;> cases mask[i] <;> cases (0x0f : Byte)[i] <;> decide
  constructor
  · intro h
    apply BitVec.eq_of_getElem_eq
    intro i hi
    exact (hbit i hi).1 (by rw [h])
  · intro h
    apply BitVec.eq_of_getElem_eq
    intro i hi
    exact (hbit i hi).2 (by rw [h])

/-- A low digit put into `PSW` keeps all of its bits but `P` exactly if the two agree in the bits 1
to 3. -/
lemma digit_and_all (a p : Byte) :
    (((a &&& 0x0f) ||| (p &&& 0xf0)) &&& 0x3a = p &&& 0x3a ∧
      ((a &&& 0x0f) ||| (p &&& 0xf0)) &&& PSW_AC = p &&& PSW_AC ∧
      ((a &&& 0x0f) ||| (p &&& 0xf0)) &&& PSW_OV = p &&& PSW_OV ∧
      ((a &&& 0x0f) ||| (p &&& 0xf0)) &&& PSW_C = p &&& PSW_C) ↔ (p ^^^ a) &&& 0x0e = 0 := by
  rw [digit_and_iff, digit_and_iff, digit_and_iff, digit_and_iff]
  generalize p ^^^ a = x
  revert x
  decide

/-! ## The frame -/

variable {script : Script σ} {m m' : Machine σ} {l : Label}

/-- A record that computes no flags keeps the frame exactly if it keeps all bits but `P`. -/
lemma pswFrame_iff_of_quiet (ha : l.isArith = false) (ho : l.mayChangeOV = false)
    (hc : l.mayChangeCY = false) :
    PswFrame l m m' ↔ m'.sfr PSW &&& 0x3a = m.sfr PSW &&& 0x3a ∧
      m'.sfr PSW &&& PSW_AC = m.sfr PSW &&& PSW_AC ∧
      m'.sfr PSW &&& PSW_OV = m.sfr PSW &&& PSW_OV ∧
      m'.sfr PSW &&& PSW_C = m.sfr PSW &&& PSW_C := by
  constructor
  · intro h
    exact ⟨h.user, h.ac ha, h.ov ho, h.cy hc⟩
  · rintro ⟨huser, hac, hov, hcy⟩
    refine ⟨huser, fun _ => hac, fun _ => hov, fun _ => hcy, ?_, ?_⟩
    · rintro rfl
      exact absurd ho (by decide)
    · rintro rfl
      exact absurd ho (by decide)

/-- What leaves `PSW` alone keeps the frame, unless it is `MUL` or `DIV`. -/
lemma PswFrame.of_eq (hm : l ≠ .mul) (hd : l ≠ .div) (h : m'.sfr PSW = m.sfr PSW) :
    PswFrame l m m' where
  user := by rw [h]
  ac := fun _ => by rw [h]
  ov := fun _ => by rw [h]
  cy := fun _ => by rw [h]
  mul := fun hl => absurd hl hm
  div := fun hl => absurd hl hd

/-- What changes at most the carry keeps the frame of the instructions that may. -/
lemma PswFrame.of_carry (hm : l ≠ .mul) (hd : l ≠ .div) (hc : l.mayChangeCY = true)
    (h : m'.sfr PSW &&& ~~~PSW_C = m.sfr PSW &&& ~~~PSW_C) : PswFrame l m m' where
  user := and_eq_of_subset (by decide) h
  ac := fun _ => and_eq_of_subset (by decide) h
  ov := fun _ => and_eq_of_subset (by decide) h
  cy := fun hl => absurd (hc.symm.trans hl) (by decide)
  mul := fun hl => absurd hl hm
  div := fun hl => absurd hl hd

/-- Where the flags are those of an operation of the arithmetic unit, the frame is kept. -/
lemma PswFrame.of_apply {o : AluOp} (hm : l ≠ .mul) (hd : l ≠ .div)
    (hl : l.isArith = (o = .add ∨ o = .addc ∨ o = .subb : Bool)) {a b : Byte}
    (h : m'.sfr PSW = (o.apply a b (m.sfr PSW)).2) : PswFrame l m m' := by
  cases harith : l.isArith with
  | false =>
    refine .of_eq hm hd (h.trans ?_)
    rw [harith] at hl
    cases o <;> first | exact absurd hl (by decide) | rfl
  | true =>
    have hov : l.mayChangeOV = true := by simp [Label.mayChangeOV, harith]
    have hcy : l.mayChangeCY = true := by simp [Label.mayChangeCY, hov]
    refine ⟨?_, ?_, ?_, ?_, fun hl => absurd hl hm, fun hl => absurd hl hd⟩
    · rw [h]
      exact and_eq_of_subset (by decide) (apply_and_rest o a b _)
    · exact fun hn => absurd (harith.symm.trans hn) (by decide)
    · exact fun hn => absurd (hov.symm.trans hn) (by decide)
    · exact fun hn => absurd (hcy.symm.trans hn) (by decide)

/-- `DIV AB` keeps its frame: it clears the carry and sets `OV`, as the data sheet has it. -/
lemma pswFrame_div (h : PswClass.div.Sets m m') : PswFrame .div m m' := by
  obtain ⟨hpsw, hregs⟩ := h
  have hbits : ∀ (p : Byte) (c : Bool), ((p &&& ~~~(PSW_C ||| PSW_OV)) ||| flagIf PSW_OV c) &&& 0x3a
      = p &&& 0x3a ∧ ((p &&& ~~~(PSW_C ||| PSW_OV)) ||| flagIf PSW_OV c) &&& PSW_AC = p &&& PSW_AC ∧
      ((p &&& ~~~(PSW_C ||| PSW_OV)) ||| flagIf PSW_OV c) &&& PSW_C = 0 ∧
      (((p &&& ~~~(PSW_C ||| PSW_OV)) ||| flagIf PSW_OV c) &&& PSW_OV ≠ 0 ↔ c = true) := by
    intro p c
    revert p
    cases c <;> decide
  obtain ⟨huser, hac, hcy, hov⟩ := hbits (m.sfr PSW) (m.sfr B = 0)
  rw [← hpsw] at huser hac hcy hov
  exact ⟨huser, fun _ => hac, fun h => absurd h (by decide), fun h => absurd h (by decide),
    fun h => absurd h (by decide), fun _ => ⟨hcy, by simpa using hov, hregs⟩⟩

/-- `MUL AB` keeps its frame exactly if the bits that its record clears by mistake were clear. -/
lemma pswFrame_mul (h : PswClass.mul.Sets m m') :
    PswFrame .mul m m' ↔ Label.mul.KeepsFrame m := by
  have hiff : PswFrame .mul m m' ↔ m'.sfr PSW &&& 0x3a = m.sfr PSW &&& 0x3a ∧
      m'.sfr PSW &&& PSW_AC = m.sfr PSW &&& PSW_AC ∧ m'.sfr PSW &&& PSW_C = 0 ∧
      (m'.sfr PSW &&& PSW_OV ≠ 0 ↔ 0xff < (m.sfr ACC).toNat * (m.sfr B).toNat) := by
    constructor
    · intro h
      exact ⟨h.user, h.ac rfl, h.mul rfl⟩
    · rintro ⟨huser, hac, hmul⟩
      exact ⟨huser, fun _ => hac, fun h => absurd h (by decide), fun h => absurd h (by decide),
        fun _ => hmul, fun h => absurd h (by decide)⟩
  rw [hiff, show m'.sfr PSW = _ from h, Label.KeepsFrame]
  by_cases hfit : 0xff < (m.sfr ACC).toNat * (m.sfr B).toNat
  · have hb := (not_congr (hi_mul_eq_zero (m.sfr ACC) (m.sfr B))).2 (not_not.2 hfit)
    rw [mulPsw_of_ne_zero _ hb]
    have hbits : ∀ p : Byte, (PSW_OV &&& 0x3a = p &&& 0x3a ∧ PSW_OV &&& PSW_AC = p &&& PSW_AC) ↔
        p &&& 0x7a = 0 := by decide
    constructor
    · rintro ⟨huser, hac, -⟩
      exact ⟨(hbits _).1 ⟨huser, hac⟩, .inr hfit⟩
    · rintro ⟨hzero, -⟩
      obtain ⟨huser, hac⟩ := (hbits _).2 hzero
      exact ⟨huser, hac, by decide, iff_of_true (by decide) hfit⟩
  · rw [(hi_mul_eq_zero (m.sfr ACC) (m.sfr B)).2 hfit]
    constructor
    · rintro ⟨huser, hac, hcy, hov⟩
      have hov' := not_not.1 (mt hov.1 hfit)
      obtain ⟨hzero, hp⟩ := (mulPsw_of_eq_zero _).1 ⟨huser, hac, hcy, hov'⟩
      exact ⟨hzero, .inl hp⟩
    · rintro ⟨hzero, hp⟩
      obtain ⟨huser, hac, hcy, hov⟩ :=
        (mulPsw_of_eq_zero _).2 ⟨hzero, hp.resolve_right hfit⟩
      exact ⟨huser, hac, hcy, iff_of_false (not_not.2 hov) hfit⟩

/-- A record that stores through `@Ri` keeps the frame exactly if what it stores in `PSW` agrees
with the old value. -/
lemma pswFrame_atRi {a : Byte} (ha : l.isArith = false) (ho : l.mayChangeOV = false)
    (hc : l.mayChangeCY = false) (hm : l ≠ .mul) (hd : l ≠ .div) {v : Byte} {C : Prop}
    (hto : a = PSW → m'.sfr PSW = v) (hother : a ≠ PSW → m'.sfr PSW = m.sfr PSW)
    (hv : (v &&& 0x3a = m.sfr PSW &&& 0x3a ∧ v &&& PSW_AC = m.sfr PSW &&& PSW_AC ∧
      v &&& PSW_OV = m.sfr PSW &&& PSW_OV ∧ v &&& PSW_C = m.sfr PSW &&& PSW_C) ↔ C) :
    PswFrame l m m' ↔ (a = PSW → C) := by
  by_cases hpsw : a = PSW
  · rw [pswFrame_iff_of_quiet ha ho hc, hto hpsw, hv]
    exact ⟨fun h _ => h, fun h => h hpsw⟩
  · exact iff_of_true (.of_eq hm hd (hother hpsw)) fun h => absurd h hpsw

/-- So the records of arithmetic and logic keep the frame, unless their target is `PSW`. -/
lemma pswFrame_of_gen {o : AluOp} {op : Byte} (hc : l.pswClass = .alu o)
    (hl : l.isArith = (o = .add ∨ o = .addc ∨ o = .subb : Bool)) (hm : l ≠ .mul) (hd : l ≠ .div)
    (hto : ¬l.ToPsw m) (h : l.PswSpec script op m m') : PswFrame l m m' := by
  have hflags := h.flags hto
  rw [hc] at hflags
  obtain ⟨a, b, hab⟩ := hflags
  exact .of_apply hm hd hl hab

/-- Record by record: what an instruction does to `PSW` keeps the frame exactly if `KeepsFrame`
holds. -/
lemma pswFrame_iff_of_spec {op : Byte} (hd : l.dest m ≠ some PSW)
    (h : l.PswSpec script op m m') : PswFrame l m m' ↔ l.KeepsFrame m := by
  by_cases hri : l.destAtRi m = none
  · have hto : ¬l.ToPsw m := by
      rintro (hpsw | hpsw)
      · exact hd hpsw
      · exact absurd (hri.symm.trans hpsw) (Option.some_ne_none _).symm
    cases l with
    | mul => exact pswFrame_mul (h.flags hto)
    | div => exact iff_of_true (pswFrame_div (h.flags hto)) trivial
    | incAtr0 | incAtr1 | decAtr0 | decAtr1 | xchdAtr0 | xchdAtr1 =>
      exact absurd hri (by simp [Label.destAtRi])
    | genAi o | genAd o | genR0 o | genR1 o | genAr o | gen2Ia o | gen2Id o =>
      exact iff_of_true (pswFrame_of_gen rfl rfl (by simp) (by simp) hto h) trivial
    | cjneA | cjneB5 | cjneB6 | cjneB7 | cjneR | daA | rrcA | rlcA
    | clrC | setbC | cplC | movCBit | anlCbit | anlCnbit | orlCbit | orlCnbit =>
      exact iff_of_true (.of_carry (by decide) (by decide) rfl (h.flags hto)) trivial
    | _ => exact iff_of_true (.of_eq (by decide) (by decide) (h.flags hto)) trivial
  · have hto : ∀ a, l.destAtRi m = some a → (l.ToPsw m ↔ a = PSW) := by
      intro a ha
      constructor
      · rintro (hpsw | hpsw)
        · exact absurd hpsw hd
        · exact Option.some.inj (ha.symm.trans hpsw)
      · rintro rfl
        exact .inr ha
    cases l with
    | incAtr0 | incAtr1 | decAtr0 | decAtr1 =>
      exact pswFrame_atRi rfl rfl rfl (by decide) (by decide)
        (fun ha => h.toPsw ((hto _ rfl).2 ha)) (fun ha => h.flags fun hn => ha ((hto _ rfl).1 hn))
        (inc_and_iff _)
    | xchdAtr0 | xchdAtr1 =>
      exact pswFrame_atRi rfl rfl rfl (by decide) (by decide)
        (fun ha => h.toPsw ((hto _ rfl).2 ha)) (fun ha => h.flags fun hn => ha ((hto _ rfl).1 hn))
        (digit_and_all _ _)
    | _ => exact absurd rfl hri

/-- An instruction that does not name `PSW` as its destination keeps the `PSW` frame exactly if it
is not one of those that go wrong, or goes right by chance. -/
theorem exec_pswFrame_iff (hs : script.LeavesPsw) (ht : m.ramsfrtrap = Machine.sfrInitTrap)
    (hd : (insnmap (m.fetch 0)).dest m ≠ some PSW) (h : m.exec script = some m') :
    PswFrame (insnmap (m.fetch 0)) m m' ↔ (insnmap (m.fetch 0)).KeepsFrame m :=
  pswFrame_iff_of_spec hd (Machine.exec_psw hs ht h)

/-- About to multiply 20H by 10H, with the carry and the parity bit set. -/
def multiplying : Machine Unit :=
  (((Machine.running [0xa4]).setSfr PSW 0x81).setSfr ACC 0x20).setSfr B 0x10

/-- The theorem for this `MUL AB`. The bits it should not touch are clear, and the product does not
fit in a byte, so that the frame is kept: what is left of the flags is `OV`. -/
theorem exec_pswFrame_iff_mul : ∃ m' : Machine Unit, multiplying.exec noHooks = some m' ∧
    PswFrame (insnmap (multiplying.fetch 0)) multiplying m' ∧ m'.sfr PSW = PSW_OV := by
  have hquiet : noHooks.LeavesPsw := fun _ _ _ h => nomatch h
  have heval : (multiplying.exec noHooks).map (fun m' => m'.sfr PSW) = some PSW_OV := by
    decide +kernel
  obtain ⟨m', hexec, hpsw⟩ := Option.map_eq_some_iff.1 heval
  have hl : insnmap (multiplying.fetch 0) = .mul := by decide
  have hframe := exec_pswFrame_iff hquiet rfl (by rw [hl]; decide) hexec
  refine ⟨m', hexec, hframe.2 ?_, hpsw⟩
  rw [hl]
  exact ⟨by decide, .inr (by decide)⟩

/-- `MUL AB` clears `F0` and the register bank selection. -/
theorem mul_breaks_pswFrame : ¬∀ m m' : Machine Unit, m.ramsfrtrap = Machine.sfrInitTrap →
    (insnmap (m.fetch 0)).dest m ≠ some PSW → m.exec noHooks = some m' →
    PswFrame (insnmap (m.fetch 0)) m m' := by
  intro hall
  have hframe := hall ((Machine.running [0xa4]).setSfr PSW 0x38) _ rfl (by decide) rfl
  exact absurd hframe.user (by decide)

end Emu51

import Emu51.Arithmetic.Flags
import Emu51.Firmware.Listings
import Emu51.Firmware.Running

/-!
# Printing

The routines that print characters and numbers on the UART. Each of them leaves `DPTR`, the register
window and the flag `F0` alone, and what it adds to the output is known (`Prints`).
-/

namespace Emu51

variable {σ : Type}

/-! ## Hexadecimal digits -/

/-- The code of a character. -/
def ascii (c : Char) : Byte := BitVec.ofNat 8 c.toNat

/-- A lowercase hexadecimal digit. -/
def hexDigit (d : ℕ) : Byte := ascii ("0123456789abcdef".toList.getD d '0')

/-- A number in `k` hexadecimal digits. -/
def hexDigits (k n : ℕ) : List Byte :=
  (List.range k).reverse.map fun i => hexDigit (n / 16 ^ i % 16)

example : hexDigits 4 0x1a2f = [ascii '1', ascii 'a', ascii '2', ascii 'f'] := by decide

/-- A byte has two digits, the high one first. -/
lemma hexDigits_byte (x : Byte) :
    hexDigits 2 x.toNat = [hexDigit (x.toNat / 16), hexDigit (x.toNat % 16)] := by
  have hx := x.isLt
  have hdigits : hexDigits 2 x.toNat = [hexDigit (x.toNat / 16 ^ 1 % 16),
    hexDigit (x.toNat / 16 ^ 0 % 16)] := rfl
  rw [hdigits, pow_one, pow_zero, Nat.div_one, Nat.mod_eq_of_lt (by omega : x.toNat / 16 < 16)]

/-- The digits of an address are those of its halves. -/
lemma hexDigits_word (w : Word) :
    hexDigits 4 w.toNat = hexDigits 2 (hi w).toNat ++ hexDigits 2 (lo w).toNat := by
  have hw := w.isLt
  have hdigits : ∀ n, hexDigits 4 n = [hexDigit (n / 4096 % 16), hexDigit (n / 256 % 16),
    hexDigit (n / 16 % 16), hexDigit (n / 1 % 16)] := fun _ => rfl
  have h₃ : w.toNat / 4096 % 16 = w.toNat / 0x100 / 16 := by omega
  have h₂ : w.toNat / 256 % 16 = w.toNat / 0x100 % 16 := by omega
  have h₁ : w.toNat / 16 % 16 = w.toNat % 0x100 / 16 := by omega
  have h₀ : w.toNat / 1 % 16 = w.toNat % 0x100 % 16 := by omega
  rw [hexDigits_byte, hexDigits_byte, toNat_hi, toNat_lo, hdigits, h₀, h₁, h₂, h₃]
  rfl

/-- What `serial_hex_nibble` makes of a digit below ten is its character. -/
lemma hexDigit_low {x : Byte} (h : x.toNat < 10) : x - 0x0a + 0x3a = hexDigit x.toNat := by
  revert x
  decide

/-- And of one from ten on, which `serial_hex_nibble` moves to the lower-case letters. -/
lemma hexDigit_high {x : Byte} (h : 10 ≤ x.toNat) (h' : x.toNat < 16) :
    x - 0x0a + 0x27 + 0x3a = hexDigit x.toNat := by
  revert x
  decide

/-! ## Results of the arithmetic unit -/

/-- After `CLR C` nothing is carried in. -/
lemma carryIn_clear (p : Byte) : carryIn (p &&& ~~~PSW_C) = 0 := by
  rw [carryIn_eq, flag_carry_clear]
  rfl

/-- Without a carry to add, `ADDC` gives the sum as `ADD` does. -/
lemma aluAddc_fst (a b : Byte) {p : Byte} (hp : carryIn p = 0) : (aluAddc a b p).1 = a + b := by
  have hvalue := aluAddc_value a b p
  have hlt := (aluAddc a b p).1.isLt
  apply BitVec.eq_of_toNat_eq
  rw [BitVec.toNat_add]
  omega

/-- `ADD` gives the sum, whatever the flags are. -/
lemma aluAdd_fst (a b p : Byte) : (aluAdd a b p).1 = a + b := aluAddc_fst a b (carryIn_clear p)

/-- There is no carry from a sum that fits in a byte. -/
lemma carryIn_aluAdd {a b : Byte} (h : a.toNat + b.toNat < 0x100) (p : Byte) :
    carryIn (aluAdd a b p).2 = 0 := by
  have hvalue := aluAddc_value a b (p &&& ~~~PSW_C)
  rw [carryIn_clear] at hvalue
  rw [aluAdd]
  omega

/-- After `CLR C`, `SUBB` gives the difference. -/
lemma aluSubb_clear (a b p : Byte) : (aluSubb a b (p &&& ~~~PSW_C)).1 = a - b := by
  have hvalue := aluSubb_value a b (p &&& ~~~PSW_C)
  rw [carryIn_clear] at hvalue
  have hlt := (aluSubb a b (p &&& ~~~PSW_C)).1.isLt
  have ha := a.isLt
  have hb := b.isLt
  apply BitVec.eq_of_toNat_eq
  rw [BitVec.toNat_sub]
  omega

/-- The carry of a subtraction without borrow compares the two operands. -/
lemma flag_carry_aluSubb_clear (a b p : Byte) :
    flag PSW_C (aluSubb a b (p &&& ~~~PSW_C)).2 = decide (a.toNat < b.toNat) := by
  rw [aluSubb_psw, flag_carry_withFlags, carryIn_clear]
  rfl

/-- The mask of the user flag. -/
abbrev PSW_F0 : Byte := 0x20

/-- The arithmetic flags are apart from the flag the firmware uses for itself. -/
lemma flag_f0_withFlags (p : Byte) (c ac ov : Bool) :
    flag PSW_F0 (withFlags p c ac ov) = flag PSW_F0 p := by
  revert p
  cases c <;> cases ac <;> cases ov <;> decide

/-- `CLR C` leaves the flag `F0` alone, in which `hexdump` remembers whether a line begins. -/
lemma flag_f0_clear (p : Byte) : flag PSW_F0 (p &&& ~~~PSW_C) = flag PSW_F0 p := by
  revert p
  decide

/-- `ADD` leaves the flag `F0` alone, as it sets the three arithmetic flags only. -/
lemma flag_f0_aluAdd (a b p : Byte) : flag PSW_F0 (aluAdd a b p).2 = flag PSW_F0 p := by
  rw [aluAdd, aluAddc_psw, flag_f0_withFlags, flag_f0_clear]

/-- `SUBB` leaves the flag `F0` alone, as it sets the three arithmetic flags only. -/
lemma flag_f0_aluSubb (a b p : Byte) : flag PSW_F0 (aluSubb a b p).2 = flag PSW_F0 p := by
  rw [aluSubb_psw, flag_f0_withFlags]

/-! ## What printing does -/

/-- The text goes out, and `DPTR`, the register window and `F0` are as before. -/
structure Prints (s : Regs σ) (text : List Byte) (s' : Regs σ) : Prop where
  out : s'.out = s.out ++ text
  dpl : s'.dpl = s.dpl
  dph : s'.dph = s.dph
  r : s'.r = s.r
  f0 : flag PSW_F0 s'.psw = flag PSW_F0 s.psw

namespace Prints

variable {s s₁ s' : Regs σ} {text text' : List Byte}

/-- Two stretches of code that print one text each print both, one after the other. -/
lemma trans (h : Prints s text s₁) (h' : Prints s₁ text' s') : Prints s (text ++ text') s' where
  out := by rw [h'.out, h.out, List.append_assoc]
  dpl := h'.dpl.trans h.dpl
  dph := h'.dph.trans h.dph
  r := h'.r.trans h.r
  f0 := h'.f0.trans h.f0

/-- Printing leaves the data pointer as it was. -/
lemma dptr (h : Prints s text s') : s'.dptr = s.dptr := by
  rw [Regs.dptr, Regs.dptr, h.dph, h.dpl]

/-- Work in the accumulator, in `B` and on the flags does not print. -/
lemma of_acc (s : Regs σ) (x y : Byte) {p : Byte} (hp : flag PSW_F0 p = flag PSW_F0 s.psw) :
    Prints s [] { s with acc := x, b := y, psw := p } where
  out := (List.append_nil _).symm
  dpl := rfl
  dph := rfl
  r := rfl
  f0 := hp

end Prints

/-! ## The routines -/

namespace Serial

/-- What the code is given: the stack, the register window, but no peripherals. -/
abbrev scope (m : Machine σ) : Scope σ := m.scope .none true 8

/-- A step of the listing. -/
abbrev step (m : Machine σ) (src : SerialSource) : Config σ → Option (Config σ) :=
  Config.step (scope m) src.listing.code

/-- The position of a label. -/
abbrev place (src : SerialSource) (l : SerialLabel) : Option ℕ := some (src.listing.pos l)

variable (m : Machine σ) (src : SerialSource) (s : Regs σ) (q : Option ℕ) (k : List Slot) (n : ℕ)

/-- `serial_write` sends the accumulator. The emulator sets `TI` at once, so the loop that waits for
it makes one round. -/
lemma serialWrite : ∃ s', Leads (step m src) ⟨place src .serialWrite, s, .ret q :: k, n⟩
    ⟨q, s', k, n + 2⟩ ∧ Prints s [s.acc] s' ∧ s'.b = s.b := by
  set s' : Regs σ := { s with scon := Cpu.withBit s.scon (Cpu.bitMask TI) false }.send s.acc
  have hsend : stepIter (step m src) 3 ⟨place src .serialWrite, s, .ret q :: k, n⟩ =
      some ⟨some (if s'.scon &&& Cpu.bitMask TI = 0 then src.listing.pos .serialWriteWait
        else src.listing.pos .serialWriteWait + 1), s', .ret q :: k, n⟩ := by
    cases src <;> rfl
  have hti : ¬s'.scon &&& Cpu.bitMask TI = 0 := by
    have hall : ∀ x : Byte, ¬(x ||| SCON_TI) &&& Cpu.bitMask TI = 0 := by decide
    exact hall _
  rw [if_neg hti] at hsend
  have hret : stepIter (step m src) 1
      ⟨some (src.listing.pos .serialWriteWait + 1), s', .ret q :: k, n⟩ =
        some ⟨q, s', k, n + 2⟩ := by
    cases src <;> rfl
  exact ⟨s', (Leads.of_iter hsend).trans (.of_iter hret), ⟨rfl, rfl, rfl, rfl, rfl⟩, rfl⟩

/-- `serial_hex_nibble` prints the digit that is in the accumulator and returns. -/
lemma serialHexNibble (hdigit : s.acc.toNat < 16) :
    ∃ s', Leads (step m src) ⟨place src .serialHexNibble, s, .ret q :: k, n⟩ ⟨q, s', k, n + 2⟩ ∧
      Prints s [hexDigit s.acc.toNat] s' ∧ s'.b = s.b := by
  set p := s.psw &&& ~~~PSW_C
  set y := aluSubb s.acc 0x0a p with hy
  have hcompare : stepIter (step m src) 3 ⟨place src .serialHexNibble, s, .ret q :: k, n⟩ =
      some ⟨some (if flag PSW_C y.2 then src.listing.pos .serialHexDigit
        else src.listing.pos .serialHexNibble + 3), { s with acc := y.1, psw := y.2 },
        .ret q :: k, n⟩ := by
    cases src <;> rfl
  have hcarry : flag PSW_C y.2 = decide (s.acc.toNat < 10) := flag_carry_aluSubb_clear ..
  have hsub : y.1 = s.acc - 0x0a := aluSubb_clear ..
  have hf0 : flag PSW_F0 y.2 = flag PSW_F0 s.psw := by
    rw [hy, flag_f0_aluSubb, flag_f0_clear]
  by_cases hlow : s.acc.toNat < 10
  · rw [hcarry, decide_eq_true hlow, if_pos rfl] at hcompare
    set z := aluAdd y.1 0x3a y.2 with hz
    have hadd : stepIter (step m src) 1 ⟨place src .serialHexDigit,
        { s with acc := y.1, psw := y.2 }, .ret q :: k, n⟩ = some ⟨place src .serialWrite,
          { s with acc := z.1, psw := z.2 }, .ret q :: k, n⟩ := by
      cases src <;> rfl
    obtain ⟨s', hlead, hprints, hb⟩ :=
      serialWrite m src { s with acc := z.1, psw := z.2 } q k n
    have hchar : z.1 = hexDigit s.acc.toNat := by
      rw [hz, aluAdd_fst, hsub, hexDigit_low hlow]
    rw [← hchar]
    refine ⟨s', (Leads.of_iter hcompare).trans ((Leads.of_iter hadd).trans hlead), ?_, hb⟩
    exact (Prints.of_acc s z.1 s.b (by rw [hz, flag_f0_aluAdd, hf0])).trans hprints
  · rw [hcarry, decide_eq_false hlow, if_neg Bool.false_ne_true] at hcompare
    set w := aluAdd y.1 0x27 y.2 with hw
    set z := aluAdd w.1 0x3a w.2 with hz
    have hadd : stepIter (step m src) 2 ⟨some (src.listing.pos .serialHexNibble + 3),
        { s with acc := y.1, psw := y.2 }, .ret q :: k, n⟩ = some ⟨place src .serialWrite,
          { s with acc := z.1, psw := z.2 }, .ret q :: k, n⟩ := by
      cases src <;> rfl
    obtain ⟨s', hlead, hprints, hb⟩ :=
      serialWrite m src { s with acc := z.1, psw := z.2 } q k n
    have hchar : z.1 = hexDigit s.acc.toNat := by
      rw [hz, aluAdd_fst, hw, aluAdd_fst, hsub, hexDigit_high (Nat.not_lt.1 hlow) hdigit]
    rw [← hchar]
    refine ⟨s', (Leads.of_iter hcompare).trans ((Leads.of_iter hadd).trans hlead), ?_, hb⟩
    exact (Prints.of_acc s z.1 s.b (by rw [hz, flag_f0_aluAdd, hw, flag_f0_aluAdd, hf0])).trans
      hprints

/-- `serial_hex` prints the accumulator in two digits and leaves it as it was. -/
lemma serialHex : ∃ s', Leads (step m src) ⟨place src .serialHex, s, .ret q :: k, n + 2⟩
    ⟨q, s', k, n + 4⟩ ∧ Prints s (hexDigits 2 s.acc.toNat) s' := by
  set high : Byte := (s.acc >>> 4 ||| s.acc <<< 4) &&& 0x0f
  set low : Byte := s.acc &&& 0x0f
  have hhigh : high.toNat = s.acc.toNat / 16 := by
    have hall : ∀ x : Byte, ((x >>> 4 ||| x <<< 4) &&& 0x0f).toNat = x.toNat / 16 := by decide
    exact hall _
  have hlow : low.toNat = s.acc.toNat % 16 := by
    have hall : ∀ x : Byte, (x &&& 0x0f).toNat = x.toNat % 16 := by decide
    exact hall _
  have hlt := s.acc.isLt
  have hfirst : stepIter (step m src) 5 ⟨place src .serialHex, s, .ret q :: k, n + 2⟩ =
      some ⟨place src .serialHexNibble, { s with acc := high, b := s.acc },
        .ret (some (src.listing.pos .serialHex + 5)) :: .ret q :: k, n⟩ := by
    cases src <;> rfl
  obtain ⟨s₁, hlead₁, hprints₁, hb⟩ := serialHexNibble m src { s with acc := high, b := s.acc }
    (some (src.listing.pos .serialHex + 5)) (.ret q :: k) n (by rw [hhigh]; omega)
  have hsecond : stepIter (step m src) 2
      ⟨some (src.listing.pos .serialHex + 5), s₁, .ret q :: k, n + 2⟩ =
        some ⟨place src .serialHexNibble, { s₁ with acc := s₁.b &&& 0x0f }, .ret q :: k,
          n + 2⟩ := by
    cases src <;> rfl
  have hacc : s₁.b &&& 0x0f = low := by rw [hb]
  rw [hacc] at hsecond
  obtain ⟨s₂, hlead₂, hprints₂, -⟩ := serialHexNibble m src { s₁ with acc := low } q k (n + 2)
    (by rw [hlow]; omega)
  refine ⟨s₂, (Leads.of_iter hfirst).trans (hlead₁.trans
    ((Leads.of_iter hsecond).trans hlead₂)), ?_⟩
  have hprints := ((Prints.of_acc s high s.acc rfl).trans hprints₁).trans
    ((Prints.of_acc s₁ low s₁.b rfl).trans hprints₂)
  have htext : hexDigits 2 s.acc.toNat = [hexDigit high.toNat] ++ [hexDigit low.toNat] := by
    rw [hexDigits_byte, hhigh, hlow]
    rfl
  rw [htext]
  exact hprints

/-- `serial_newline` prints a carriage return and a line feed and returns. -/
lemma serialNewline : ∃ s', Leads (step m src) ⟨place src .serialNewline, s, .ret q :: k, n + 2⟩
    ⟨q, s', k, n + 4⟩ ∧ Prints s [13, 10] s' := by
  have hfirst : stepIter (step m src) 2 ⟨place src .serialNewline, s, .ret q :: k, n + 2⟩ =
      some ⟨place src .serialWrite, { s with acc := 13 },
        .ret (some (src.listing.pos .serialNewline + 2)) :: .ret q :: k, n⟩ := by
    cases src <;> rfl
  obtain ⟨s₁, hlead₁, hprints₁, -⟩ := serialWrite m src { s with acc := 13 }
    (some (src.listing.pos .serialNewline + 2)) (.ret q :: k) n
  have hsecond : stepIter (step m src) 2
      ⟨some (src.listing.pos .serialNewline + 2), s₁, .ret q :: k, n + 2⟩ =
        some ⟨place src .serialWrite, { s₁ with acc := 10 },
          .ret (some (src.listing.pos .serialNewline + 4)) :: .ret q :: k, n⟩ := by
    cases src <;> rfl
  obtain ⟨s₂, hlead₂, hprints₂, -⟩ := serialWrite m src { s₁ with acc := 10 }
    (some (src.listing.pos .serialNewline + 4)) (.ret q :: k) n
  have hret : stepIter (step m src) 1
      ⟨some (src.listing.pos .serialNewline + 4), s₂, .ret q :: k, n + 2⟩ =
        some ⟨q, s₂, k, n + 4⟩ := by
    cases src <;> rfl
  refine ⟨s₂, (Leads.of_iter hfirst).trans (hlead₁.trans ((Leads.of_iter hsecond).trans
    (hlead₂.trans (.of_iter hret)))), ?_⟩
  exact ((Prints.of_acc s 13 s.b rfl).trans hprints₁).trans
    ((Prints.of_acc s₁ 10 s₁.b rfl).trans hprints₂)

/-- `hexaddr` prints the four digits of `DPTR` and a colon and returns. -/
lemma hexaddr : ∃ s', Leads (step m src) ⟨place src .hexaddr, s, .ret q :: k, n + 4⟩
    ⟨q, s', k, n + 6⟩ ∧ Prints s (hexDigits 4 s.dptr.toNat ++ [ascii ':']) s' := by
  have hfirst : stepIter (step m src) 2 ⟨place src .hexaddr, s, .ret q :: k, n + 4⟩ =
      some ⟨place src .serialHex, { s with acc := s.dph },
        .ret (some (src.listing.pos .hexaddr + 2)) :: .ret q :: k, n + 2⟩ := by
    cases src <;> rfl
  obtain ⟨s₁, hlead₁, hprints₁⟩ := serialHex m src { s with acc := s.dph }
    (some (src.listing.pos .hexaddr + 2)) (.ret q :: k) n
  have hsecond : stepIter (step m src) 2
      ⟨some (src.listing.pos .hexaddr + 2), s₁, .ret q :: k, n + 4⟩ =
        some ⟨place src .serialHex, { s₁ with acc := s₁.dpl },
          .ret (some (src.listing.pos .hexaddr + 4)) :: .ret q :: k, n + 2⟩ := by
    cases src <;> rfl
  obtain ⟨s₂, hlead₂, hprints₂⟩ := serialHex m src { s₁ with acc := s₁.dpl }
    (some (src.listing.pos .hexaddr + 4)) (.ret q :: k) n
  have hthird : stepIter (step m src) 2
      ⟨some (src.listing.pos .hexaddr + 4), s₂, .ret q :: k, n + 4⟩ =
        some ⟨place src .serialWrite, { s₂ with acc := ascii ':' },
          .ret (some (src.listing.pos .hexaddr + 6)) :: .ret q :: k, n + 2⟩ := by
    cases src <;> rfl
  obtain ⟨s₃, hlead₃, hprints₃, -⟩ := serialWrite m src { s₂ with acc := ascii ':' }
    (some (src.listing.pos .hexaddr + 6)) (.ret q :: k) (n + 2)
  have hret : stepIter (step m src) 1
      ⟨some (src.listing.pos .hexaddr + 6), s₃, .ret q :: k, n + 4⟩ =
        some ⟨q, s₃, k, n + 6⟩ := by
    cases src <;> rfl
  refine ⟨s₃, (Leads.of_iter hfirst).trans (hlead₁.trans ((Leads.of_iter hsecond).trans
    (hlead₂.trans ((Leads.of_iter hthird).trans (hlead₃.trans (.of_iter hret)))))), ?_⟩
  have hprints := (((Prints.of_acc s s.dph s.b rfl).trans hprints₁).trans
    ((Prints.of_acc s₁ s₁.dpl s₁.b rfl).trans hprints₂)).trans
      ((Prints.of_acc s₂ (ascii ':') s₂.b rfl).trans hprints₃)
  have hdpl : s₁.dpl = s.dpl := hprints₁.dpl
  rw [hdpl] at hprints
  rw [hexDigits_word, Regs.dptr, hi_word, lo_word]
  exact hprints

/-- The memory `read_byte` reads: code if `R7` is 0, external data if it is 1. -/
def memory (m : Machine σ) (r7 : Byte) : Word → Byte := if r7 = 0 then m.readc else m.readx

/-- `read_byte` loads the byte `DPTR` points at, of code or of data memory, by `R7`. -/
lemma readByte (h : s.r 7 = 0 ∨ s.r 7 = 1) :
    Leads (step m src) ⟨place src .readByte, s, .ret q :: k, n⟩
      ⟨q, { s with acc := memory m (s.r 7) s.dptr }, k, n + 2⟩ := by
  have hfirst : stepIter (step m src) 2 ⟨place src .readByte, s, .ret q :: k, n⟩ =
      some ⟨some (if s.r 7 == 0 then src.listing.pos .readCodeByte
        else src.listing.pos .readByte + 2), { s with acc := s.r 7 }, .ret q :: k, n⟩ := by
    cases src <;> rfl
  rcases h with h | h
  · have hcode : stepIter (step m src) 3
        ⟨place src .readCodeByte, { s with acc := s.r 7 }, .ret q :: k, n⟩ =
          some ⟨q, { s with acc := m.readc (s.dptr + 0) }, k, n + 2⟩ := by
      cases src <;> rfl
    rw [if_pos (by rw [h]; decide)] at hfirst
    rw [memory, if_pos h, ← show s.dptr + 0 = s.dptr from BitVec.add_zero _]
    exact (Leads.of_iter hfirst).trans (.of_iter hcode)
  · have htest : stepIter (step m src) 2
        ⟨some (src.listing.pos .readByte + 2), { s with acc := s.r 7 }, .ret q :: k, n⟩ =
          some ⟨some (if s.r 7 - 1 == 0 then src.listing.pos .readDataByte
            else src.listing.pos .readByte + 4), { s with acc := s.r 7 - 1 }, .ret q :: k, n⟩ := by
      cases src <;> rfl
    have hdata : stepIter (step m src) 2
        ⟨place src .readDataByte, { s with acc := s.r 7 - 1 }, .ret q :: k, n⟩ =
          some ⟨q, { s with acc := m.readx s.dptr }, k, n + 2⟩ := by
      cases src <;> rfl
    rw [if_neg (by rw [h]; decide)] at hfirst
    rw [if_pos (by rw [h]; decide)] at htest
    rw [memory, if_neg (by rw [h]; decide)]
    exact (Leads.of_iter hfirst).trans ((Leads.of_iter htest).trans (.of_iter hdata))

end Serial

end Emu51

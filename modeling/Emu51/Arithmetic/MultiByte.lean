import Emu51.Arithmetic.Flags
import Emu51.Library.CarryChain
import Emu51.Machine.System

/-!
# Arithmetic on numbers of many bytes

Programs add, subtract and shift numbers of many bytes one byte at a time, with the carry in `PSW`
between the bytes. What they load and store in between leaves `PSW` alone, so it is enough to follow
`PSW`: `PswStep` is one instruction of such a program, on a machine whose other state is whatever
the program has made it. The results are exact for numbers of any length (`run_multiByte`).
-/

namespace Emu51

variable {σ : Type}

/-! ## Single instructions -/

/-- The operation of an instruction of the arithmetic unit and how it gets its operand. -/
def Label.arith (op : Byte) : Label → Option (AluOp × Cpu Byte)
  | genAi o => some (o, Cpu.fetch 1)
  | genAd o => some (o, Ops.direct1)
  | genR0 o => some (o, Cpu.getRx 0 >>= Cpu.readd)
  | genR1 o => some (o, Cpu.getRx 1 >>= Cpu.readd)
  | genAr o => some (o, Cpu.getRx (op.setWidth 3))
  | _ => none

/-- What an instruction did to one byte: `a` is what it found in `ACC`, `b` its operand and `r` what
it left in `ACC`. -/
inductive ByteInsn where
  | clrC
  | alu (o : AluOp) (a b r : Byte)
  | rlc (a r : Byte)
  | rrc (a r : Byte)
  | da (a r : Byte)

namespace ByteInsn

/-- The instruction at `pc` does this. Reading its operand leaves `PSW` alone. -/
def Executes (script : Script σ) (i : ByteInsn) (m m' : Machine σ) : Prop :=
  m.exec script = some m' ∧ match i with
    | clrC => insnmap (m.fetch 0) = .clrC
    | alu o a b r => m.sfr ACC = a ∧ m'.sfr ACC = r ∧
        ∃ x m₁, (insnmap (m.fetch 0)).arith (m.fetch 0) = some (o, x) ∧
          x.run (cpuExec script) m = some (b, m₁) ∧ m₁.sfr PSW = m.sfr PSW
    | rlc a r => insnmap (m.fetch 0) = .rlcA ∧ m.sfr ACC = a ∧ m'.sfr ACC = r
    | rrc a r => insnmap (m.fetch 0) = .rrcA ∧ m.sfr ACC = a ∧ m'.sfr ACC = r
    | da a r => insnmap (m.fetch 0) = .daA ∧ m.sfr ACC = a ∧ m'.sfr ACC = r

/-- The result and the new `PSW` of an instruction that finds `p` in `PSW`. -/
def Results (p p' : Byte) : ByteInsn → Prop
  | clrC => p' = p &&& ~~~PSW_C
  | alu o a b r => (r, p') = o.apply a b p
  | rlc a r => r = a <<< 1 ||| p >>> 7 ∧ p' = (p &&& ~~~PSW_C) ||| (a &&& PSW_C)
  | rrc a r => r = a >>> 1 ||| (p &&& PSW_C) ∧ p' = (p &&& ~~~PSW_C) ||| a <<< 7
  | da a r => r = (Ops.daAdjust a p).setWidth 8 ∧
      p' = if Ops.daAdjust a p > 0x99 then p ||| PSW_C else p

end ByteInsn

open ByteInsn in
/-- One instruction, seen from `PSW`. -/
def PswStep (script : Script σ) (p : Byte) (i : ByteInsn) (p' : Byte) : Prop :=
  ∃ m m' : Machine σ, Executes script i m m' ∧ m.sfr PSW = p ∧ m'.sfr PSW = p'

/-- The five forms of an operation differ in how they get the operand. -/
lemma Label.arith_code {l : Label} {op : Byte} {o : AluOp} {x : Cpu Byte}
    (h : l.arith op = some (o, x)) : (l.record op).code = Cpu.get .acc >>= fun acc =>
      x >>= fun v => Cpu.aluOp o acc v >>= fun res => Cpu.set .acc res := by
  cases l with
  | genAi o | genAd o | genR0 o | genR1 o | genAr o =>
    obtain ⟨rfl, rfl⟩ := Prod.mk.inj (Option.some.inj h)
    rfl
  | _ => exact absurd h (by simp [Label.arith])

namespace Machine

variable {script : Script σ} {m m₁ m' : Machine σ}

/-- An instruction of the arithmetic unit whose operand can be read does its operation. -/
theorem exec_arith {o : AluOp} {x : Cpu Byte} {b : Byte}
    (h : (insnmap (m.fetch 0)).arith (m.fetch 0) = some (o, x))
    (hx : x.run (cpuExec script) m = some (b, m₁)) : ∃ w, m.exec script =
      some (((m₁.setSfr PSW (o.apply (m.sfr ACC) b (m₁.sfr PSW)).2).setSfr ACC
        (o.apply (m.sfr ACC) b (m₁.sfr PSW)).1).setPc w) := by
  have hrun : ((insnmap (m.fetch 0)).record (m.fetch 0)).code.run (cpuExec script) m =
      some ((), (m₁.setSfr PSW (o.apply (m.sfr ACC) b (m₁.sfr PSW)).2).setSfr ACC
        (o.apply (m.sfr ACC) b (m₁.sfr PSW)).1) := by
    rw [Label.arith_code h]
    simp only [Prog.run_bind, Cpu.run_get, Option.bind_some, hx, Cpu.run_aluOp, Cpu.run_set]
  exact ⟨_, dispatch_of_run rfl hrun⟩

/-- What `DA A` leaves in `ACC` and `PSW`, from the adjusted sum, and nothing else. -/
lemma run_daA (script : Script σ) (m : Machine σ) :
    ∃ m', Ops.daA.code.run (cpuExec script) m = some ((), m') ∧
      m'.sfr ACC = (Ops.daAdjust (m.sfr ACC) (m.sfr PSW)).setWidth 8 ∧
      m'.sfr PSW = if Ops.daAdjust (m.sfr ACC) (m.sfr PSW) > 0x99 then m.sfr PSW ||| PSW_C
        else m.sfr PSW := by
  simp only [Ops.daA, Prog.run_bind, Cpu.run_get, Option.bind_some, Cpu.run_set, CoreReg.addr]
  split_ifs
  · exact ⟨_, rfl, rfl, rfl⟩
  · exact ⟨_, rfl, rfl, rfl⟩

end Machine

open ByteInsn in
/-- What an instruction does to the accumulator and to `PSW`. -/
lemma PswStep.results {script : Script σ} {p p' : Byte} {i : ByteInsn}
    (h : PswStep script p i p') : i.Results p p' := by
  obtain ⟨m, m', ⟨hexec, hi⟩, rfl, rfl⟩ := h
  have hstate : ∀ {l : Label} {m₂ : Machine σ}, insnmap (m.fetch 0) = l →
      (l.record (m.fetch 0)).code.run (cpuExec script) m = some ((), m₂) →
        m'.sfr ACC = m₂.sfr ACC ∧ m'.sfr PSW = m₂.sfr PSW := by
    intro l m₂ hl hrun
    obtain rfl := Option.some.inj ((Machine.dispatch_of_run hl hrun).symm.trans hexec)
    exact ⟨rfl, rfl⟩
  cases i with
  | clrC => exact (hstate hi rfl).2
  | alu o a b r =>
    obtain ⟨rfl, rfl, x, m₁, harith, hx, hpsw⟩ := hi
    obtain ⟨w, hw⟩ := Machine.exec_arith harith hx
    obtain rfl := Option.some.inj (hw.symm.trans hexec)
    rw [hpsw]
    rfl
  | rlc a r =>
    obtain ⟨hl, rfl, rfl⟩ := hi
    exact hstate hl rfl
  | rrc a r =>
    obtain ⟨hl, rfl, rfl⟩ := hi
    exact hstate hl rfl
  | da a r =>
    obtain ⟨hl, rfl, rfl⟩ := hi
    obtain ⟨m₂, hrun, hacc, hpsw⟩ := Machine.run_daA script m
    obtain ⟨hacc', hpsw'⟩ := hstate hl hrun
    exact ⟨hacc'.trans hacc, hpsw'.trans hpsw⟩

/-- Where the operand can be read, the instruction is performed. -/
lemma pswStep_arith {script : Script σ} {m m₁ : Machine σ} {o : AluOp} {x : Cpu Byte}
    {a b r p p' : Byte} (h : (insnmap (m.fetch 0)).arith (m.fetch 0) = some (o, x))
    (hx : x.run (cpuExec script) m = some (b, m₁)) (hpsw : m₁.sfr PSW = m.sfr PSW)
    (ha : m.sfr ACC = a) (hp : m.sfr PSW = p) (hr : o.apply a b p = (r, p')) :
    PswStep script p (.alu o a b r) p' := by
  obtain ⟨w, hw⟩ := Machine.exec_arith h hx
  rw [hpsw, ha, hp, hr] at hw
  exact ⟨m, _, ⟨hw, ha, rfl, x, m₁, h, hx, hpsw⟩, hp, rfl⟩

/-! ## Numbers -/

/-- A number of several bytes, the lowest first. -/
def value (bs : List Byte) : ℕ := Nat.ofDigits 256 (bs.map BitVec.toNat)

/-- The number in two's complement: the highest byte carries the sign. -/
def signed (bs : List Byte) : ℤ := Digits.topValue 256 (fun b : Byte => b.toNat) BitVec.toInt bs

/-- A number is in the range of `n` bytes in two's complement. -/
def Fits (n : ℕ) (s : ℤ) : Prop := -256 ^ n ≤ 2 * s ∧ 2 * s < 256 ^ n

/-- The bytes at one position: of the first operand, of the second and of the result. -/
structure Column where
  a : Byte
  b : Byte
  r : Byte

/-- `ADD` on the lowest byte, `ADDC` on the others. -/
def adding : List Column → List ByteInsn
  | [] => []
  | x :: xs => .alu .add x.a x.b x.r :: xs.map fun y => .alu .addc y.a y.b y.r

/-- `CLR C`, then `SUBB` on each byte. -/
def subtracting (xs : List Column) : List ByteInsn :=
  .clrC :: xs.map fun x => .alu .subb x.a x.b x.r

/-- `CLR C`, then `RLC` on each byte, from low to high. -/
def doubling (xs : List (Byte × Byte)) : List ByteInsn := .clrC :: xs.map fun x => .rlc x.1 x.2

/-- `CLR C`, then `RRC` on each byte, from high to low. -/
def halving (xs : List (Byte × Byte)) : List ByteInsn :=
  .clrC :: xs.reverse.map fun x => .rrc x.1 x.2

/-- A number of as many bytes as there are is below that power of 256. -/
lemma value_lt (bs : List Byte) : value bs < 256 ^ bs.length :=
  Digits.ofDigits_map_lt (by decide) BitVec.isLt bs

/-- The value of bytes that a function picks from columns is the number with those digits in base
256. -/
lemma value_map {ι : Type} (f : ι → Byte) (xs : List ι) :
    value (xs.map f) = Nat.ofDigits 256 (xs.map fun x => (f x).toNat) := by
  rw [value, List.map_map]
  rfl

/-- Bytes that a function picks from columns are a number below the power of 256 for the columns. -/
lemma value_map_lt {ι : Type} (f : ι → Byte) (xs : List ι) :
    value (xs.map f) < 256 ^ xs.length := by
  have hlt := value_lt (xs.map f)
  rwa [List.length_map] at hlt

/-- The signed value counts all bytes but the top one as they are, and the top one with its sign. -/
lemma signed_map {ι : Type} (f : ι → Byte) (xs : List ι) : signed (xs.map f) =
    Digits.topValue 256 (fun x => (f x).toNat) (fun x => (f x).toInt) xs := Digits.topValue_map ..

/-! ## Whole numbers -/

/-- What comes out of a chain of digits below the modulus, and when its last carry is set. -/
lemma mod_and_carry {v r modulus : ℕ} {c : Bool} (h : v = r + modulus * c.toNat)
    (hr : r < modulus) : r = v % modulus ∧ (c = true ↔ modulus ≤ v) := by
  cases c with
  | false =>
    obtain rfl : v = r := by simpa using h
    exact ⟨(Nat.mod_eq_of_lt hr).symm, by simpa using hr⟩
  | true =>
    have hv : v = r + modulus := by simpa using h
    rw [hv, Nat.add_mod_right, Nat.mod_eq_of_lt hr]
    simp

/-- The same for a chain of borrows: the result and the last borrow tell the difference. -/
lemma sub_and_borrow {a b r modulus : ℕ} {c : Bool} (h : b + r + 0 = a + modulus * c.toNat)
    (hr : r < modulus) : (r : ℤ) = ((a : ℤ) - b) % (modulus : ℕ) ∧ (c = true ↔ a < b) := by
  have hr' : (r : ℤ) < (modulus : ℕ) := by exact_mod_cast hr
  have hr₀ : (0 : ℤ) ≤ r := Int.natCast_nonneg r
  cases c with
  | false =>
    have hab : (a : ℤ) - b = r := by
      simp only [Bool.toNat_false] at h
      omega
    rw [hab, Int.emod_eq_of_lt hr₀ hr']
    simp only [Bool.false_eq_true, false_iff, true_and]
    omega
  | true =>
    have hab : (a : ℤ) - b = r - (modulus : ℕ) := by
      simp only [Bool.toNat_true] at h
      omega
    rw [hab, Int.sub_emod_right, Int.emod_eq_of_lt hr₀ hr']
    simp only [true_and, true_iff]
    omega

section Chains

variable {p p' : Byte}

/-- A column is added. -/
def AddsColumn (p : Byte) (x : Column) (p' : Byte) : Prop := (x.r, p') = aluAddc x.a x.b p

/-- A column is subtracted. -/
def SubtractsColumn (p : Byte) (x : Column) (p' : Byte) : Prop := (x.r, p') = aluSubb x.a x.b p

/-- One column of an addition adds up: operands and carry in are the result and the carry out. -/
lemma AddsColumn.value {x : Column} (h : AddsColumn p x p') :
    x.a.toNat + x.b.toNat + carryIn p = x.r.toNat + 256 * carryIn p' := by
  obtain ⟨hr, hp⟩ := Prod.mk.inj h
  rw [hr, hp]
  exact aluAddc_value x.a x.b p

/-- One column of a subtraction adds up the other way, the borrows counting as carries. -/
lemma SubtractsColumn.value {x : Column} (h : SubtractsColumn p x p') :
    x.b.toNat + x.r.toNat + carryIn p = x.a.toNat + 256 * carryIn p' := by
  obtain ⟨hr, hp⟩ := Prod.mk.inj h
  rw [hr, hp]
  exact aluSubb_value x.a x.b p

/-- Numbers of any length are added column by column, and the last carry is the digit that does not
fit. -/
lemma run_adds {tr : List (Byte × Column)} {xs : List Column} (h : Run AddsColumn p tr p')
    (htr : tr.map Prod.snd = xs) (hp : flag PSW_C p = false) (hne : xs ≠ []) :
    value (xs.map Column.r) =
        (value (xs.map Column.a) + value (xs.map Column.b)) % 256 ^ xs.length ∧
      (flag PSW_C p' = true ↔ 256 ^ xs.length ≤ value (xs.map Column.a) + value (xs.map Column.b)) ∧
      (flag PSW_OV p' = true ↔
        ¬Fits xs.length (signed (xs.map Column.a) + signed (xs.map Column.b))) := by
  have hvalue := h.ascending (fun c x c' hx => AddsColumn.value hx) htr
  have hover := h.out_of_range_iff (b := 256) (P := fun q => flag PSW_OV q = true)
    (f := fun x => x.a.toNat + x.b.toNat) (g := fun x => x.r.toNat)
    (t := fun x => x.a.toInt + x.b.toInt) (k := fun q => carryIn q) (by decide)
    (fun x => ⟨by omega, by exact_mod_cast x.r.isLt⟩)
    (fun c x c' hx => by exact_mod_cast AddsColumn.value hx)
    (fun c x c' hx => by
      rw [(Prod.mk.inj hx).2]
      exact aluAddc_overflow x.a x.b c) htr hne
  rw [carryIn_eq, carryIn_eq, hp, Digits.ofDigits_map_add, ← value_map, ← value_map,
    ← value_map] at hvalue
  rw [carryIn_eq, hp, Digits.topValue_add, Bool.toNat_false, Nat.cast_zero, add_zero] at hover
  obtain ⟨hmod, hcarry⟩ := mod_and_carry hvalue (value_map_lt _ xs)
  rw [signed_map, signed_map]
  exact ⟨hmod, hcarry, hover⟩

/-- Numbers of any length are subtracted column by column, and the last borrow tells which one is
larger. -/
lemma run_subtracts {tr : List (Byte × Column)} {xs : List Column}
    (h : Run SubtractsColumn p tr p') (htr : tr.map Prod.snd = xs) (hp : flag PSW_C p = false)
    (hne : xs ≠ []) :
    (value (xs.map Column.r) : ℤ) =
        (value (xs.map Column.a) - value (xs.map Column.b) : ℤ) % 256 ^ xs.length ∧
      (flag PSW_C p' = true ↔ value (xs.map Column.a) < value (xs.map Column.b)) ∧
      (flag PSW_OV p' = true ↔
        ¬Fits xs.length (signed (xs.map Column.a) - signed (xs.map Column.b))) := by
  have hvalue := h.ascending (fun c x c' hx => SubtractsColumn.value hx) htr
  have hover := h.out_of_range_iff (b := 256) (P := fun q => flag PSW_OV q = true)
    (f := fun x => x.a.toNat - x.b.toNat) (g := fun x => x.r.toNat)
    (t := fun x => x.a.toInt - x.b.toInt) (k := fun q => -carryIn q) (by decide)
    (fun x => ⟨by omega, by exact_mod_cast x.r.isLt⟩)
    (fun c x c' hx => by have := SubtractsColumn.value hx; omega)
    (fun c x c' hx => by
      rw [(Prod.mk.inj hx).2, ← sub_eq_add_neg]
      exact aluSubb_overflow x.a x.b c) htr hne
  rw [carryIn_eq, carryIn_eq, hp, Digits.ofDigits_map_add, ← value_map, ← value_map,
    ← value_map] at hvalue
  rw [carryIn_eq, hp, Digits.topValue_sub, Bool.toNat_false, Nat.cast_zero, neg_zero,
    add_zero] at hover
  obtain ⟨hmod, hborrow⟩ := sub_and_borrow hvalue (value_map_lt _ xs)
  rw [signed_map, signed_map]
  exact ⟨by exact_mod_cast hmod, hborrow, hover⟩

/-- A byte is shifted left. -/
def ShiftsLeft (p : Byte) (x : Byte × Byte) (p' : Byte) : Prop :=
  x.2 = x.1 <<< 1 ||| p >>> 7 ∧ p' = (p &&& ~~~PSW_C) ||| (x.1 &&& PSW_C)

/-- A byte is shifted right. -/
def ShiftsRight (p : Byte) (x : Byte × Byte) (p' : Byte) : Prop :=
  x.2 = x.1 >>> 1 ||| (p &&& PSW_C) ∧ p' = (p &&& ~~~PSW_C) ||| x.1 <<< 7

/-- The carry is what has been put in its place. -/
lemma flag_carry_put (p q : Byte) : flag PSW_C (p &&& ~~~PSW_C ||| q) = flag PSW_C q := by
  have hclear : p &&& ~~~PSW_C &&& PSW_C = 0 := by
    revert p
    decide
  rw [flag, flag, BitVec.and_or_distrib_right, hclear]
  simp

/-- One `RLC A` doubles its byte, with the carries in at the bottom and out at the top. -/
lemma ShiftsLeft.value {x : Byte × Byte} (h : ShiftsLeft p x p') :
    2 * x.1.toNat + carryIn p = x.2.toNat + 256 * carryIn p' := by
  have hbit : ∀ q : Byte, q >>> 7 = if flag PSW_C q then 1 else 0 := by decide
  rw [carryIn_eq, carryIn_eq, h.1, h.2, flag_carry_put, hbit]
  generalize x.1 = a
  cases flag PSW_C p <;> revert a <;> decide

/-- One `RRC A` halves its byte, with the carries in at the top and out at the bottom. -/
lemma ShiftsRight.value {x : Byte × Byte} (h : ShiftsRight p x p') :
    256 * carryIn p + x.1.toNat = 2 * x.2.toNat + carryIn p' := by
  have hbit : ∀ q : Byte, q &&& PSW_C = if flag PSW_C q then PSW_C else 0 := by decide
  rw [carryIn_eq, carryIn_eq, h.1, h.2, flag_carry_put, hbit]
  generalize x.1 = a
  cases flag PSW_C p <;> revert a <;> decide

/-- To double a number is to double its digits. -/
lemma ofDigits_map_double (b : ℕ) {ι : Type} (f : ι → ℕ) (xs : List ι) :
    Nat.ofDigits b (xs.map fun x => 2 * f x) = 2 * Nat.ofDigits b (xs.map f) := by
  simp only [two_mul]
  exact Digits.ofDigits_map_add b f f xs

/-- A number of any length is doubled byte by byte, from the lowest one up. -/
lemma run_shifts_left {tr : List (Byte × Byte × Byte)} {xs : List (Byte × Byte)}
    (h : Run ShiftsLeft p tr p') (htr : tr.map Prod.snd = xs) (hp : flag PSW_C p = false) :
    value (xs.map Prod.snd) = 2 * value (xs.map Prod.fst) % 256 ^ xs.length ∧
      (flag PSW_C p' = true ↔ 256 ^ xs.length ≤ 2 * value (xs.map Prod.fst)) := by
  have hvalue := h.ascending (fun c x c' hx => ShiftsLeft.value hx) htr
  rw [carryIn_eq, carryIn_eq, hp, ofDigits_map_double, ← value_map, ← value_map] at hvalue
  exact mod_and_carry hvalue (value_map_lt _ xs)

/-- A number of any length is halved byte by byte, from the highest one down. -/
lemma run_shifts_right {tr : List (Byte × Byte × Byte)} {xs : List (Byte × Byte)}
    (h : Run ShiftsRight p tr p') (htr : tr.map Prod.snd = xs.reverse)
    (hp : flag PSW_C p = false) :
    value (xs.map Prod.snd) = value (xs.map Prod.fst) / 2 ∧
      (flag PSW_C p' = true ↔ value (xs.map Prod.fst) % 2 = 1) := by
  have hvalue := h.descending (fun c x c' hx => ShiftsRight.value hx) htr
  rw [carryIn_eq, carryIn_eq, hp, ← List.map_reverse, ← List.map_reverse, List.reverse_reverse,
    ofDigits_map_double, ← value_map, ← value_map] at hvalue
  cases hc : flag PSW_C p' with
  | false =>
    rw [hc] at hvalue
    simp only [Bool.toNat_false, Bool.false_eq_true, false_iff] at hvalue ⊢
    omega
  | true =>
    rw [hc] at hvalue
    simp only [Bool.toNat_false, Bool.toNat_true, true_iff] at hvalue ⊢
    omega

end Chains

/-- Addition, subtraction and shifts by one bit are exact on numbers of any length, whatever `PSW`
is to begin with. -/
theorem run_multiByte {script : Script σ} {p p' : Byte} {tr : List (Byte × ByteInsn)}
    (h : Run (PswStep script) p tr p') :
    (∀ xs, xs ≠ [] → tr.map Prod.snd = adding xs →
      value (xs.map Column.r) =
          (value (xs.map Column.a) + value (xs.map Column.b)) % 256 ^ xs.length ∧
        (flag PSW_C p' = true ↔
          256 ^ xs.length ≤ value (xs.map Column.a) + value (xs.map Column.b)) ∧
        (flag PSW_OV p' = true ↔
          ¬Fits xs.length (signed (xs.map Column.a) + signed (xs.map Column.b)))) ∧
    (∀ xs, xs ≠ [] → tr.map Prod.snd = subtracting xs →
      (value (xs.map Column.r) : ℤ) =
          (value (xs.map Column.a) - value (xs.map Column.b) : ℤ) % 256 ^ xs.length ∧
        (flag PSW_C p' = true ↔ value (xs.map Column.a) < value (xs.map Column.b)) ∧
        (flag PSW_OV p' = true ↔
          ¬Fits xs.length (signed (xs.map Column.a) - signed (xs.map Column.b)))) ∧
    (∀ xs, xs ≠ [] → tr.map Prod.snd = doubling xs →
      value (xs.map Prod.snd) = 2 * value (xs.map Prod.fst) % 256 ^ xs.length ∧
        (flag PSW_C p' = true ↔ 256 ^ xs.length ≤ 2 * value (xs.map Prod.fst))) ∧
    (∀ xs, xs ≠ [] → tr.map Prod.snd = halving xs →
      value (xs.map Prod.snd) = value (xs.map Prod.fst) / 2 ∧
        (flag PSW_C p' = true ↔ value (xs.map Prod.fst) % 2 = 1)) := by
  refine ⟨?_, ?_, ?_, ?_⟩
  · intro xs hne htr
    cases xs with
    | nil => exact absurd rfl hne
    | cons x xs =>
      obtain ⟨p₁, tr₁, hx, hrun, htr₁⟩ := h.uncons htr
      obtain ⟨tr₂, htr₂, hadds⟩ := hrun.relabel (S := AddsColumn)
        (fun c x c' hstep => hstep.results) htr₁
      -- `ADD` is `ADDC` with the carry cleared
      have hx' : AddsColumn (p &&& ~~~PSW_C) x p₁ := hx.results
      exact run_adds (.head hx' hadds) (congrArg (x :: ·) htr₂) (flag_carry_clear p) hne
  · intro xs hne htr
    obtain ⟨p₁, tr₁, hclr, hrun, htr₁⟩ := h.uncons htr
    obtain ⟨tr₂, htr₂, hsubs⟩ := hrun.relabel (S := SubtractsColumn)
      (fun c x c' hstep => hstep.results) htr₁
    obtain rfl : p₁ = p &&& ~~~PSW_C := hclr.results
    exact run_subtracts hsubs htr₂ (flag_carry_clear p) hne
  · intro xs _ htr
    obtain ⟨p₁, tr₁, hclr, hrun, htr₁⟩ := h.uncons htr
    obtain ⟨tr₂, htr₂, hshifts⟩ := hrun.relabel (S := ShiftsLeft)
      (fun c x c' hstep => hstep.results) htr₁
    obtain rfl : p₁ = p &&& ~~~PSW_C := hclr.results
    exact run_shifts_left hshifts htr₂ (flag_carry_clear p)
  · intro xs _ htr
    obtain ⟨p₁, tr₁, hclr, hrun, htr₁⟩ := h.uncons htr
    obtain ⟨tr₂, htr₂, hshifts⟩ := hrun.relabel (S := ShiftsRight)
      (fun c x c' hstep => hstep.results) htr₁
    obtain rfl : p₁ = p &&& ~~~PSW_C := hclr.results
    exact run_shifts_right hshifts htr₂ (flag_carry_clear p)

/-- The code that `running` runs lies at 0, with zeros behind it. -/
lemma running_readc (code : List Byte) (a : Word) :
    (Machine.running code).readc a = code.getD a.toNat 0 := by
  have hplace : ((hi a).toNat * 0x100 + (lo a).toNat : ℤ).toNat = a.toNat := by
    rw [toNat_hi, toNat_lo]
    omega
  exact congrArg (code.getD · 0) hplace

/-- `ADD A,#b`, `ADDC A,#b` and the like are performed on any accumulator and `PSW`. -/
lemma pswStep_imm {op : Byte} {o : AluOp} (hl : insnmap op = .genAi o) (p a b : Byte) {r p' : Byte}
    (hr : o.apply a b p = (r, p')) : PswStep noHooks p (.alu o a b r) p' := by
  let m := ((Machine.running [op, b]).setSfr PSW p).setSfr ACC a
  have hop : m.fetch 0 = op := running_readc [op, b] 0
  have hb : m.fetch 1 = b := running_readc [op, b] 1
  have harith : (insnmap (m.fetch 0)).arith (m.fetch 0) = some (o, Cpu.fetch 1) := by
    rw [hop, hl]
    rfl
  have hx : (Cpu.fetch 1).run (cpuExec noHooks) m = some (b, m) := by
    rw [Cpu.run_fetch, hb]
  have hpsw : m.sfr PSW = p :=
    (Machine.sfr_setSfr_of_ne _ _ (by decide)).trans (Machine.sfr_setSfr_self _ _ _)
  exact pswStep_arith harith hx rfl (Machine.sfr_setSfr_self _ _ _) hpsw hr

/-- `DA A` is performed on them, too, where the code for it lies at `pc`. -/
lemma pswStep_da_imm (p a : Byte) {r p' : Byte} (hr : (Ops.daAdjust a p).setWidth 8 = r)
    (hp : (if Ops.daAdjust a p > 0x99 then p ||| PSW_C else p) = p') :
    PswStep noHooks p (.da a r) p' := by
  let m := ((Machine.running [0xd4]).setSfr PSW p).setSfr ACC a
  have hl : insnmap (m.fetch 0) = .daA := congrArg insnmap (running_readc [0xd4] 0)
  have hacc : m.sfr ACC = a := Machine.sfr_setSfr_self _ _ _
  have hpsw : m.sfr PSW = p :=
    (Machine.sfr_setSfr_of_ne _ _ (by decide)).trans (Machine.sfr_setSfr_self _ _ _)
  obtain ⟨m', hrun, hacc', hpsw'⟩ := Machine.run_daA noHooks m
  rw [hacc, hpsw] at hacc' hpsw'
  exact ⟨m, _, ⟨Machine.dispatch_of_run hl hrun, hl, hacc, hacc'.trans hr⟩, hpsw, hpsw'.trans hp⟩

/-- `01ffH + 0001H` with `ADD A,#01H` and `ADDC A,#00H`. -/
theorem run_multiByte_carry :
    value [0x00, 0x02] = (value [0xff, 0x01] + value [0x01, 0x00]) % 256 ^ 2 := by
  have hadd : PswStep noHooks 0 (.alu .add 0xff 0x01 0x00) 0xc0 :=
    pswStep_imm (show insnmap 0x24 = _ from rfl) _ _ _ (by decide)
  have haddc : PswStep noHooks 0xc0 (.alu .addc 0x01 0x00 0x02) 0 :=
    pswStep_imm (show insnmap 0x34 = _ from rfl) _ _ _ (by decide)
  exact ((run_multiByte (.head hadd (.head haddc (.refl 0)))).1
    [⟨0xff, 0x01, 0x00⟩, ⟨0x01, 0x00, 0x02⟩] (List.cons_ne_nil _ _) rfl).1

end Emu51

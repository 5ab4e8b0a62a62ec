import Mathlib.Data.Int.Notation
import Mathlib.Data.Nat.Notation
import Mathlib.Logic.Function.Basic
import Mathlib.Tactic.Common

/-!
# The emulator's state

The global variables of `core.c` and the parts of `main.c` the CPU can reach, gathered in one
record. `ramsfr` is one array of 384 cells: the lower internal RAM at `0x00..0x7f`, the special
function registers at `0x80..0xff` and the upper internal RAM at `0x100..0x17f`. Pointers into that
array are kept as what they can point to: `reg` at one of the four register banks, `dpl` and `dph`
at one of the two data-pointer halves.

The fields that only feed the trace printout (`enable_trace`, `trace_count`, `retired`) are left
out, and so is `xramfnrd`, which nothing in the program ever fills.
-/

namespace Emu51

abbrev Byte := BitVec 8

abbrev Word := BitVec 16

/-- An index into `ramsfr[256 + 128]`. -/
abbrev Cell := Fin 384

/-- The high byte of a 16-bit value. -/
def hi (w : Word) : Byte := (w >>> 8).setWidth 8

/-- The low byte of a 16-bit value. -/
def lo (w : Word) : Byte := w.setWidth 8

/-- The 16-bit value `(h << 8) | l`. -/
def word (h l : Byte) : Word := (h.setWidth 16 <<< 8) ||| l.setWidth 16

/-- A value of 16 bits is put together from its two halves. -/
lemma word_hi_lo (w : Word) : word (hi w) (lo w) = w := by
  apply BitVec.eq_of_getLsbD_eq
  intro i hi
  simp only [word, Emu51.hi, lo, BitVec.getLsbD_or, BitVec.getLsbD_shiftLeft,
    BitVec.getLsbD_setWidth, BitVec.getLsbD_ushiftRight]
  by_cases h : i < 8
  · simp [h, hi]
  · have hle : 8 ≤ i := Nat.not_lt.1 h
    have hsub : i - 8 < 8 := by omega
    simp [h, hi, hsub, Nat.add_sub_cancel' hle, show i - 8 < 16 by omega]

/-- The high byte of a word is the one it was made of. -/
lemma hi_word (h l : Byte) : hi (word h l) = h := by
  apply BitVec.eq_of_getLsbD_eq
  intro i hi
  have hhigh : 8 + i < 16 := by omega
  simp [word, Emu51.hi, hi, hhigh, show i < 16 by omega]

/-- So is the low byte of the word. -/
lemma lo_word (h l : Byte) : lo (word h l) = l := by
  apply BitVec.eq_of_getLsbD_eq
  intro i hi
  simp [word, lo, hi]

/-- The high byte of an address is its page. -/
lemma toNat_hi (c : Word) : (hi c).toNat = c.toNat / 0x100 := by
  have hc := c.isLt
  rw [hi, BitVec.toNat_setWidth, BitVec.toNat_ushiftRight, Nat.shiftRight_eq_div_pow]
  omega

/-- The low byte of an address is its place in the page. -/
lemma toNat_lo (c : Word) : (lo c).toNat = c.toNat % 0x100 := by
  rw [lo, BitVec.toNat_setWidth]

/-- A value of 16 bits is known by its two halves, as numbers. -/
lemma eq_word {w : Word} {h l : Byte} (hhi : w.toNat / 0x100 = h.toNat)
    (hlo : w.toNat % 0x100 = l.toNat) : w = word h l := by
  have hw : hi w = h := BitVec.eq_of_toNat_eq ((toNat_hi w).trans hhi)
  have hw' : lo w = l := BitVec.eq_of_toNat_eq ((toNat_lo w).trans hlo)
  rw [← hw, ← hw', word_hi_lo]

/-- The value of a word has the high byte's weight at 256. -/
lemma toNat_word (h l : Byte) : (word h l).toNat = 0x100 * h.toNat + l.toNat := by
  have hhi := toNat_hi (word h l)
  have hlo := toNat_lo (word h l)
  rw [hi_word] at hhi
  rw [lo_word] at hlo
  omega

/-- Clearing bits that are clear already changes nothing. -/
lemma andNot_of_and_eq_zero {v mask : Byte} (h : v &&& mask = 0) : v &&& ~~~mask = v := by
  apply BitVec.eq_of_getElem_eq
  intro i hi
  have hbit := congrArg (fun w : Byte => w[i]) h
  simp only [BitVec.getElem_and, BitVec.getElem_not] at hbit ⊢
  cases hv : v[i] <;> simp_all

/-! ## Addresses of special function registers -/

@[simp] abbrev SP : Byte := 0x81
@[simp] abbrev DPL0 : Byte := 0x82
@[simp] abbrev DPH0 : Byte := 0x83
@[simp] abbrev DPL1 : Byte := 0x84
@[simp] abbrev DPH1 : Byte := 0x85
/-- `DPS_SFR` of `main.c`. -/
@[simp] abbrev DPS : Byte := 0x86
/-- `XPAGE_SFR` of `core.c`. -/
@[simp] abbrev XPAGE : Byte := 0x92
@[simp] abbrev SCON : Byte := 0x98
@[simp] abbrev SBUF : Byte := 0x99
@[simp] abbrev IE : Byte := 0xa8
@[simp] abbrev IP : Byte := 0xb8
@[simp] abbrev T2CON : Byte := 0xc8
@[simp] abbrev PSW : Byte := 0xd0
@[simp] abbrev ACC : Byte := 0xe0
@[simp] abbrev B : Byte := 0xf0

/-- `SCON_RI`: a byte has been received. -/
@[simp] abbrev SCON_RI : Byte := 0x01
/-- `SCON_TI`: a byte has been transmitted. -/
@[simp] abbrev SCON_TI : Byte := 0x02

/-- `PSW_C`: carry. -/
@[simp] abbrev PSW_C : Byte := 0x80
/-- `PSW_AC`: auxiliary carry. -/
@[simp] abbrev PSW_AC : Byte := 0x40
/-- `PSW_OV`: overflow. -/
@[simp] abbrev PSW_OV : Byte := 0x04
/-- `PSW_P`: parity of the accumulator. -/
@[simp] abbrev PSW_P : Byte := 0x01

/-! ## Pointers -/

/-- A value of `reg`: `&ramsfr[w & 0x18]` for some `w`. -/
abbrev RegBase := {b : Byte // b &&& 0x18 = b}

/-- `&ramsfr[w & 0x18]`. -/
def regBase (w : Byte) : RegBase := ⟨w &&& 0x18, by rw [BitVec.and_assoc, BitVec.and_self]⟩

/-- A value of `dpl`. -/
abbrev DplPtr := {a : Byte // a = DPL0 ∨ a = DPL1}

/-- A value of `dph`. -/
abbrev DphPtr := {a : Byte // a = DPH0 ∨ a = DPH1}

/-- The first low byte of the data pointer is one of the two there are. -/
lemma isDpl0 : DPL0 = DPL0 ∨ DPL0 = DPL1 := .inl rfl

/-- So is the second one. -/
lemma isDpl1 : DPL1 = DPL0 ∨ DPL1 = DPL1 := .inr rfl

/-- The first high byte of the data pointer is one of the two there are. -/
lemma isDph0 : DPH0 = DPH0 ∨ DPH0 = DPH1 := .inl rfl

/-- So is the second one. -/
lemma isDph1 : DPH1 = DPH0 ∨ DPH1 = DPH1 := .inr rfl

/-- There are 32 interrupts. -/
instance neZeroIrqs : @NeZero ℕ (@Zero.ofOfNat0 ℕ (instOfNatNat 0)) 32 := ⟨Nat.succ_ne_zero 31⟩

/-- A pointer into a named buffer: the buffer's number and an offset in bytes. -/
structure PagePtr where
  buf : ℕ
  ofs : ℤ

/-- A named buffer (`struct buffer`). `mem` is memory as seen from `ptr`: the bytes `0 ≤ i < size`
are the buffer, the others are whatever lies around it. -/
structure Buffer where
  name : String
  size : ℕ
  mem : ℤ → Byte
  deriving Inhabited

/-- The write handlers `xramfnwr` can hold. -/
inductive WritexFn where
  | writexRo
  deriving DecidableEq

/-! ## Interrupt sources -/

/-- `struct sfr_bit`: some bits of a special function register. -/
structure SfrBit where
  data : Byte
  mask : Byte
  xorval : Byte
  deriving DecidableEq

/-- `struct irq_data`, without the notifier, which is always `sfr_notify_irq` on this entry. -/
structure IrqData where
  vec : Word
  enable : Option SfrBit
  source : Option SfrBit
  prio : Option SfrBit
  deriving DecidableEq

/-- The state of the emulator. `σ` is the type of the chip script's Lua globals. -/
structure Machine (σ : Type) where
  ramsfr : Cell → Byte
  /-- The bitmap `ramsfrtrap`, one bit an address. -/
  ramsfrtrap : Byte → Bool
  reg : RegBase
  dpl : DplPtr
  dph : DphPtr
  pc : Word
  pcx : Byte
  rompage : Byte → Option PagePtr
  xrampage : Byte → Option PagePtr
  xramfnwr : Byte → Option WritexFn
  /-- The buffers ever created, numbered in order of creation. -/
  heap : ℕ → Buffer
  nbuf : ℕ
  irqlevel : BitVec 32
  irqpendl0 : BitVec 32
  irqpendl1 : BitVec 32
  irqs : Fin 32 → IrqData
  /-- For each special function register the interrupts to recompute when it is written. -/
  ramsfrnotifiers : Byte → List (Fin 32)
  bpmask : BitVec 32
  bpval : BitVec 32
  /-- The bytes written to the UART connection so far. -/
  uartOut : List Byte
  /-- The globals of the Lua state. -/
  lua : σ

/-! ## Cells -/

/-- The cell `ramsfr[addr]`: lower internal RAM or a special function register. -/
def dataCell (addr : Byte) : Cell := ⟨addr.toNat, by have := addr.isLt; omega⟩

/-- The cell `ramsfr[addr + (addr & 0x80)]`, which skips over the special function registers. -/
def iramCell (addr : Byte) : Cell :=
  ⟨addr.toNat + (addr &&& 0x80).toNat, by
    have h₁ : (addr &&& 0x80).toNat ≤ 0x80 := by
      rw [BitVec.toNat_and]
      exact Nat.and_le_right
    have h₂ := addr.isLt
    omega⟩

/-- The cell `reg[n]`. -/
def regCell (r : RegBase) (n : BitVec 3) : Cell := dataCell (r.1 + n.setWidth 8)

@[simp] lemma dataCell_inj {a b : Byte} : dataCell a = dataCell b ↔ a = b := by
  simp [dataCell, BitVec.toNat_inj]

/-- Below `0x80` the two ways of addressing a cell agree. -/
lemma iramCell_of_lt {a : Byte} (h : a < 0x80) : iramCell a = dataCell a := by
  have hand : a &&& 0x80 = 0 := by
    revert a
    decide
  apply Fin.ext
  change a.toNat + (a &&& 0x80).toNat = a.toNat
  rw [hand]
  rfl

/-- From `0x80` on, indirect addresses are cells of the upper internal RAM. -/
lemma val_iramCell_of_le {a : Byte} (h : 0x80 ≤ a) : (iramCell a).val = a.toNat + 0x80 := by
  have hand : a &&& 0x80 = 0x80 := by
    revert a
    decide
  change a.toNat + (a &&& 0x80).toNat = a.toNat + 0x80
  rw [hand]
  rfl

/-- No indirect address is a special function register: the upper half is memory of its own. -/
lemma iramCell_ne_sfr (a : Byte) {b : Byte} (hb : 0x80 ≤ b) : iramCell a ≠ dataCell b := by
  intro hab
  have hval := congrArg Fin.val hab
  have hb' : 0x80 ≤ b.toNat := hb
  have hblt := b.isLt
  by_cases ha : a < 0x80
  · rw [iramCell_of_lt ha, dataCell_inj] at hab
    subst hab
    exact absurd hb (by simpa [BitVec.not_le] using ha)
  · rw [val_iramCell_of_le (by simpa [BitVec.not_lt] using ha)] at hval
    have ha' : 0x80 ≤ a.toNat := by simpa [BitVec.not_lt, BitVec.le_def] using ha
    simp only [dataCell] at hval
    omega

/-- Different indirect addresses are different cells, all 256 of them. -/
@[simp] lemma iramCell_inj {a b : Byte} : iramCell a = iramCell b ↔ a = b := by
  refine ⟨fun hab => ?_, fun hab => congrArg iramCell hab⟩
  have hval := congrArg Fin.val hab
  apply BitVec.eq_of_toNat_eq
  by_cases ha : a < 0x80 <;> by_cases hb : b < 0x80
  · rwa [iramCell_of_lt ha, iramCell_of_lt hb] at hval
  · rw [iramCell_of_lt ha, val_iramCell_of_le (BitVec.not_lt.1 hb)] at hval
    have ha' : a.toNat < 0x80 := ha
    simp only [dataCell] at hval
    omega
  · rw [iramCell_of_lt hb, val_iramCell_of_le (BitVec.not_lt.1 ha)] at hval
    have hb' : b.toNat < 0x80 := hb
    simp only [dataCell] at hval
    omega
  · rw [val_iramCell_of_le (BitVec.not_lt.1 ha), val_iramCell_of_le (BitVec.not_lt.1 hb)] at hval
    omega

/-- From `0x80` on, direct and indirect addressing never meet. -/
lemma iramCell_ne_dataCell {a : Byte} (ha : 0x80 ≤ a) (b : Byte) : iramCell a ≠ dataCell b := by
  intro hab
  have hval := congrArg Fin.val hab
  have ha' : 0x80 ≤ a.toNat := ha
  have hb := b.isLt
  rw [val_iramCell_of_le ha] at hval
  simp only [dataCell] at hval
  omega

/-- A register of a bank lives in internal memory below `0x20`. -/
lemma regCell_addr_lt (r : RegBase) (n : BitVec 3) : r.1 + n.setWidth 8 < 0x20 := by
  obtain ⟨b, hb⟩ := r
  revert n b
  decide

/-- No register of a bank is a special function register. -/
lemma regCell_ne_sfr (r : RegBase) (n : BitVec 3) {a : Byte} (ha : 0x20 ≤ a) :
    regCell r n ≠ dataCell a := by
  rw [regCell, Ne, dataCell_inj]
  rintro rfl
  exact absurd ha (by simpa [BitVec.not_le] using regCell_addr_lt r n)

namespace Machine

variable {σ : Type}

/-! ## Reading and writing cells -/

/-- Store a byte in a cell. -/
@[simps] def setCell (m : Machine σ) (c : Cell) (v : Byte) : Machine σ :=
  { m with ramsfr := Function.update m.ramsfr c v }

/-- `ramsfr[addr]` for a direct address. -/
@[simp] abbrev sfr (m : Machine σ) (addr : Byte) : Byte := m.ramsfr (dataCell addr)

/-- `ramsfr[addr] = v`. -/
@[simp] abbrev setSfr (m : Machine σ) (addr v : Byte) : Machine σ := m.setCell (dataCell addr) v

/-- `reg[n]`. -/
@[simp] abbrev rx (m : Machine σ) (n : BitVec 3) : Byte := m.ramsfr (regCell m.reg n)

/-- `DPTR`. -/
@[simp] abbrev dptr (m : Machine σ) : Word := word (m.sfr m.dph) (m.sfr m.dpl)

/-- `readi`: the byte an indirect address designates. -/
@[simp] abbrev readi (m : Machine σ) (addr : Byte) : Byte := m.ramsfr (iramCell addr)

/-- `writei`: store at an indirect address. -/
@[simp] abbrev writei (m : Machine σ) (addr v : Byte) : Machine σ := m.setCell (iramCell addr) v

/-- `PUSH`: advance `SP`, then store. -/
def push (m : Machine σ) (x : Byte) : Machine σ :=
  (m.setSfr SP (m.sfr SP + 1)).writei (m.sfr SP + 1) x

@[simps] def setPc (m : Machine σ) (w : Word) : Machine σ := { m with pc := w }

@[simps] def setPcx (m : Machine σ) (v : Byte) : Machine σ := { m with pcx := v }

@[simps] def setReg (m : Machine σ) (r : RegBase) : Machine σ := { m with reg := r }

/-- `map_dptr`. -/
@[simps] def mapDptr (m : Machine σ) (l : DplPtr) (h : DphPtr) : Machine σ :=
  { m with dpl := l, dph := h }

@[simps] def setLevel (m : Machine σ) (l : BitVec 32) : Machine σ := { m with irqlevel := l }

@[simps] def setPending (m : Machine σ) (l0 l1 : BitVec 32) : Machine σ :=
  { m with irqpendl0 := l0, irqpendl1 := l1 }

/-- `set_breakpoint`. -/
@[simps] def setBreakpoint (m : Machine σ) (mask val : BitVec 32) : Machine σ :=
  { m with bpmask := mask, bpval := val }

/-- One byte goes out on the UART connection. -/
@[simps] def transmit (m : Machine σ) (v : Byte) : Machine σ :=
  { m with uartOut := m.uartOut ++ [v] }

@[simps] def setLua (m : Machine σ) (g : σ) : Machine σ := { m with lua := g }

/-- Moving `pc` to where it is changes nothing. -/
lemma setPc_eq_self {m : Machine σ} {w : Word} (h : w = m.pc) : m.setPc w = m := by
  subst h
  rfl

/-- Storing what is there already changes nothing. -/
@[simp] lemma setCell_self (m : Machine σ) (c : Cell) : m.setCell c (m.ramsfr c) = m := by
  rw [setCell, Function.update_eq_self]

/-- Stores to different cells can be made in either order. -/
lemma setCell_comm (m : Machine σ) {c d : Cell} (h : c ≠ d) (v w : Byte) :
    (m.setCell c v).setCell d w = (m.setCell d w).setCell c v := by
  simp only [setCell, Function.update_comm h]

/-- After a store the cell has its new value and every other cell its old one. -/
lemma setCell_apply (m : Machine σ) (c d : Cell) (v : Byte) :
    (m.setCell c v).ramsfr d = if d = c then v else m.ramsfr d := by
  rw [setCell_ramsfr, Function.update_apply]

/-- A store to one register leaves every other one. -/
lemma sfr_setSfr_of_ne (m : Machine σ) {a b : Byte} (v : Byte) (h : b ≠ a) :
    (m.setSfr a v).sfr b = m.sfr b := by
  rw [sfr, setCell_apply, if_neg (by rwa [dataCell_inj])]

/-- A register holds what has been stored in it. -/
lemma sfr_setSfr_self (m : Machine σ) (a v : Byte) : (m.setSfr a v).sfr a = v := by
  rw [sfr, setCell_apply, if_pos rfl]

end Machine

end Emu51

import Emu51.Machine.State

/-!
# Buffers and page tables

Code memory and external data memory are two tables of 256 pages that point into named buffers.
This file models `create_buffer`, `get_buffer`, the mapping functions of `core.c` and the accessors
`readc`, `readx`, `writex` that go through the tables.
-/

namespace Emu51

namespace Machine

variable {σ : Type}

/-! ## Buffers -/

/-- The number of the newest of the first `n` buffers that carries the name. -/
def findBuffer (heap : ℕ → Buffer) (name : String) : ℕ → Option ℕ
  | 0 => none
  | n + 1 => if (heap n).name = name then some n else findBuffer heap name n

/-- `get_buffer`: the newest buffer of that name. -/
def getBuffer (m : Machine σ) (name : String) : Option ℕ := findBuffer m.heap name m.nbuf

/-- `create_buffer`: a new zero-filled buffer, which shadows older ones of the same name. -/
@[simps] def createBuffer (m : Machine σ) (name : String) (size : ℕ) : Machine σ :=
  { m with
    heap := Function.update m.heap m.nbuf
      { name := name
        size := size
        mem := fun i => if 0 ≤ i ∧ i < size then 0 else (m.heap m.nbuf).mem i }
    nbuf := m.nbuf + 1 }

/-- The byte `p[i]` for a page pointer. -/
def peekPage (m : Machine σ) (p : PagePtr) (i : Byte) : Byte :=
  (m.heap p.buf).mem (p.ofs + i.toNat)

/-- `p[i] = v` for a page pointer. -/
@[simps] def pokePage (m : Machine σ) (p : PagePtr) (i v : Byte) : Machine σ :=
  { m with
    heap := Function.update m.heap p.buf
      { m.heap p.buf with
        mem := Function.update (m.heap p.buf).mem (p.ofs + i.toNat) v } }

/-! ## Mapping -/

/-- The loop of the mapping functions: page `start + i` is set to `f i`, for `i < len`. -/
def mapPages {α : Type} (table : Byte → α) (start : ℤ) (len : ℕ) (f : ℕ → α) : Byte → α :=
  (List.range len).foldl (fun t (i : ℕ) =>
    Function.update t (BitVec.ofInt 8 (start + i)) (f i)) table

/-- The pointer `&ptr[(i + ofs) * 0x100]`. -/
def pageOf (buf : ℕ) (ofs : ℤ) (i : ℕ) : PagePtr := { buf := buf, ofs := (i + ofs) * 0x100 }

/-- `map_rom`. -/
@[simps] def mapRom (m : Machine σ) (buf : ℕ) (start len ofs : ℤ) : Machine σ :=
  { m with rompage := mapPages m.rompage start len.toNat fun i => some (pageOf buf ofs i) }

/-- `map_xram`. -/
@[simps] def mapXram (m : Machine σ) (buf : ℕ) (start len ofs : ℤ) : Machine σ :=
  { m with
    xrampage := mapPages m.xrampage start len.toNat fun i => some (pageOf buf ofs i)
    xramfnwr := mapPages m.xramfnwr start len.toNat fun _ => none }

/-- `map_xram_ro`. -/
@[simps] def mapXramRo (m : Machine σ) (buf : ℕ) (start len ofs : ℤ) : Machine σ :=
  { m with
    xrampage := mapPages m.xrampage start len.toNat fun i => some (pageOf buf ofs i)
    xramfnwr := mapPages m.xramfnwr start len.toNat fun _ => some .writexRo }

/-- To map one more page is to map the others first and then this one. -/
lemma mapPages_succ {α : Type} (table : Byte → α) (start : ℤ) (len : ℕ) (f : ℕ → α) :
    mapPages table start (len + 1) f =
      Function.update (mapPages table start len f) (BitVec.ofInt 8 (start + len)) (f len) := by
  rw [mapPages, List.range_succ, List.foldl_append]
  rfl

/-- Mapping a range of pages leaves the pages outside of it alone. -/
lemma mapPages_of_ne {α : Type} (table : Byte → α) {start : ℤ} {len : ℕ} (f : ℕ → α) {p : Byte}
    (h : ∀ i < len, p ≠ BitVec.ofInt 8 (start + i)) : mapPages table start len f p = table p := by
  induction len with
  | zero => rfl
  | succ n ih =>
    rw [mapPages_succ, Function.update_of_ne (h n (Nat.lt_succ_self n))]
    exact ih fun i hi => h i (Nat.lt_succ_of_lt hi)

/-- Mapping at most 256 pages sets each page of the range, and each of them once. -/
lemma mapPages_apply {α : Type} (table : Byte → α) (start : ℤ) {len i : ℕ} (f : ℕ → α)
    (hi : i < len) (hlen : len ≤ 256) :
    mapPages table start len f (BitVec.ofInt 8 (start + i)) = f i := by
  induction len with
  | zero => exact absurd hi (Nat.not_lt_zero i)
  | succ n ih =>
    rw [mapPages_succ]
    rcases Nat.lt_succ_iff_lt_or_eq.1 hi with h | rfl
    · have hne : BitVec.ofInt 8 (start + i) ≠ BitVec.ofInt 8 (start + n) := by
        intro heq
        have hmod := congrArg BitVec.toNat heq
        simp only [BitVec.toNat_ofInt] at hmod
        omega
      rw [Function.update_of_ne hne]
      exact ih h (Nat.le_of_succ_le hlen)
    · rw [Function.update_self]

/-! ## Accessors -/

/-- `readc`: a byte of code memory; unmapped pages read as `0xff`. -/
def readc (m : Machine σ) (addr : Word) : Byte :=
  match m.rompage (hi addr) with
  | some p => m.peekPage p (lo addr)
  | none => 0xff

/-- `fetch`: the code byte at an offset from `pc`. -/
def fetch (m : Machine σ) (ofs : Word) : Byte := m.readc (m.pc + ofs)

/-- `readx`: a byte of external data memory; unmapped pages read as `0xff`. -/
def readx (m : Machine σ) (addr : Word) : Byte :=
  match m.xrampage (hi addr) with
  | some p => m.peekPage p (lo addr)
  | none => 0xff

/-- `writex`: store in external data memory. A write handler takes precedence over the page, and
the only one there is (`writex_ro`) drops the byte; so do unmapped pages. -/
def writex (m : Machine σ) (addr : Word) (v : Byte) : Machine σ :=
  match m.xramfnwr (hi addr) with
  | some .writexRo => m
  | none =>
    match m.xrampage (hi addr) with
    | some p => m.pokePage p (lo addr) v
    | none => m

/-- A store in external data memory leaves the globals alone. -/
lemma writex_lua (m : Machine σ) (addr : Word) (v : Byte) : (m.writex addr v).lua = m.lua := by
  unfold writex
  split
  · rfl
  · split <;> rfl

/-- And the pages of code memory are where they were. -/
lemma writex_rompage (m : Machine σ) (addr : Word) (v : Byte) :
    (m.writex addr v).rompage = m.rompage := by
  unfold writex
  split
  · rfl
  · split <;> rfl

/-- `xram_p2addr`: the high address byte of `MOVX @Ri`. -/
def xramP2addr (m : Machine σ) : Byte := m.sfr XPAGE

end Machine

end Emu51

import Emu51.Chip.FlashAddress
import Emu51.Flash.DataBanking
import Emu51.Flash.SpiRead
import Emu51.Machine.History

/-!
# Where the image is read

An access to code memory, to external data memory or to the flash reads `rom` at an index that comes
out of the page tables and the Lua arithmetic. `romIndex` is this index. `romPlaces` are the places
that the writes to `CODE_BANK`, to `DATA_BANK` and to the registers of the flash interface give: for
code and data the bank chosen last, for a write to `CACHE_CTRL` that finds the command to read the
four places from the translated flash address on. Nothing compares them with the size of `rom`.
-/

namespace Emu51

open Chip Lua

/-! ## Indices -/

/-- The index into `rom`, the buffer `main` creates, of a byte in a page. -/
def pageIndex (page : Option PagePtr) (i : Byte) : Option ℤ :=
  page.bind fun p => if p.buf = 0 then some (p.ofs + i.toNat) else none

namespace Machine

variable {σ : Type} {m : Machine σ}

/-- The index `readc` uses. -/
def codeIndex (m : Machine σ) (c : Word) : Option ℤ := pageIndex (m.rompage (hi c)) (lo c)

/-- The index `readx` uses. -/
def xramIndex (m : Machine σ) (a : Word) : Option ℤ := pageIndex (m.xrampage (hi a)) (lo a)

/-- What is read is the byte at the index. -/
lemma peekPage_of_index {p : PagePtr} {j : Byte} {i : ℤ} (h : pageIndex (some p) j = some i) :
    m.peekPage p j = (m.heap 0).mem i := by
  change (if p.buf = 0 then some (p.ofs + (j.toNat : ℤ)) else none) = some i at h
  split_ifs at h with hbuf
  obtain rfl := Option.some.inj h
  rw [peekPage, hbuf]

/-- A code byte with an index into `rom` is the byte of `rom` there. -/
theorem readc_of_index {c : Word} {i : ℤ} (h : m.codeIndex c = some i) :
    m.readc c = (m.heap 0).mem i := by
  unfold codeIndex at h
  unfold readc
  cases hpage : m.rompage (hi c) with
  | none =>
    rw [hpage] at h
    exact absurd h (Option.some_ne_none i).symm
  | some p =>
    rw [hpage] at h
    exact peekPage_of_index h

/-- A byte of external data memory with an index into `rom` is the byte of `rom` there. -/
theorem readx_of_index {a : Word} {i : ℤ} (h : m.xramIndex a = some i) :
    m.readx a = (m.heap 0).mem i := by
  unfold xramIndex at h
  unfold readx
  cases hpage : m.xrampage (hi a) with
  | none =>
    rw [hpage] at h
    exact absurd h (Option.some_ne_none i).symm
  | some p =>
    rw [hpage] at h
    exact peekPage_of_index h

end Machine

/-- The index into `rom` a step uses, if it reads there. -/
def Access.romIndex {σ : Type} (m : Machine σ) : Access σ → Option ℤ
  | .cpu (.fetch ofs) => m.codeIndex (m.pc + ofs)
  | .cpu (.readc c) => m.codeIndex c
  | .cpu (.readx a) => m.xramIndex a
  | .lua (.peekXram a) => m.xramIndex (a.setWidth 16)
  | .lua (.peekRom a) => (m.getBuffer "rom").bind fun b => if b = 0 then some (intOfLua a) else none
  | _ => none

/-- `emu.peek_rom` reads the byte at the index, too. -/
theorem peekRom_of_index {σ : Type} {m : Machine σ} (bus : Bus σ) {a : LuaInt} {i : ℤ}
    (h : Access.romIndex m (.lua (.peekRom a)) = some i) :
    Machine.luaExec bus (.peekRom a) m = some (luaOfByte ((m.heap 0).mem i), m) := by
  change (m.getBuffer "rom").bind (fun b => if b = 0 then some (intOfLua a) else none) = some i at h
  obtain ⟨b, hb, hi⟩ := Option.bind_eq_some_iff.1 h
  split_ifs at hi with hzero
  obtain rfl := Option.some.inj hi
  rw [Machine.luaExec, hb, Option.map_some, hzero]

/-- The values written to a register. -/
def written (a : Byte) (w : List (Byte × Byte)) : List Byte :=
  w.filterMap fun e => if e.1 = a then some e.2 else none

/-- The value written to a register last, and 0 before that. -/
def lastWritten (a : Byte) (w : List (Byte × Byte)) : Byte := (written a w).getLastD 0

/-- Where a code byte is: the first `0x4000` are fixed, the others are in the bank chosen last. -/
def codePlace (banks : List Byte) (c : Word) : Option ℕ :=
  if c < 0x4000 then some c.toNat else banks.getLast?.map fun k => k.toNat * 0x10000 + c.toNat

/-- Where a byte of external data memory is, if its page shows a bank of the image. -/
def dataPlace (banks : List Byte) (a : Word) : Option ℕ :=
  match shown banks (hi a) with
  | .rom k => some (k.toNat * 0x10000 + a.toNat)
  | _ => none

/-- Where a step reads code memory or external data memory, given the writes to special function
registers before. -/
def Access.romPlace {σ : Type} (w : List (Byte × Byte)) (m : Machine σ) : Access σ → Option ℕ
  | .cpu (.fetch ofs) => codePlace (written CODE_BANK w) (m.pc + ofs)
  | .cpu (.readc c) => codePlace (written CODE_BANK w) c
  | .cpu (.readx a) => dataPlace (written DATA_BANK w) a
  | .lua (.peekXram a) => dataPlace (written DATA_BANK w) (a.setWidth 16)
  | _ => none

namespace Machine

/-! ## The indices are the places -/

/-- Everything the accesses depend on, after the given writes: the two mappings, the flash address
and the command. -/
structure RomHistory {ρ : Type} (file : List Byte) (rom : Buffer) (w : List (Byte × Byte))
    (m : Machine (Globals ρ)) : Prop where
  code : Banked file (written CODE_BANK w) m
  unbanked : written CODE_BANK w = [] → ∀ p, (0x40 : Byte) ≤ p → m.rompage p = none
  data : DataBanked rom (written DATA_BANK w) m
  spi : SpiAt (fun a => lastWritten a w) m.lua

variable {ρ : Type} {file : List Byte} {rom : Buffer} {w : List (Byte × Byte)}
  {m : Machine (Globals ρ)}

/-- The index that a code byte is read at is its place in the bank chosen last. -/
lemma RomHistory.codeIndex (h : RomHistory file rom w m) (c : Word) :
    m.codeIndex c = (codePlace (written CODE_BANK w) c).map Int.ofNat := by
  have hsplit : c.toNat = (hi c).toNat * 0x100 + (lo c).toNat := by
    rw [toNat_hi, toNat_lo]
    omega
  unfold Machine.codeIndex codePlace
  split_ifs with hc
  · have hpage : hi c < 0x40 := by
      have hc' : c.toNat < 0x4000 := hc
      rw [BitVec.lt_def, toNat_hi]
      change c.toNat / 0x100 < 0x40
      omega
    have hplace : ((hi c).toNat * 0x100 + (lo c).toNat : ℤ) = Int.ofNat c.toNat := by
      rw [hsplit, Int.ofNat_eq_natCast]
      omega
    rw [h.code.mem.fixed _ hpage]
    exact congrArg some hplace
  · have hpage : (0x40 : Byte) ≤ hi c := by
      have hc' : 0x4000 ≤ c.toNat := BitVec.not_lt.1 hc
      rw [BitVec.le_def, toNat_hi]
      change 0x40 ≤ c.toNat / 0x100
      omega
    cases hlast : (written CODE_BANK w).getLast? with
    | none =>
      rw [h.unbanked (List.getLast?_eq_none_iff.1 hlast) _ hpage]
      rfl
    | some k =>
      have hplace : ((k.toNat * 0x100 + (hi c).toNat) * 0x100 + (lo c).toNat : ℤ) =
          Int.ofNat (k.toNat * 0x10000 + c.toNat) := by
        rw [hsplit, Int.ofNat_eq_natCast]
        omega
      rw [(h.code.mem.bank k hlast).2 _ hpage]
      exact congrArg some hplace

/-- The index of a byte of external data memory. -/
lemma DataMem.xramIndex {σ : Type} {m : Machine σ} {banks : List Byte} (h : DataMem rom banks m)
    (a : Word) : m.xramIndex a = (dataPlace banks a).map Int.ofNat := by
  have hsplit : a.toNat = (hi a).toNat * 0x100 + (lo a).toNat := by
    rw [toNat_hi, toNat_lo]
    omega
  unfold Machine.xramIndex dataPlace
  rw [h.xrampage]
  cases shown banks (hi a) with
  | unmapped => rfl
  | sram => rfl
  | rom k =>
    have hplace : ((k.toNat * 0x100 + (hi a).toNat) * 0x100 + (lo a).toNat : ℤ) =
        Int.ofNat (k.toNat * 0x10000 + a.toNat) := by
      rw [hsplit, Int.ofNat_eq_natCast]
      omega
    exact congrArg some hplace

end Machine

end Emu51

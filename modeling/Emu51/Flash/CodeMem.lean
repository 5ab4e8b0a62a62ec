import Emu51.Chip.Hooks

/-!
# The mapping of code memory

Under both chip scripts the first 64 pages of code memory show the beginning of the buffer `rom`,
and the others show the bank written to `CODE_BANK` last. Nothing else maps code, and nothing stores
in `rom`. `CodeMem` says so, with the writes to `CODE_BANK` so far.
-/

namespace Emu51

open Chip Lua

namespace Machine

variable {σ : Type}

/-- Code memory after the given writes to `CODE_BANK`, where `file` is what `rom` was loaded
from. -/
structure CodeMem (file banks : List Byte) (m : Machine σ) : Prop where
  nbuf : m.nbuf = 2
  rom : (m.heap 0).name = "rom"
  sram : (m.heap 1).name = "sram"
  bytes : ∀ (i : ℕ) b, file[i]? = some b → (m.heap 0).mem i = b
  fixed : ∀ p < (0x40 : Byte), m.rompage p = some ⟨0, p.toNat * 0x100⟩
  bank : ∀ k, banks.getLast? = some k → m.pcx = k ∧
    ∀ p, (0x40 : Byte) ≤ p → m.rompage p = some ⟨0, (k.toNat * 0x100 + p.toNat) * 0x100⟩
  /-- What can be written to is in `sram`. -/
  writable : ∀ p q, m.xrampage p = some q → m.xramfnwr p = none → q.buf = 1

variable {file banks : List Byte} {m m' : Machine σ}

/-! ## Code memory as the firmware sees it -/

/-- A page of code memory that shows `rom` is read at its offset there. -/
lemma readc_of_page {c : Word} {ofs : ℤ} (h : m.rompage (hi c) = some ⟨0, ofs⟩) :
    m.readc c = (m.heap 0).mem (ofs + (lo c).toNat) := by
  rw [readc, h]
  rfl

/-- The code in the fixed pages is the beginning of the file, whatever bank is chosen. -/
theorem CodeMem.readc_fixed (h : CodeMem file banks m) {c : Word} (hc : c < 0x4000) {b : Byte}
    (hb : file[c.toNat]? = some b) : m.readc c = b := by
  have hc' : c.toNat < 0x4000 := hc
  have hpage : hi c < 0x40 := by
    rw [BitVec.lt_def, toNat_hi]
    change c.toNat / 0x100 < 0x40
    omega
  have hplace : ((hi c).toNat * 0x100 + (lo c).toNat : ℤ) = c.toNat := by
    rw [toNat_hi, toNat_lo]
    omega
  rw [readc_of_page (h.fixed _ hpage), hplace]
  exact h.bytes _ _ hb

/-- The code in the other pages is in the file at the same place of the bank chosen last. -/
theorem CodeMem.readc_bank (h : CodeMem file banks m) {k : Byte} (hk : banks.getLast? = some k)
    {c : Word} (hc : 0x4000 ≤ c) {b : Byte} (hb : file[k.toNat * 0x10000 + c.toNat]? = some b) :
    m.readc c = b := by
  have hc' : 0x4000 ≤ c.toNat := hc
  have hpage : (0x40 : Byte) ≤ hi c := by
    rw [BitVec.le_def, toNat_hi]
    change 0x40 ≤ c.toNat / 0x100
    omega
  have hplace : ((k.toNat * 0x100 + (hi c).toNat) * 0x100 + (lo c).toNat : ℤ) =
      (k.toNat * 0x10000 + c.toNat : ℕ) := by
    rw [toNat_hi, toNat_lo]
    omega
  rw [readc_of_page ((h.bank k hk).2 _ hpage), hplace]
  exact h.bytes _ _ hb

/-! ## What keeps it -/

/-- The mapping of code memory is known from what lies outside the CPU. -/
lemma codeMem_isOuter : IsOuter (CodeMem file banks : Machine σ → Prop) := by
  intro m m' hsame h
  constructor
  · rw [hsame.nbuf]
    exact h.nbuf
  · rw [hsame.heap]
    exact h.rom
  · rw [hsame.heap]
    exact h.sram
  · rw [hsame.heap]
    exact h.bytes
  · rw [hsame.rompage]
    exact h.fixed
  · rw [hsame.rompage, hsame.pcx]
    exact h.bank
  · rw [hsame.xrampage, hsame.xramfnwr]
    exact h.writable

/-- The buffer named `rom` is the first one, which `main` has created. -/
lemma CodeMem.getBuffer_rom (h : CodeMem file banks m) : m.getBuffer "rom" = some 0 := by
  rw [getBuffer, h.nbuf, findBuffer, if_neg (by rw [h.sram]; decide), findBuffer, if_pos h.rom]

/-- The buffer named `sram` is the second one, which the script has created. -/
lemma CodeMem.getBuffer_sram (h : CodeMem file banks m) : m.getBuffer "sram" = some 1 := by
  rw [getBuffer, h.nbuf, findBuffer, if_pos h.sram]

/-- A store in external memory does not reach `rom`. -/
lemma CodeMem.writex (h : CodeMem file banks m) (a : Word) (v : Byte) :
    CodeMem file banks (m.writex a v) := by
  unfold Machine.writex
  split
  · exact h
  · next hfn =>
    split
    · next p hp =>
      have hbuf : p.buf = 1 := h.writable _ _ hp hfn
      have hrom : (m.pokePage p (lo a) v).heap 0 = m.heap 0 := by
        rw [pokePage_heap, hbuf, Function.update_of_ne Nat.zero_ne_one]
      have hsram : ((m.pokePage p (lo a) v).heap 1).name = (m.heap 1).name := by
        rw [pokePage_heap, hbuf, Function.update_self]
      refine ⟨h.nbuf, ?_, hsram.trans h.sram, ?_, h.fixed, h.bank, h.writable⟩
      · rw [hrom]
        exact h.rom
      · rw [hrom]
        exact h.bytes
    · exact h

/-- What holds of all new entries holds of every page that has been mapped. -/
lemma mapPages_of_mem {α : Type} {P : α → Prop} (table : Byte → α) (start : ℤ) {len : ℕ} {f : ℕ → α}
    (hf : ∀ i, P (f i)) {p : Byte} (hp : ∃ i < len, p = BitVec.ofInt 8 (start + i)) :
    P (mapPages table start len f p) := by
  induction len with
  | zero =>
    obtain ⟨i, hi, -⟩ := hp
    exact absurd hi (Nat.not_lt_zero i)
  | succ n ih =>
    rw [mapPages_succ, Function.update_apply]
    split_ifs with hlast
    · exact hf n
    · obtain ⟨i, hi, hpage⟩ := hp
      rcases Nat.lt_succ_iff_lt_or_eq.1 hi with hlt | rfl
      · exact ih ⟨i, hlt, hpage⟩
      · exact absurd hpage hlast

/-- Pages can be mapped if they are read-only or in `sram`. -/
lemma CodeMem.mapXram (h : CodeMem file banks m) {b : ℕ} (start : ℤ) (len : ℕ) (ofs : ℤ)
    {fn : Option WritexFn} (hfn : fn = none → b = 1) :
    CodeMem file banks { m with
      xrampage := mapPages m.xrampage start len fun i => some (pageOf b ofs i)
      xramfnwr := mapPages m.xramfnwr start len fun _ => fn } := by
  refine ⟨h.nbuf, h.rom, h.sram, h.bytes, h.fixed, h.bank, fun p q hpage hnone => ?_⟩
  by_cases hp : ∃ i < len, p = BitVec.ofInt 8 (start + i)
  · have hmapped := mapPages_of_mem (P := fun r => ∀ q, r = some q → q.buf = b) m.xrampage start
      (f := fun i => some (pageOf b ofs i)) (fun i q hq => (Option.some.inj hq) ▸ rfl) hp
    have hsame := mapPages_of_mem (P := fun r => r = fn) m.xramfnwr start (f := fun _ => fn)
      (fun _ => rfl) hp
    rw [hmapped q hpage]
    exact hfn (hsame.symm.trans hnone)
  · have hout : ∀ i < len, p ≠ BitVec.ofInt 8 (start + i) := fun i hi hpi => hp ⟨i, hi, hpi⟩
    have htable := mapPages_of_ne m.xrampage (fun i => some (pageOf b ofs i)) hout
    have htable' := mapPages_of_ne m.xramfnwr (fun _ => fn) hout
    exact h.writable p q (htable.symm.trans hpage) (htable'.symm.trans hnone)

/-- The ordinary operations of hooks leave code memory as it is. -/
lemma CodeMem.luaExec (h : CodeMem file banks m) {bus : Bus σ} {o : LuaOp σ} (ho : o.Ordinary)
    (hoff : o.OffSfr) {y : o.Res × Machine σ} (he : luaExec bus o m = some y) :
    CodeMem file banks y.2 := by
  cases o with
  | peekSfr addr => exact absurd hoff id
  | pokeSfr addr v => exact absurd hoff id
  | pokePcx v => exact absurd ho id
  | makeRam name size => exact absurd ho id
  | mapRom name start len ofs => exact absurd ho id
  | pokeXram addr v =>
    obtain rfl := Option.some.inj he
    exact h.writex _ _
  | peekRom addr =>
    obtain ⟨b, -, rfl⟩ := Option.map_eq_some_iff.1 he
    exact h
  | mapXram name start len ofs readonly =>
    obtain ⟨b, hb, rfl⟩ := Option.map_eq_some_iff.1 he
    split_ifs with hro
    · exact h.mapXram _ _ _ fun hfn => absurd hfn (Option.some_ne_none _)
    · obtain rfl : name = "sram" := ho (not_not.1 hro)
      rw [h.getBuffer_sram] at hb
      exact h.mapXram _ _ _ fun _ => (Option.some.inj hb).symm
  | error => exact absurd he (Option.some_ne_none y).symm
  | set g =>
    obtain rfl := Option.some.inj he
    refine codeMem_isOuter m _ ?_ h
    constructor <;> rfl
  | _ =>
    obtain rfl := Option.some.inj he
    exact h

/-! ## The hook of `CODE_BANK` -/

/-- The offset `ofs` that `sfr_code_bank` computes is within the range of a C integer. -/
lemma intOfLua_ofs (k : Byte) :
    intOfLua (0x40 + luaOfByte k * 0x100) = 0x40 + k.toNat * 0x100 := by
  revert k
  decide +kernel

/-- What `sfr_code_bank` does when it is called for a write. -/
lemma run_sfrCodeBank {ρ : Type} {m : Machine (Globals ρ)} (h : CodeMem file banks m)
    (bus : Bus (Globals ρ)) (k : Byte) :
    (sfrCodeBank true (luaOfByte k)).run (Machine.luaExec bus) m = some (luaOfByte k,
      (m.setPcx k).mapRom 0 0x40 0xc0 (0x40 + k.toNat * 0x100)) := by
  have hbuf : (m.setPcx k).getBuffer "rom" = some 0 := h.getBuffer_rom
  have hmap : Machine.luaExec bus (.mapRom "rom" 0x40 0xc0 (0x40 + luaOfByte k * 0x100))
      (m.setPcx k) = some ((), (m.setPcx k).mapRom 0 0x40 0xc0 (0x40 + k.toNat * 0x100)) := by
    rw [Machine.luaExec, hbuf, Option.map_some, intOfLua_ofs]
    rfl
  change (Machine.luaExec bus (.pokePcx (luaOfByte k)) m).bind _ = _
  rw [Machine.luaExec, Option.bind_some, byteOfLua_luaOfByte]
  change (Machine.luaExec bus (.mapRom "rom" 0x40 0xc0 (0x40 + luaOfByte k * 0x100))
    (m.setPcx k)).bind _ = _
  rw [hmap]
  rfl

/-- A page from 40H on is among those mapped. -/
lemma page_eq_ofInt {p : Byte} (hp : 0x40 ≤ p) :
    p = BitVec.ofInt 8 (0x40 + (p.toNat - 0x40 : ℕ)) := by
  revert p
  decide

/-- The pages a bank covers are all behind the fixed ones. -/
lemma page_ne_ofInt {p : Byte} (hp : p < 0x40) {i : ℕ} (hi : i < 0xc0) :
    p ≠ BitVec.ofInt 8 (0x40 + i) := by
  rintro rfl
  rw [BitVec.lt_def, BitVec.toNat_ofInt] at hp
  change _ < 0x40 at hp
  omega

/-- The calls of `sfr_code_bank` make the bank the one chosen last. -/
lemma CodeMem.mapRom (h : CodeMem file banks m) (k : Byte) :
    CodeMem file (banks ++ [k])
      ((m.setPcx k).mapRom 0 0x40 0xc0 (0x40 + k.toNat * 0x100)) := by
  refine ⟨h.nbuf, h.rom, h.sram, h.bytes, fun p hp => ?_, fun l hl => ?_, h.writable⟩
  · rw [mapRom_rompage]
    exact (mapPages_of_ne _ _ fun i hi => page_ne_ofInt hp hi).trans (h.fixed p hp)
  · obtain rfl : k = l := Option.some.inj (List.getLast?_concat.symm.trans hl)
    refine ⟨rfl, fun p hp => ?_⟩
    have hp' : 0x40 ≤ p.toNat := hp
    have hlt := p.isLt
    have hplace : (((p.toNat - 0x40 : ℕ) : ℤ) + (0x40 + k.toNat * 0x100)) * 0x100 =
        (k.toNat * 0x100 + p.toNat) * 0x100 := by
      omega
    have hpage := mapPages_apply m.rompage 0x40
      (fun i => some (pageOf 0 (0x40 + k.toNat * 0x100) i))
      (show p.toNat - 0x40 < 0xc0 by omega) (by omega)
    rw [← page_eq_ofInt hp] at hpage
    rw [mapRom_rompage]
    refine hpage.trans ?_
    rw [pageOf, hplace]

end Machine

end Emu51

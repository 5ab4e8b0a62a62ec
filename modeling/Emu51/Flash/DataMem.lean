import Mathlib.Data.List.Induction
import Emu51.Flash.CodeMem

/-!
# The mapping of external data memory

Each write to `DATA_BANK` shows `sram` or a bank of `rom` on a range of pages and leaves the other
pages as they are. `shown` is the map this makes of a sequence of writes, and `DataMem` says that
the two page tables of the emulator are that map: a page that shows `rom` has the write handler that
drops everything.
-/

namespace Emu51

open Chip Lua

/-! ## The map -/

/-- What a page of external data memory shows. -/
inductive Backing where
  | unmapped
  | sram
  | rom (bank : Byte)
  deriving DecidableEq

namespace Backing

/-- The entry of `xrampage` for page `p`. -/
def page (b : Backing) (p : Byte) : Option PagePtr :=
  match b with
  | unmapped => none
  | sram => some ⟨1, p.toNat * 0x100⟩
  | rom k => some ⟨0, (k.toNat * 0x100 + p.toNat) * 0x100⟩

/-- The entry of `xramfnwr`. -/
def handler : Backing → Option WritexFn
  | rom _ => some .writexRo
  | _ => none

end Backing

/-- The map when the chip script has been loaded. -/
def initialMap (p : Byte) : Backing := if p < 0xc0 then .sram else .unmapped

/-- What a write to `DATA_BANK` does to the map. -/
def select (map : Byte → Backing) (k : Byte) : Byte → Backing :=
  if k = 0 then fun p => if p < 0xc0 then .sram else map p
  else fun p => if 0x40 ≤ p then .rom k else map p

/-- The map after the given writes to `DATA_BANK`. -/
def shown (banks : List Byte) : Byte → Backing := banks.foldl select initialMap

/-- After one more bank is chosen, it shows what it covers and leaves the rest to the banks before
it. -/
lemma shown_concat (banks : List Byte) (k : Byte) :
    shown (banks ++ [k]) = select (shown banks) k := by
  rw [shown, List.foldl_append]
  rfl

/-- Bank 0 brings the memory back and covers no page from `0xc0` on. -/
lemma select_zero (map : Byte → Backing) (p : Byte) :
    select map 0 p = if p < 0xc0 then .sram else map p := rfl

/-- Every other bank covers the pages from `0x40` on with its part of the image. -/
lemma select_of_ne (map : Byte → Backing) {k : Byte} (hk : k ≠ 0) (p : Byte) :
    select map k p = if 0x40 ≤ p then .rom k else map p := by
  rw [select, if_neg hk]

/-- The first 64 pages always show `sram`, whatever banks have been chosen. -/
lemma shown_low (banks : List Byte) {p : Byte} (hp : p < 0x40) : shown banks p = .sram := by
  have hsram : p < 0xc0 := BitVec.lt_trans hp (by decide)
  induction banks using List.reverseRecOn with
  | nil => exact if_pos hsram
  | append_singleton banks k ih =>
    rw [shown_concat]
    by_cases hk : k = 0
    · rw [hk, select_zero, if_pos hsram]
    · rw [select_of_ne _ hk, if_neg (BitVec.not_le.2 hp), ih]

/-- `sram` is shown on the first 192 pages only. -/
lemma lt_of_shown_sram {banks : List Byte} {p : Byte} (h : shown banks p = .sram) : p < 0xc0 := by
  by_contra hp
  induction banks using List.reverseRecOn with
  | nil => exact absurd ((if_neg hp).symm.trans h) (by decide)
  | append_singleton banks k ih =>
    rw [shown_concat] at h
    by_cases hk : k = 0
    · rw [hk, select_zero, if_neg hp] at h
      exact ih h
    · rw [select_of_ne _ hk, if_pos (BitVec.le_trans (by decide) (BitVec.not_lt.1 hp))] at h
      exact nomatch h

/-- Selecting bank 0 again and again changes nothing in the initial map. -/
lemma shown_of_zero {banks : List Byte} (h : ∀ k ∈ banks, k = 0) : shown banks = initialMap := by
  induction banks using List.reverseRecOn with
  | nil => rfl
  | append_singleton banks k ih =>
    obtain rfl : k = 0 := h k (by simp)
    have hrest := ih fun k hk => h k (List.mem_append_left _ hk)
    funext p
    rw [shown_concat, hrest, select_zero]
    unfold initialMap
    split_ifs <;> rfl

/-- The last pages are unmapped as long as only bank 0 has been selected. -/
lemma shown_high_iff (banks : List Byte) {p : Byte} (hp : 0xc0 ≤ p) :
    shown banks p = .unmapped ↔ ∀ k ∈ banks, k = 0 := by
  have hnot : ¬p < 0xc0 := BitVec.not_lt.2 hp
  induction banks using List.reverseRecOn with
  | nil => exact iff_of_true (if_neg hnot) fun k hk => absurd hk List.not_mem_nil
  | append_singleton banks k ih =>
    rw [shown_concat, List.forall_mem_append, List.forall_mem_singleton]
    by_cases hk : k = 0
    · rw [hk, select_zero, if_neg hnot]
      exact Iff.trans ih ⟨fun h => ⟨h, rfl⟩, fun h => h.1⟩
    · rw [select_of_ne _ hk, if_pos (BitVec.le_trans (by decide) hp)]
      exact iff_of_false (fun h => nomatch h) fun h => hk h.2

/-! ## The page tables -/

namespace Machine

variable {σ : Type}

/-- External data memory after the given writes to `DATA_BANK`, with the contents of `rom`. -/
structure DataMem (rom : Buffer) (banks : List Byte) (m : Machine σ) : Prop where
  nbuf : m.nbuf = 2
  rom : m.heap 0 = rom
  romName : (m.heap 0).name = "rom"
  sramName : (m.heap 1).name = "sram"
  sramSize : (m.heap 1).size = 0xc000
  xrampage : ∀ p, m.xrampage p = (shown banks p).page p
  xramfnwr : ∀ p, m.xramfnwr p = (shown banks p).handler

variable {rom : Buffer} {banks : List Byte} {m m' : Machine σ}

/-- The mapping of external data memory is known from what lies outside the CPU. -/
lemma dataMem_isOuter : IsOuter (DataMem rom banks : Machine σ → Prop) := by
  intro m m' hsame h
  constructor
  · rw [hsame.nbuf]
    exact h.nbuf
  · rw [hsame.heap]
    exact h.rom
  · rw [hsame.heap]
    exact h.romName
  · rw [hsame.heap]
    exact h.sramName
  · rw [hsame.heap]
    exact h.sramSize
  · rw [hsame.xrampage]
    exact h.xrampage
  · rw [hsame.xramfnwr]
    exact h.xramfnwr

/-- The buffer named `rom` is the first one, which `main` has created. -/
lemma DataMem.getBuffer_rom (h : DataMem rom banks m) : m.getBuffer "rom" = some 0 := by
  rw [getBuffer, h.nbuf, findBuffer, if_neg (by rw [h.sramName]; decide), findBuffer,
    if_pos h.romName]

/-- The buffer named `sram` is the second one, which the script has created. -/
lemma DataMem.getBuffer_sram (h : DataMem rom banks m) : m.getBuffer "sram" = some 1 := by
  rw [getBuffer, h.nbuf, findBuffer, if_pos h.sramName]

/-- A page that shows `rom` has the handler that refuses all writes. -/
lemma DataMem.readOnly (h : DataMem rom banks m) {p : Byte} {q : PagePtr}
    (hq : m.xrampage p = some q) (hrom : q.buf = 0) : m.xramfnwr p = some .writexRo := by
  rw [h.xrampage] at hq
  rw [h.xramfnwr]
  cases hb : shown banks p with
  | unmapped =>
    rw [hb] at hq
    exact absurd hq (Option.some_ne_none q).symm
  | sram =>
    rw [hb] at hq
    obtain rfl := Option.some.inj hq
    exact absurd hrom Nat.one_ne_zero
  | rom k => rfl

/-- What can be written to, having no such handler, lies in `sram`. -/
lemma DataMem.writable (h : DataMem rom banks m) {p : Byte} {q : PagePtr}
    (hq : m.xrampage p = some q) (hfn : m.xramfnwr p = none) :
    q.buf = 1 ∧ 0 ≤ q.ofs ∧ q.ofs + 0x100 ≤ 0xc000 := by
  rw [h.xrampage] at hq
  rw [h.xramfnwr] at hfn
  cases hb : shown banks p with
  | unmapped =>
    rw [hb] at hq
    exact absurd hq (Option.some_ne_none q).symm
  | sram =>
    rw [hb] at hq
    obtain rfl := Option.some.inj hq
    have hlt : p.toNat < 0xc0 := lt_of_shown_sram hb
    have hstart : (0 : ℤ) ≤ p.toNat * 0x100 := by omega
    have hend : (p.toNat * 0x100 + 0x100 : ℤ) ≤ 0xc000 := by omega
    exact ⟨rfl, hstart, hend⟩
  | rom k =>
    rw [hb] at hfn
    exact absurd hfn (Option.some_ne_none _)

/-- A store in external memory does not reach `rom`. -/
lemma DataMem.writex (h : DataMem rom banks m) (a : Word) (v : Byte) :
    DataMem rom banks (m.writex a v) := by
  unfold Machine.writex
  split
  · exact h
  · next hfn =>
    split
    · next p hp =>
      have hbuf : p.buf = 1 := (h.writable hp hfn).1
      have hrom : (m.pokePage p (lo a) v).heap 0 = m.heap 0 := by
        rw [pokePage_heap, hbuf, Function.update_of_ne Nat.zero_ne_one]
      have hsram : ((m.pokePage p (lo a) v).heap 1).name = (m.heap 1).name ∧
          ((m.pokePage p (lo a) v).heap 1).size = (m.heap 1).size := by
        rw [pokePage_heap, hbuf, Function.update_self]
        exact ⟨rfl, rfl⟩
      exact ⟨h.nbuf, hrom.trans h.rom, (congrArg Buffer.name hrom).trans h.romName,
        hsram.1.trans h.sramName, hsram.2.trans h.sramSize, h.xrampage, h.xramfnwr⟩
    · exact h

end Machine

/-- The operation does not map external memory. -/
def LuaOp.OffXramMap : LuaOp σ → Prop
  | .makeRam _ _ | .mapXram _ _ _ _ _ => False
  | _ => True

/-- A calm step maps no pages of external data memory. -/
lemma LuaOp.Calm.offXramMap {σ : Type} {w : Bool} {o : LuaOp σ} (h : o.Calm w) : o.OffXramMap := by
  cases o with
  | makeRam name size => exact absurd h id
  | mapXram name start len ofs readonly => exact absurd h id
  | _ => trivial

/-- No hook maps external memory, except that of `DATA_BANK` when it is called for a write. -/
lemma Chip.offXramMap (chip : Chip) {g : Globals chip.Indacc} {a : Byte}
    {hook : Hook (Globals chip.Indacc)} (h : chip.script.ramdHooks g a = some hook) {w : Bool}
    (d : LuaInt) (hw : w = true → a ≠ DATA_BANK) : (hook w d).All LuaOp.OffXramMap := by
  have hcalm : ∀ {ρ : Type} {hook : Hook (Globals ρ)}, Calm hook →
      (hook w d).All LuaOp.OffXramMap := fun hc => (hc w d).mono fun _ ho => ho.offXramMap
  have hcode : ∀ {ρ : Type}, ((sfrCodeBank : Hook (Globals ρ)) w d).All LuaOp.OffXramMap := by
    intro ρ
    cases w with
    | true => exact ⟨trivial, fun _ => ⟨trivial, fun _ => trivial⟩⟩
    | false => trivial
  have hdata : ∀ {ρ : Type}, a = DATA_BANK →
      ((sfrDataBank : Hook (Globals ρ)) w d).All LuaOp.OffXramMap := by
    intro ρ ha
    cases w with
    | true => exact absurd ha (hw rfl)
    | false => trivial
  cases chip with
  | rtl8367s socRegs =>
    rcases Rtl8367s.hooks_calm _ (mem_of_lookup h) with hc | hbank | hbank
    · exact hcalm hc
    · obtain ⟨-, rfl⟩ := Prod.mk.inj hbank
      exact hcode
    · obtain ⟨ha, rfl⟩ := Prod.mk.inj hbank
      exact hdata ha
  | rtl8372 =>
    rcases Rtl8372.hooks_calm _ (mem_of_lookup h) with hc | hbank | hbank | hpcon
    · exact hcalm hc
    · obtain ⟨-, rfl⟩ := Prod.mk.inj hbank
      exact hcode
    · obtain ⟨ha, rfl⟩ := Prod.mk.inj hbank
      exact hdata ha
    · obtain ⟨-, rfl⟩ := Prod.mk.inj hpcon
      refine Prog.All.bind (all_when fun _ => ?_) fun _ => ?_
      · exact ⟨trivial, fun _ => ⟨trivial, fun _ => trivial⟩⟩
      · exact ⟨trivial, fun _ => ⟨trivial, fun _ => trivial⟩⟩

/-- Both scripts have the hook that maps external data memory under `DATA_BANK`. -/
lemma Chip.ramdHooks_dataBank (chip : Chip) (g : Globals chip.Indacc) :
    chip.script.ramdHooks g DATA_BANK = some sfrDataBank := by
  cases chip with
  | rtl8367s socRegs => rfl
  | rtl8372 => rfl

namespace Machine

variable {σ : Type} {rom : Buffer} {banks : List Byte} {m m' : Machine σ}

/-- The operations of hooks that do not map external memory. -/
lemma DataMem.luaExec (h : DataMem rom banks m) {bus : Bus σ} {o : LuaOp σ} (ho : o.OffXramMap)
    (hoff : o.OffSfr) {y : o.Res × Machine σ} (he : luaExec bus o m = some y) :
    DataMem rom banks y.2 := by
  cases o with
  | peekSfr addr => exact absurd hoff id
  | pokeSfr addr v => exact absurd hoff id
  | makeRam name size => exact absurd ho id
  | mapXram name start len ofs readonly => exact absurd ho id
  | pokeXram addr v =>
    obtain rfl := Option.some.inj he
    exact h.writex _ _
  | peekRom addr =>
    obtain ⟨b, -, rfl⟩ := Option.map_eq_some_iff.1 he
    exact h
  | mapRom name start len ofs =>
    obtain ⟨b, -, rfl⟩ := Option.map_eq_some_iff.1 he
    exact ⟨h.nbuf, h.rom, h.romName, h.sramName, h.sramSize, h.xrampage, h.xramfnwr⟩
  | error => exact absurd he (Option.some_ne_none y).symm
  | _ =>
    obtain rfl := Option.some.inj he
    exact ⟨h.nbuf, h.rom, h.romName, h.sramName, h.sramSize, h.xrampage, h.xramfnwr⟩

/-! ## The hook of `DATA_BANK` -/

/-- Mapping a range of pages that begins at `start` and does not wrap. -/
lemma mapPages_range {α : Type} (table : Byte → α) {start len : ℕ} (f : ℕ → α)
    (hlen : start + len ≤ 256) (p : Byte) : mapPages table start len f p =
      if start ≤ p.toNat ∧ p.toNat < start + len then f (p.toNat - start) else table p := by
  have hp := p.isLt
  split_ifs with hin
  · have hpage : p = BitVec.ofInt 8 (start + (p.toNat - start : ℕ)) := by
      rw [← Int.natCast_add, BitVec.ofInt_natCast, Nat.add_sub_cancel' hin.1, BitVec.ofNat_toNat,
        BitVec.setWidth_eq]
    have hmapped := mapPages_apply table start f (show p.toNat - start < len by omega) (by omega)
    rwa [← hpage] at hmapped
  · refine mapPages_of_ne table f fun i hi hpage => hin ?_
    have hval : p.toNat = start + i := by
      rw [hpage, ← Int.natCast_add, BitVec.ofInt_natCast, BitVec.toNat_ofNat]
      omega
    omega

/-- The pages mapped for `sram` are the first `0xc0`, and the others stay. -/
lemma mapPages_first {α : Type} (table : Byte → α) (f : ℕ → α) (p : Byte) :
    mapPages table 0 0xc0 f p = if p < 0xc0 then f p.toNat else table p := by
  have hrange : mapPages table ((0 : ℕ) : ℤ) 0xc0 f p =
      if 0 ≤ p.toNat ∧ p.toNat < 0 + 0xc0 then f (p.toNat - 0) else table p :=
    mapPages_range table f (by decide) p
  rw [Nat.zero_add, Nat.sub_zero] at hrange
  exact hrange.trans (if_congr ⟨fun hp => hp.2, fun hp => ⟨Nat.zero_le _, hp⟩⟩ rfl rfl)

/-- The pages mapped for a bank of `rom` are those from `0x40` on, and the others stay. -/
lemma mapPages_banked {α : Type} (table : Byte → α) (f : ℕ → α) (p : Byte) :
    mapPages table 0x40 0xc0 f p = if 0x40 ≤ p then f (p.toNat - 0x40) else table p := by
  have hp := p.isLt
  have hrange : mapPages table ((0x40 : ℕ) : ℤ) 0xc0 f p =
      if 0x40 ≤ p.toNat ∧ p.toNat < 0x40 + 0xc0 then f (p.toNat - 0x40) else table p :=
    mapPages_range table f (by decide) p
  exact hrange.trans (if_congr ⟨fun hp => hp.1, fun hle => ⟨hle, by omega⟩⟩ rfl rfl)

/-- The call for bank 0 shows `sram` again, in all the pages below `0xc0`. -/
lemma DataMem.mapXram (h : DataMem rom banks m) :
    DataMem rom (banks ++ [0]) (m.mapXram 1 0 0xc0 0) := by
  refine ⟨h.nbuf, h.rom, h.romName, h.sramName, h.sramSize, fun p => ?_, fun p => ?_⟩
  · rw [mapXram_xrampage, shown_concat, select_zero]
    refine (mapPages_first _ _ p).trans ?_
    split_ifs
    · rw [pageOf, Int.add_zero]
      rfl
    · exact h.xrampage p
  · rw [mapXram_xramfnwr, shown_concat, select_zero]
    refine (mapPages_first _ _ p).trans ?_
    split_ifs
    · rfl
    · exact h.xramfnwr p

/-- The call for another bank shows it from page `0x40` on, read-only. -/
lemma DataMem.mapXramRo (h : DataMem rom banks m) {k : Byte} (hk : k ≠ 0) :
    DataMem rom (banks ++ [k]) (m.mapXramRo 0 0x40 0xc0 (0x40 + k.toNat * 0x100)) := by
  refine ⟨h.nbuf, h.rom, h.romName, h.sramName, h.sramSize, fun p => ?_, fun p => ?_⟩
  · rw [mapXramRo_xrampage, shown_concat, select_of_ne _ hk]
    refine (mapPages_banked _ _ p).trans ?_
    split_ifs with hp
    · have hle : 0x40 ≤ p.toNat := hp
      have hplace : (((p.toNat - 0x40 : ℕ) : ℤ) + (0x40 + k.toNat * 0x100)) * 0x100 =
          (k.toNat * 0x100 + p.toNat) * 0x100 := by
        omega
      rw [pageOf, hplace]
      rfl
    · exact h.xrampage p
  · rw [mapXramRo_xramfnwr, shown_concat, select_of_ne _ hk]
    refine (mapPages_banked _ _ p).trans ?_
    split_ifs
    · rfl
    · exact h.xramfnwr p

/-- What `sfr_data_bank` does when it is called for a write. -/
lemma run_sfrDataBank {ρ : Type} {m : Machine (Globals ρ)} (h : DataMem rom banks m)
    (bus : Bus (Globals ρ)) (k : Byte) :
    ∃ m', (sfrDataBank true (luaOfByte k)).run (Machine.luaExec bus) m = some (luaOfByte k, m') ∧
      DataMem rom (banks ++ [k]) m' := by
  by_cases hk : k = 0
  · subst hk
    have hmap : Machine.luaExec bus (.mapXram "sram" 0x00 0xc0 0 0) m =
        some ((), m.mapXram 1 0 0xc0 0) := by
      rw [Machine.luaExec, h.getBuffer_sram]
      rfl
    refine ⟨_, ?_, h.mapXram⟩
    change (Machine.luaExec bus (.mapXram "sram" 0x00 0xc0 0 0) m).bind _ = _
    rw [hmap]
    rfl
  · have hlua : luaOfByte k ≠ 0 := fun hzero => hk (by
      rw [← byteOfLua_luaOfByte k, hzero]
      rfl)
    have hmap : Machine.luaExec bus (.mapXram "rom" 0x40 0xc0 (0x40 + luaOfByte k * 0x100) 1) m =
        some ((), m.mapXramRo 0 0x40 0xc0 (0x40 + k.toNat * 0x100)) := by
      rw [Machine.luaExec, h.getBuffer_rom, Option.map_some, intOfLua_ofs]
      rfl
    refine ⟨_, ?_, h.mapXramRo hk⟩
    rw [sfrDataBank, when, if_pos rfl, if_neg hlua]
    change (Machine.luaExec bus (.mapXram "rom" 0x40 0xc0 (0x40 + luaOfByte k * 0x100) 1) m).bind _
      = _
    rw [hmap]
    rfl

end Machine

end Emu51

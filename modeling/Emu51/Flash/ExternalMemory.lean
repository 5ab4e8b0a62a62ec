import Emu51.Flash.DataBanking
import Emu51.Machine.Heap

/-!
# External data memory as a memory

Two page tables over two buffers could show one byte at several addresses. Under the chip scripts
they do not where it matters: in every state of every run a store changes the byte at its own
address and no other, of data or of code. This is so in the memory of the process, with the buffers
at any addresses, for all bytes in pages that lie inside their buffers. The pages of a bank behind
the image do not, and may show `sram`.
-/

namespace Emu51

open Chip

namespace Machine

/-- A store at this address is kept. -/
def Writable {σ : Type} (m : Machine σ) (a : Word) : Prop :=
  m.xramfnwr (hi a) = none ∧ (m.xrampage (hi a)).isSome = true

instance {σ : Type} (m : Machine σ) (a : Word) : Decidable (m.Writable a) :=
  inferInstanceAs (Decidable (_ ∧ _))

section Stores

variable {σ : Type} {rom : Buffer} {banks : List Byte} {m : Machine σ} {a b : Word}

/-- The pages that keep stores are those that show `sram`. -/
lemma DataMem.writable_iff (h : DataMem rom banks m) :
    m.Writable a ↔ shown banks (hi a) = .sram := by
  unfold Writable
  rw [h.xramfnwr, h.xrampage]
  cases shown banks (hi a) with
  | unmapped => exact ⟨fun hw => absurd hw.2 Bool.false_ne_true, fun hs => nomatch hs⟩
  | sram => exact ⟨fun _ => rfl, fun _ => ⟨rfl, rfl⟩⟩
  | rom k => exact ⟨fun hw => absurd hw.1 (Option.some_ne_none _), fun hs => nomatch hs⟩

/-- Where no writable page is mapped, a store does nothing. -/
lemma writex_of_not_writable (hw : ¬m.Writable a) (v : Byte) : m.writex a v = m := by
  unfold writex
  cases hfn : m.xramfnwr (hi a) with
  | some fn => cases fn; rfl
  | none =>
    cases hpage : m.xrampage (hi a) with
    | none => rfl
    | some p => exact absurd ⟨hfn, by rw [hpage]; rfl⟩ hw

/-- A page of `sram` shows the bytes at their addresses. -/
lemma place_sram (a : Word) : ((hi a).toNat * 0x100 + (lo a).toNat : ℤ) = a.toNat := by
  rw [toNat_hi, toNat_lo]
  omega

/-- A store to a writable page changes one byte of `sram` and no other buffer. -/
lemma DataMem.writex_heap (h : DataMem rom banks m) (hw : m.Writable a) (v : Byte) :
    (m.writex a v).heap = Function.update m.heap 1
      { m.heap 1 with mem := Function.update (m.heap 1).mem a.toNat v } := by
  have hpage : m.xrampage (hi a) = some ⟨1, (hi a).toNat * 0x100⟩ := by
    rw [h.xrampage, h.writable_iff.1 hw]
    rfl
  unfold Machine.writex
  rw [hw.1, hpage]
  funext n
  refine (pokePage_heap ..).trans ?_
  rw [place_sram]

/-- After a store the byte is read at its own address, if that is writable, and nothing else has
changed. -/
theorem DataMem.readx_writex (h : DataMem rom banks m) (a b : Word) (v : Byte) :
    (m.writex a v).readx b = if b = a ∧ m.Writable a then v else m.readx b := by
  by_cases hw : m.Writable a
  · have hafter := h.writex a v
    have hpages : (m.writex a v).xrampage = m.xrampage :=
      funext fun p => (hafter.xrampage p).trans (h.xrampage p).symm
    have hheap := h.writex_heap hw v
    unfold readx
    rw [hpages, h.xrampage]
    cases hb : shown banks (hi b) with
    | unmapped =>
      rw [if_neg]
      · rfl
      · rintro ⟨rfl, -⟩
        exact absurd (hb.symm.trans (h.writable_iff.1 hw)) (fun e => nomatch e)
    | sram =>
      change ((m.writex a v).heap 1).mem _ = if b = a ∧ m.Writable a then v else (m.heap 1).mem _
      rw [hheap, Function.update_self, place_sram]
      change Function.update (m.heap 1).mem a.toNat v b.toNat = _
      rw [Function.update_apply]
      refine if_congr ?_ rfl rfl
      rw [Int.natCast_inj, BitVec.toNat_inj]
      exact ⟨fun he => ⟨he, hw⟩, fun he => he.1⟩
    | rom k =>
      rw [if_neg]
      · change ((m.writex a v).heap 0).mem _ = (m.heap 0).mem _
        rw [hheap, Function.update_of_ne Nat.zero_ne_one]
      · rintro ⟨rfl, -⟩
        exact absurd (hb.symm.trans (h.writable_iff.1 hw)) (fun e => nomatch e)
  · rw [writex_of_not_writable hw, if_neg fun he => hw he.2]

end Stores

/-! ## Code -/

/-- All code memory that is mapped shows `rom`. -/
structure ShowsRom {σ : Type} (m : Machine σ) : Prop where
  nbuf : m.nbuf = 2
  rom : (m.heap 0).name = "rom"
  sram : (m.heap 1).name = "sram"
  rompage : ∀ p q, m.rompage p = some q → q.buf = 0

section Code

variable {σ : Type} {m m' : Machine σ}

/-- That code memory shows the image is known from what lies outside the CPU. -/
lemma showsRom_isOuter : IsOuter (ShowsRom : Machine σ → Prop) := by
  intro m m' hsame h
  constructor
  · rw [hsame.nbuf]
    exact h.nbuf
  · rw [hsame.heap]
    exact h.rom
  · rw [hsame.heap]
    exact h.sram
  · rw [hsame.rompage]
    exact h.rompage

/-- The buffer `rom` is the first one, found behind `sram`. -/
lemma ShowsRom.getBuffer_rom (h : ShowsRom m) : m.getBuffer "rom" = some 0 := by
  rw [getBuffer, h.nbuf, findBuffer, if_neg (by rw [h.sram]; decide), findBuffer, if_pos h.rom]

/-- A store to external data memory keeps the number of the buffers and their names. -/
lemma writex_name (m : Machine σ) (a : Word) (v : Byte) (n : ℕ) :
    ((m.writex a v).heap n).name = (m.heap n).name ∧ (m.writex a v).nbuf = m.nbuf := by
  unfold Machine.writex
  split
  · exact ⟨rfl, rfl⟩
  · split
    · rw [pokePage_heap, Function.update_apply]
      split_ifs with hn
      · rw [hn]
        exact ⟨rfl, rfl⟩
      · exact ⟨rfl, rfl⟩
    · exact ⟨rfl, rfl⟩

/-- A write to external data memory leaves code memory where it is. -/
lemma ShowsRom.writex (h : ShowsRom m) (a : Word) (v : Byte) : ShowsRom (m.writex a v) where
  nbuf := (m.writex_name a v 0).2.trans h.nbuf
  rom := (m.writex_name a v 0).1.trans h.rom
  sram := (m.writex_name a v 1).1.trans h.sram
  rompage := by
    rw [writex_rompage]
    exact h.rompage

/-- Mapping `rom` once more leaves all of code memory showing `rom`. -/
lemma ShowsRom.mapRom (h : ShowsRom m) (start len ofs : ℤ) :
    ShowsRom (m.mapRom 0 start len ofs) := by
  refine ⟨h.nbuf, h.rom, h.sram, fun p q hq => ?_⟩
  rw [mapRom_rompage] at hq
  by_cases hp : ∃ i < len.toNat, p = BitVec.ofInt 8 (start + (i : ℕ))
  · exact mapPages_of_mem (P := fun r => ∀ q, r = some q → q.buf = 0) m.rompage start
      (f := fun i => some (pageOf 0 ofs i)) (fun i q hq => (Option.some.inj hq) ▸ rfl) hp q hq
  · have hout : ∀ i < len.toNat, p ≠ BitVec.ofInt 8 (start + (i : ℕ)) :=
      fun i hi hpi => hp ⟨i, hi, hpi⟩
    exact h.rompage p q ((mapPages_of_ne m.rompage _ hout).symm.trans hq)

/-- The ordinary operations of hooks leave code memory where it is. -/
lemma ShowsRom.luaExec (h : ShowsRom m) {bus : Bus σ} {o : LuaOp σ} (ho : o.Ordinary)
    (hoff : o.OffSfr) {y : o.Res × Machine σ} (he : luaExec bus o m = some y) : ShowsRom y.2 := by
  cases o with
  | peekSfr addr => exact absurd hoff id
  | pokeSfr addr v => exact absurd hoff id
  | pokePcx v => exact absurd ho id
  | makeRam name size => exact absurd ho id
  | mapRom name start len ofs => exact absurd ho id
  | pokeXram addr v =>
    obtain rfl := Option.some.inj he
    exact h.writex _ _
  | peekRom addr =>
    obtain ⟨b, -, rfl⟩ := Option.map_eq_some_iff.1 he
    exact h
  | mapXram name start len ofs readonly =>
    obtain ⟨b, hb, rfl⟩ := Option.map_eq_some_iff.1 he
    split_ifs
    · exact ⟨h.nbuf, h.rom, h.sram, h.rompage⟩
    · exact ⟨h.nbuf, h.rom, h.sram, h.rompage⟩
  | error => exact absurd he (Option.some_ne_none y).symm
  | _ =>
    obtain rfl := Option.some.inj he
    exact ⟨h.nbuf, h.rom, h.sram, h.rompage⟩

/-- As long as `rom` and the mapping stay, code stays. -/
lemma ShowsRom.readc_eq (h : ShowsRom m) (hkept : m'.heap 0 = m.heap 0)
    (hpages : m'.rompage = m.rompage) (c : Word) : m'.readc c = m.readc c := by
  unfold readc
  rw [hpages]
  cases hp : m.rompage (hi c) with
  | none => rfl
  | some p =>
    change (m'.heap p.buf).mem _ = (m.heap p.buf).mem _
    rw [h.rompage _ _ hp, hkept]

end Code

/-! ## Runs -/

section Runs

variable {chip : Chip} {m m' m₀ : Machine (Globals chip.Indacc)}

/-- Every hook of both scripts maps `rom` where it maps code. -/
lemma showsRom_keeps (chip : Chip) : chip.script.Keeps ShowsRom fun _ _ => True := by
  intro g a hook h w d _
  by_cases ha : a = CODE_BANK
  · subst ha
    obtain rfl := Option.some.inj ((chip.ramdHooks_codeBank g).symm.trans h)
    cases w with
    | false => trivial
    | true =>
      refine ⟨⟨trivial, fun _ bus m y hm he => ?_⟩, fun _ => ⟨⟨trivial, fun _ bus m y hm he => ?_⟩,
        fun _ => trivial⟩⟩
      · obtain rfl := Option.some.inj he
        exact ⟨hm.nbuf, hm.rom, hm.sram, hm.rompage⟩
      · obtain ⟨b, hb, rfl⟩ := Option.map_eq_some_iff.1 he
        rw [hm.getBuffer_rom] at hb
        obtain rfl := Option.some.inj hb
        exact hm.mapRom _ _ _
  · refine ((hookSpec chip h).ordinary w d fun _ => ha).mono fun o ho => ⟨?_, ?_⟩
    · cases o <;> trivial
    · exact fun hoff bus m y hm he => hm.luaExec ho hoff he

/-- No event makes code memory show anything but the image. -/
lemma happen_showsRom (hm : ShowsRom m) {e : Event} (h : happen chip.script e m = some m') :
    ShowsRom m' := by
  refine happen_invariant (I := ShowsRom) (fun o m r m' hm he => ?_) (fun m hm => ?_)
    (fun d m hm => ?_) hm h
  · exact cpuExec_keeps showsRom_isOuter (showsRom_keeps chip) (fun _ a v hm => hm.writex a v)
      (fun _ _ _ => trivial) hm he
  · exact showsRom_isOuter _ _ m.sameOutside_pollIrq hm
  · exact showsRom_isOuter _ _ (m.sameOutside_uartListener d) hm

/-- What the scripts leave is code memory that shows `rom` only. -/
lemma boot_showsRom {heap : ℕ → Buffer} {file : List Byte}
    (hboot : boot chip.script heap file = some m₀) : ShowsRom m₀ := by
  obtain ⟨m, hmapped, houtside, -⟩ := boot_mapped chip heap file
  obtain rfl := Option.some.inj (hmapped.symm.trans hboot)
  obtain ⟨m₁, hboot', hbanked⟩ := boot_banked chip heap file
  obtain rfl := Option.some.inj (hboot'.symm.trans hboot)
  refine ⟨hbanked.mem.nbuf, hbanked.mem.rom, hbanked.mem.sram, fun p q hq => ?_⟩
  rw [mapped_rompage, houtside.rompage] at hq
  split_ifs at hq
  · obtain rfl := Option.some.inj hq
    rfl
  · exact absurd hq (Option.some_ne_none q).symm

/-- The pages that can be written are those of `sram`, and inside of it. -/
lemma DataMem.inside_of_writable {σ : Type} {rom : Buffer} {banks : List Byte} {m : Machine σ}
    (h : DataMem rom banks m) {a : Word} (hfn : m.xramfnwr (hi a) = none) :
    m.PageInside (m.xrampage (hi a)) := by
  intro p hp
  have hw : m.Writable a := ⟨hfn, by rw [hp]; rfl⟩
  have hsram := h.writable_iff.1 hw
  rw [h.xrampage, hsram] at hp
  obtain rfl := Option.some.inj hp
  have hlt : (hi a).toNat < 0xc0 := BitVec.lt_def.1 (lt_of_shown_sram hsram)
  refine ⟨by rw [h.nbuf]; exact Nat.one_lt_two, Int.natCast_nonneg _, ?_⟩
  change ((hi a).toNat * 0x100 : ℤ) + 0x100 ≤ (m.heap 1).size
  rw [h.sramSize]
  omega

/-- In every state of every run under either script, a store in external data memory changes the
byte at its address, if that page is writable, and no other byte of data or code. -/
lemma readx_readc_writex {heap : ℕ → Buffer} {file : List Byte}
    (hboot : boot chip.script heap file = some m₀)
    {tr : List (Machine (Globals chip.Indacc) × Event)} (hrun : Run (Happens chip.script) m₀ tr m)
    (a : Word) (v : Byte) :
    (∀ b, (m.writex a v).readx b = if b = a ∧ m.Writable a then v else m.readx b) ∧
      ∀ c, (m.writex a v).readc c = m.readc c := by
  have hdata := (run_dataBanked hboot hrun).mem
  have hcode : ShowsRom m :=
    (hrun.invariant (fun _ _ _ hm h => happen_showsRom hm h) (boot_showsRom hboot)).2
  refine ⟨fun b => hdata.readx_writex a b v, fun c => ?_⟩
  exact hcode.readc_eq ((hdata.writex a v).rom.trans hdata.rom.symm) (m.writex_rompage a v) c

/-- The same in the memory of the process, wherever `malloc` has put the two buffers. A store that
is made there changes what is read there at its own address, if that page is writable, and at no
other one, of data or of code, whose page lies inside its buffer. -/
theorem run_readx_writex (chip : Chip) {heap : ℕ → Buffer} {file : List Byte}
    {m₀ m : Machine (Globals chip.Indacc)} (hboot : boot chip.script heap file = some m₀)
    {tr : List (Machine (Globals chip.Indacc) × Event)} (hrun : Run (Happens chip.script) m₀ tr m)
    {base : ℕ → ℤ} (hapart : m.Apart base) {mem : ℤ → Byte} (hmem : m.Holds base mem)
    (a : Word) (v : Byte) :
    (m.writex a v).Holds base (m.heapWritex base mem a v) ∧
      (∀ b, m.PageInside (m.xrampage (hi b)) →
        heapPeek base (m.heapWritex base mem a v) (m.xrampage (hi b)) (lo b) =
          if b = a ∧ m.Writable a then v else heapPeek base mem (m.xrampage (hi b)) (lo b)) ∧
      ∀ c, m.PageInside (m.rompage (hi c)) →
        heapPeek base (m.heapWritex base mem a v) (m.rompage (hi c)) (lo c) =
          heapPeek base mem (m.rompage (hi c)) (lo c) := by
  obtain ⟨hreadx, hreadc⟩ := readx_readc_writex hboot hrun a v
  have hafter : (m.writex a v).Holds base (m.heapWritex base mem a v) :=
    hmem.writex hapart (run_dataBanked hboot hrun).mem.inside_of_writable v
  have hsame := m.sameBuffers_writex a v
  refine ⟨hafter, fun b hb => ?_, fun c hc => ?_⟩
  · rw [hmem.readx hb, ← hreadx b]
    rw [← m.writex_xrampage a v] at hb ⊢
    exact hafter.readx (hb.of_sameBuffers hsame)
  · rw [hmem.readc hc, ← hreadc c]
    rw [← m.writex_rompage a v] at hc ⊢
    exact hafter.readc (hc.of_sameBuffers hsame)

/-- The theorem after bank 1 of the image has been mapped, which shows nothing of the one page this
image has. The store in `sram` is read back, and neither the byte after it nor the first byte of
code has changed. -/
theorem run_readx_writex_sram : ∃ (m : Machine Rtl8372.G) (mem : ℤ → Byte),
    heapPeek spaced mem (m.xrampage 0x12) 0x34 = 0x5a ∧
      heapPeek spaced mem (m.xrampage 0x12) 0x35 =
        heapPeek spaced m.spacedMem (m.xrampage 0x12) 0x35 ∧
      heapPeek spaced mem (m.rompage 0x00) 0x00 =
        heapPeek spaced m.spacedMem (m.rompage 0x00) 0x00 := by
  have heval : ((boot Rtl8372.script (fun _ => default) [0x90, 0x12, 0x34]).bind fun m₀ =>
      Run.follow (happen Rtl8372.script) [.poke CODE_BANK 1, .poke DATA_BANK 1, .insn] m₀).map
        (fun m => ((m.nbuf, (m.heap 0).size, (m.heap 1).size, decide (m.Writable 0x1234)),
          [m.xrampage 0x12, m.rompage 0x00].map (Option.map fun p => (p.buf, p.ofs)))) =
      some ((2, 0x100, 0xc000, true), [some (1, 0x1200), some (0, 0)]) := by
    decide +kernel
  obtain ⟨m, hm, hval⟩ := Option.map_eq_some_iff.1 heval
  obtain ⟨m₀, hboot, hfollow⟩ := Option.bind_eq_some_iff.1 hm
  obtain ⟨tr, -, hrun⟩ := Run.of_follow hfollow
  simp only [Prod.mk.injEq, decide_eq_true_eq, List.map_cons, List.map_nil, List.cons.injEq,
    and_true] at hval
  obtain ⟨⟨hnbuf, hrom, hsram, hwritable⟩, hpage, hpage'⟩ := hval
  obtain ⟨hapart, hmem⟩ := holds_spacedMem_small hnbuf hrom hsram
  have hdata : m.PageInside (m.xrampage 0x12) :=
    pageInside_of_map hpage (by omega) (by decide) (by rw [hsram]; decide)
  have hcode : m.PageInside (m.rompage 0x00) :=
    pageInside_of_map hpage' (by omega) (by decide) (by rw [hrom]; decide)
  obtain ⟨-, hreadx, hreadc⟩ :=
    run_readx_writex .rtl8372 hboot hrun hapart hmem 0x1234 0x5a
  refine ⟨m, m.heapWritex spaced m.spacedMem 0x1234 0x5a, ?_, ?_, hreadc 0x0000 hcode⟩
  · exact (hreadx 0x1234 hdata).trans (if_pos ⟨rfl, hwritable⟩)
  · exact (hreadx 0x1235 hdata).trans (if_neg fun h => absurd h.1 (by decide))

end Runs

end Machine

end Emu51

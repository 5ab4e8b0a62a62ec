import Emu51.Firmware.Hexdump
import Emu51.Firmware.Linking

/-!
# `hexdump_partial`

The routine behind `hexdump` dumps the first page of each quarter of the address space. It calls
`hexdump` three times and jumps to it for the last page, so that `hexdump` returns to its caller.
-/

namespace Emu51

variable {σ : Type}

/-! ## The listing -/

/-- The labels from `serial_hex` to `hexdump_partial`. -/
inductive PartialLabel where
  | serial (l : SerialLabel)
  | hexdumpPartial
  deriving DecidableEq

open PartialLabel SerialLabel Insn in
/-- The listing of the source. -/
def SerialSource.partialListing (src : SerialSource) : Listing PartialLabel :=
  src.listing.relabel serial ++ [
  (hexdumpPartial, [
    movDptr 0x0000,
    movRegImm 0 0x01,
    movRegImm 1 0x00,
    acall (serial hexdump),
    movDptr 0x4000,
    movRegImm 0 0x01,
    movRegImm 1 0x00,
    acall (serial hexdump),
    movDptr 0x8000,
    movRegImm 0 0x01,
    movRegImm 1 0x00,
    acall (serial hexdump),
    movDptr 0xc000,
    movRegImm 0 0x01,
    movRegImm 1 0x00,
    sjmp (serial hexdump)])]

/-- Both can be assembled. -/
example : ∀ src : SerialSource, (assemble src.partialListing.code 0).isSome := by
  rintro (_ | _) <;> decide +kernel

namespace Serial

/-- A step of the listing. -/
abbrev stepPartial (m : Machine σ) (src : SerialSource) : Config σ → Option (Config σ) :=
  Config.stepOn (fun _ => True) (m.scope .none true 10) src.partialListing.code

variable (m : Machine σ) (src : SerialSource) (s : Regs σ) (k : List Slot) (n : ℕ)

/-- The listing of the printing routines has all the labels there are. -/
lemma mem_labels (l : SerialLabel) : l ∈ src.listing.map Prod.fst := by
  cases src <;> cases l <;> decide

/-- `hexdump` and what it calls are where they were, in front of the new routine. -/
lemma linked_partialListing : Linked src.listing.code 0 src.partialListing.code :=
  Listing.linked (f := PartialLabel.serial) (fun _ _ h => PartialLabel.serial.inj h)
    (mem_labels src) [] _ fun _ => List.not_mem_nil

/-- One page of `0x100` bytes is dumped when `hexdump` is called with its address and this count. -/
lemma hexdump_page (q : Option ℕ) (a : Word) (hspace : s.r 7 = 0 ∨ s.r 7 = 1) :
    ∃ s', Leads (stepPartial m src) ⟨some (src.partialListing.pos (.serial .hexdump)), { s with
        dph := hi a
        dpl := lo a
        r := Function.update (Function.update s.r 0 0x01) 1 0x00 }, .ret q :: k, n + 6⟩
      ⟨q, s', k, n + 8⟩ ∧
        s'.out = s.out ++ dumpText (memory m (s.r 7)) a 0x100 ∧ s'.r 7 = s.r 7 := by
  obtain ⟨s', hlead, hdone⟩ := hexdump_dumping (m := m) src [] n { s with
    dph := hi a
    dpl := lo a
    r := Function.update (Function.update s.r 0 0x01) 1 0x00 } hspace none
  have hlinked := Leads.link (P := fun _ => True)
    (show (scope m).Le (m.scope .none true 10) from ⟨rfl, rfl, .refl _, id⟩)
    (linked_partialListing src) (fun _ _ => trivial) hlead q k
  have hpos : src.partialListing.pos (.serial .hexdump) = src.listing.pos .hexdump + 0 := by
    cases src <;> rfl
  rw [hpos]
  refine ⟨s', hlinked, ?_, hdone.space⟩
  have hcount : dumpCount (word 0x01 0x00) = 0x100 := by decide
  have hout := hdone.out
  rw [← dumpText_eq] at hout
  rw [← word_hi_lo a, ← hcount]
  exact hout

/-- Each of the first three calls of `hexdump` dumps the first page of its quarter. -/
lemma hexdump_pageCall (j : Fin 3) (hspace : s.r 7 = 0 ∨ s.r 7 = 1) :
    ∃ s', Leads (stepPartial m src)
      ⟨some (src.partialListing.pos .hexdumpPartial + 4 * j), s, k, n + 8⟩
      ⟨some (src.partialListing.pos .hexdumpPartial + 4 * (j + 1)), s', k, n + 8⟩ ∧
        s'.out = s.out ++ dumpText (memory m (s.r 7)) (BitVec.ofNat 16 (0x4000 * j)) 0x100 ∧
        s'.r 7 = s.r 7 := by
  have hcall : stepIter (stepPartial m src) 4
      ⟨some (src.partialListing.pos .hexdumpPartial + 4 * j), s, k, n + 8⟩ =
        some ⟨some (src.partialListing.pos (.serial .hexdump)), { s with
          dph := hi (BitVec.ofNat 16 (0x4000 * j))
          dpl := lo (BitVec.ofNat 16 (0x4000 * j))
          r := Function.update (Function.update s.r 0 0x01) 1 0x00 },
          .ret (some (src.partialListing.pos .hexdumpPartial + 4 * (j + 1))) :: k, n + 6⟩ := by
    cases src <;> match j with
      | 0 => rfl
      | 1 => rfl
      | 2 => rfl
  obtain ⟨s', hlead, hout, hspace'⟩ := hexdump_page m src s k n _
    (BitVec.ofNat 16 (0x4000 * j)) hspace
  exact ⟨s', (Leads.of_iter hcall).trans hlead, hout, hspace'⟩

/-- The first page of each quarter. -/
def pagesText (mem : Word → Byte) : List Byte :=
  (List.range 4).flatMap fun j => dumpText mem (BitVec.ofNat 16 (0x4000 * j)) 0x100

/-- The last `hexdump` returns for the routine, which jumps to it and does not call it. -/
lemma hexdumpPartial (q : Option ℕ) (hspace : s.r 7 = 0 ∨ s.r 7 = 1) :
    ∃ s', Leads (stepPartial m src)
      ⟨some (src.partialListing.pos .hexdumpPartial), s, .ret q :: k, n + 8⟩ ⟨q, s', k, n + 10⟩ ∧
        s'.out = s.out ++ pagesText (memory m (s.r 7)) := by
  obtain ⟨s₁, hlead₁, hout₁, hr₁⟩ := hexdump_pageCall m src s (.ret q :: k) n 0 hspace
  obtain ⟨s₂, hlead₂, hout₂, hr₂⟩ := hexdump_pageCall m src s₁ (.ret q :: k) n 1
    (by rwa [hr₁])
  obtain ⟨s₃, hlead₃, hout₃, hr₃⟩ := hexdump_pageCall m src s₂ (.ret q :: k) n 2
    (by rwa [hr₂, hr₁])
  have hjump : stepIter (stepPartial m src) 4
      ⟨some (src.partialListing.pos .hexdumpPartial + 12), s₃, .ret q :: k, n + 8⟩ =
        some ⟨some (src.partialListing.pos (.serial .hexdump)), { s₃ with
          dph := hi 0xc000
          dpl := lo 0xc000
          r := Function.update (Function.update s₃.r 0 0x01) 1 0x00 }, .ret q :: k, n + 8⟩ := by
    cases src <;> rfl
  obtain ⟨s₄, hlead₄, hout₄, -⟩ := hexdump_page m src s₃ k (n + 2) q 0xc000
    (by rwa [hr₃, hr₂, hr₁])
  refine ⟨s₄, hlead₁.trans (hlead₂.trans (hlead₃.trans ((Leads.of_iter hjump).trans hlead₄))), ?_⟩
  have hpages : List.range 4 = [0, 1, 2, 3] := rfl
  rw [hout₄, hout₃, hout₂, hout₁, hr₃, hr₂, hr₁, pagesText, hpages]
  simp only [List.flatMap_cons, List.flatMap_nil, List.append_nil, List.append_assoc]
  rfl

end Serial

/-! ## The routine on the machine -/

namespace Machine

open Serial

/-- `hexdump_partial` prints the four pages and returns. -/
theorem hexdumpPartial_prints {script : Script σ} {m : Machine σ} {base : Word}
    (src : SerialSource) (hready : m.Ready) (happart : m.StackApart 10)
    (hload : Loaded m.readc src.partialListing.code base)
    (hpc : m.pc = codeAddr src.partialListing.code base (src.partialListing.pos .hexdumpPartial))
    (hspace : m.rx 7 = 0 ∨ m.rx 7 = 1) :
    ∃ m', Leads (step script) m m' ∧ m'.pc = m.caller ∧ m'.sfr SP = m.sfr SP - 2 ∧
      m'.uartOut = m.uartOut ++ pagesText (memory m (m.rx 7)) := by
  obtain ⟨s, hlead, hout⟩ := hexdumpPartial m src m.regs [] 0 none hspace
  obtain ⟨m', hreach, hreached⟩ := program_reaches hready (Device.none_models script)
    (fun _ => happart) (by decide) (by decide) (hload.on _) hpc hlead
  exact ⟨m', hreach, hreached.pc, hreached.sp.trans (BitVec.add_zero _), hreached.out.trans hout⟩

/-- The code at address 0. -/
def partialRom : List Byte := (assemble SerialSource.helloAsm.partialListing.code 0).getD []

/-- About to dump four pages of the code. -/
def paging : Machine Unit :=
  calling () partialRom (codeAddr SerialSource.helloAsm.partialListing.code 0
    (SerialSource.helloAsm.partialListing.pos .hexdumpPartial))

/-- The theorem for a dump that begins with the code of the routines, as `hello.asm` has them. -/
theorem hexdumpPartial_prints_code : ∃ m', Leads (step noHooks) paging m' ∧
    m'.pc = paging.caller ∧ m'.uartOut.take 55 =
      "0000: c5 f0 e5 f0 c4 54 0f 12 00 0e e5 f0 54 0f c3 94\r\n".toList.map ascii := by
  have hrom : assemble SerialSource.helloAsm.partialListing.code 0 = some partialRom := by
    decide +kernel
  have hready : paging.Ready := ⟨⟨rfl, false, rfl, rfl, rfl⟩, rfl, rfl⟩
  have happart : ∀ i < 10, ∀ n, iramCell (paging.sfr SP - 1 + BitVec.ofNat 8 i) ≠
      regCell paging.reg n := by decide +kernel
  have hload : Loaded paging.readc SerialSource.helloAsm.partialListing.code 0 :=
    ⟨partialRom, hrom, calling_bytesAt () paging.pc (by decide +kernel)⟩
  obtain ⟨m', hlead, hpc, -, hout⟩ := hexdumpPartial_prints .helloAsm hready happart hload rfl
    (.inl rfl)
  have hfirst : (paging.uartOut ++ pagesText (memory paging (paging.rx 7))).take 55 =
      "0000: c5 f0 e5 f0 c4 54 0f 12 00 0e e5 f0 54 0f c3 94\r\n".toList.map ascii := by
    decide +kernel
  exact ⟨m', hlead, hpc, by rw [hout, hfirst]⟩

end Machine

end Emu51

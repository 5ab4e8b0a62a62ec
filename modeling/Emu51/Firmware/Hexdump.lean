import Emu51.Firmware.Serial

/-!
# `hexdump`

The dump of a range of memory, sixteen bytes a line. The loop of `hexdump` prints one byte a round,
and has two counters: the number of bytes left in `R0` and `R1`, where zero stands for 65536, and
the number of bytes left in the line in `R2`. `F0` says that the next byte begins a line.
-/

namespace Emu51

variable {σ : Type}

/-! ## The text -/

/-- The end of a line. -/
def crlf : List Byte := [13, 10]

/-- A group of `k` bytes from an address on, with a line end if it is a full one. -/
def dumpGroup (mem : Word → Byte) (a : Word) (k : ℕ) : List Byte :=
  hexDigits 4 a.toNat ++ [ascii ':'] ++
    (List.range k).flatMap (fun i =>
      ascii ' ' :: hexDigits 2 (mem (a + BitVec.ofNat 16 i)).toNat) ++
        if k = 16 then crlf else []

/-- The dump of `n` bytes from an address on, in groups of up to 16. -/
def dumpText (mem : Word → Byte) (a : Word) (n : ℕ) : List Byte :=
  (List.range ((n + 15) / 16)).flatMap fun g =>
    dumpGroup mem (a + BitVec.ofNat 16 (16 * g)) (min 16 (n - 16 * g))

/-- What one round prints, for the byte number `i`. -/
def dumpItem (mem : Word → Byte) (a : Word) (i : ℕ) : List Byte :=
  let w := a + BitVec.ofNat 16 i
  (if i % 16 = 0 then hexDigits 4 w.toNat ++ [ascii ':'] else []) ++
    (ascii ' ' :: hexDigits 2 (mem w).toNat) ++ if i % 16 = 15 then crlf else []

/-- One item depends on its place in its group of sixteen, and on its byte. -/
lemma dumpItem_add (mem : Word → Byte) (a : Word) (g : ℕ) {i : ℕ} (hi : i < 16) :
    dumpItem mem a (16 * g + i) =
      (if i = 0 then hexDigits 4 (a + BitVec.ofNat 16 (16 * g)).toNat ++ [ascii ':'] else []) ++
        (ascii ' ' ::
          hexDigits 2 (mem (a + BitVec.ofNat 16 (16 * g) + BitVec.ofNat 16 i)).toNat) ++
            if i = 15 then crlf else [] := by
  have hmod : (16 * g + i) % 16 = i := by omega
  rw [dumpItem, hmod, BitVec.ofNat_add, ← BitVec.add_assoc]
  by_cases hzero : i = 0
  · subst hzero
    rw [show a + BitVec.ofNat 16 (16 * g) + BitVec.ofNat 16 0 = a + BitVec.ofNat 16 (16 * g) from
      BitVec.add_zero _]
  · rw [if_neg hzero, if_neg hzero]

/-- The first items of a group of sixteen are the beginning of a line. -/
lemma flatMap_dumpItem (mem : Word → Byte) (a : Word) (g : ℕ) {k : ℕ} (hk : 0 < k) (hk' : k ≤ 16) :
    (List.range k).flatMap (fun i => dumpItem mem a (16 * g + i)) =
      dumpGroup mem (a + BitVec.ofNat 16 (16 * g)) k := by
  induction k with
  | zero => exact absurd hk (Nat.lt_irrefl 0)
  | succ k ih =>
    rw [List.range_succ, List.flatMap_append, List.flatMap_singleton,
      dumpItem_add mem a g (Nat.lt_of_succ_le hk')]
    rcases Nat.eq_zero_or_pos k with rfl | hpos
    · simp [dumpGroup]
    · have hlast : k + 1 = 16 ↔ k = 15 := by omega
      rw [ih hpos (Nat.le_of_succ_le hk'), dumpGroup, dumpGroup, List.range_succ,
        List.flatMap_append, List.flatMap_singleton, if_neg (Nat.ne_of_lt hk'),
        if_neg (Nat.ne_of_gt hpos)]
      simp only [hlast, List.append_nil, List.nil_append, List.append_assoc]

/-- Items taken in order are the groups of sixteen taken in order. -/
lemma flatMap_groups (f : ℕ → List Byte) (q : ℕ) :
    (List.range (16 * q)).flatMap f =
      (List.range q).flatMap fun g => (List.range 16).flatMap fun i => f (16 * g + i) := by
  induction q with
  | zero => rfl
  | succ q ih =>
    rw [Nat.mul_succ, List.range_add, List.flatMap_append, ih, List.range_succ (n := q),
      List.flatMap_append, List.flatMap_singleton, List.flatMap_map]

/-- The dump is printed item by item, although its text is defined by lines. -/
theorem dumpText_eq (mem : Word → Byte) (a : Word) (n : ℕ) :
    dumpText mem a n = (List.range n).flatMap (dumpItem mem a) := by
  set q := n / 16
  set r := n % 16
  have hn : n = 16 * q + r := (Nat.div_add_mod n 16).symm
  have hr : r < 16 := Nat.mod_lt n (by decide)
  have hfull : ∀ g ∈ List.range q, dumpGroup mem (a + BitVec.ofNat 16 (16 * g))
      (min 16 (n - 16 * g)) = (List.range 16).flatMap fun i => dumpItem mem a (16 * g + i) := by
    intro g hg
    have hg' : g < q := List.mem_range.1 hg
    rw [flatMap_dumpItem mem a g (by decide) (Nat.le_refl 16), Nat.min_eq_left (by omega)]
  rw [hn, List.range_add, List.flatMap_append, flatMap_groups, List.flatMap_map, ← hn, dumpText]
  rcases Nat.eq_zero_or_pos r with hzero | hpos
  · have hgroups : (n + 15) / 16 = q := by omega
    rw [hgroups, hzero]
    exact (List.flatMap_congr hfull).trans (List.append_nil _).symm
  · have hgroups : (n + 15) / 16 = q + 1 := by omega
    have hrest : min 16 (n - 16 * q) = r := by omega
    rw [hgroups, List.range_succ, List.flatMap_append, List.flatMap_singleton, hrest,
      List.flatMap_congr hfull, flatMap_dumpItem mem a q hpos (Nat.le_of_lt hr)]

/-! ## The count -/

/-- Two subtractions with a borrow between them count down. -/
lemma word_aluSubb (h l p : Byte) :
    word (aluSubb h 0 (aluSubb l 1 (p &&& ~~~PSW_C)).2).1 (aluSubb l 1 (p &&& ~~~PSW_C)).1 =
      word h l - 1 := by
  have hlow := aluSubb_value l 1 (p &&& ~~~PSW_C)
  have hhigh := aluSubb_value h 0 (aluSubb l 1 (p &&& ~~~PSW_C)).2
  have hborrow := carryIn_le (aluSubb h 0 (aluSubb l 1 (p &&& ~~~PSW_C)).2).2
  rw [carryIn_clear] at hlow
  have hone : (1 : Byte).toNat = 1 := rfl
  have hzero : (0 : Byte).toNat = 0 := rfl
  have hone' : (1 : Word).toNat = 1 := rfl
  have hh := h.isLt
  have hl := l.isLt
  have hx := (aluSubb l 1 (p &&& ~~~PSW_C)).1.isLt
  have hy := (aluSubb h 0 (aluSubb l 1 (p &&& ~~~PSW_C)).2).1.isLt
  apply BitVec.eq_of_toNat_eq
  rw [BitVec.toNat_sub, toNat_word, toNat_word, hone']
  omega

/-- The test for the end looks at both bytes. -/
lemma or_eq_zero_iff (h l : Byte) : h ||| l = 0 ↔ word h l = 0 := by
  constructor
  · intro hor
    obtain ⟨rfl, rfl⟩ := BitVec.or_eq_zero_iff.1 hor
    rfl
  · intro hword
    have hhigh : h = 0 := by rw [← hi_word h l, hword]; rfl
    have hlow : l = 0 := by rw [← lo_word h l, hword]; rfl
    rw [hhigh, hlow]
    rfl

/-! ## One round -/

namespace Serial

variable (m : Machine σ) (src : SerialSource) (s : Regs σ) (k : List Slot) (n : ℕ)

/-- The beginning of a round prints the address if `F0` is set, and clears `F0`. -/
lemma hexdumpLoop : ∃ s', Leads (step m src) ⟨place src .hexdumpLoop, s, k, n + 6⟩
    ⟨place src .hexdumpNoaddr, s', k, n + 6⟩ ∧
      s'.out = s.out ++
        (if flag PSW_F0 s.psw then hexDigits 4 s.dptr.toNat ++ [ascii ':'] else []) ∧
      s'.dptr = s.dptr ∧ s'.r = s.r ∧ flag PSW_F0 s'.psw = false := by
  have htest : stepIter (step m src) 1 ⟨place src .hexdumpLoop, s, k, n + 6⟩ =
      some ⟨some (if s.psw &&& PSW_F0 = 0 then src.listing.pos .hexdumpNoaddr
        else src.listing.pos .hexdumpLoop + 1), s, k, n + 6⟩ := by
    cases src <;> rfl
  by_cases hf0 : s.psw &&& PSW_F0 = 0
  · rw [if_pos hf0] at htest
    have hclear : flag PSW_F0 s.psw = false := bne_eq_false_iff_eq.2 hf0
    refine ⟨s, Leads.of_iter htest, ?_, rfl, rfl, hclear⟩
    rw [hclear, if_neg Bool.false_ne_true, List.append_nil]
  · rw [if_neg hf0] at htest
    have hset : flag PSW_F0 s.psw = true := bne_iff_ne.2 hf0
    have hcall : stepIter (step m src) 1
        ⟨some (src.listing.pos .hexdumpLoop + 1), s, k, n + 6⟩ = some ⟨place src .hexaddr, s,
          .ret (some (src.listing.pos .hexdumpLoop + 2)) :: k, n + 4⟩ := by
      cases src <;> rfl
    obtain ⟨s₁, hlead, hprints⟩ := hexaddr m src s (some (src.listing.pos .hexdumpLoop + 2)) k n
    have hclr : stepIter (step m src) 1
        ⟨some (src.listing.pos .hexdumpLoop + 2), s₁, k, n + 6⟩ = some ⟨place src .hexdumpNoaddr,
          { s₁ with psw := Cpu.withBit s₁.psw (Cpu.bitMask F0) false }, k, n + 6⟩ := by
      cases src <;> rfl
    have hcleared : ∀ p : Byte, flag PSW_F0 (Cpu.withBit p (Cpu.bitMask F0) false) = false := by
      decide
    refine ⟨_, (Leads.of_iter htest).trans ((Leads.of_iter hcall).trans
      (hlead.trans (.of_iter hclr))), ?_, hprints.dptr, hprints.r, hcleared _⟩
    rw [hset, if_pos rfl]
    exact hprints.out

/-- Then the byte is printed, two digits with a space or none in front. -/
lemma hexdumpNoaddr (h : s.r 7 = 0 ∨ s.r 7 = 1) :
    ∃ s', Leads (step m src) ⟨place src .hexdumpNoaddr, s, k, n + 6⟩
      ⟨some (src.listing.pos .hexdumpNoaddr + 5), s', k, n + 6⟩ ∧
        s'.out = s.out ++ ascii ' ' :: hexDigits 2 (memory m (s.r 7) s.dptr).toNat ∧
        s'.dptr = s.dptr + 1 ∧ s'.r = s.r ∧ flag PSW_F0 s'.psw = flag PSW_F0 s.psw := by
  have hblank : stepIter (step m src) 2 ⟨place src .hexdumpNoaddr, s, k, n + 6⟩ =
      some ⟨place src .serialWrite, { s with acc := ascii ' ' },
        .ret (some (src.listing.pos .hexdumpNoaddr + 2)) :: k, n + 4⟩ := by
    cases src <;> rfl
  obtain ⟨s₁, hlead₁, hprints₁, -⟩ := serialWrite m src { s with acc := ascii ' ' }
    (some (src.listing.pos .hexdumpNoaddr + 2)) k (n + 4)
  have hread : stepIter (step m src) 1
      ⟨some (src.listing.pos .hexdumpNoaddr + 2), s₁, k, n + 6⟩ =
        some ⟨place src .readByte, s₁,
          .ret (some (src.listing.pos .hexdumpNoaddr + 3)) :: k, n + 4⟩ := by
    cases src <;> rfl
  have hr : s₁.r = s.r := hprints₁.r
  have hdptr : s₁.dptr = s.dptr := hprints₁.dptr
  have hlead₂ : Leads (step m src) ⟨place src .readByte, s₁,
      .ret (some (src.listing.pos .hexdumpNoaddr + 3)) :: k, n + 4⟩
        ⟨some (src.listing.pos .hexdumpNoaddr + 3), { s₁ with acc := memory m (s.r 7) s.dptr }, k,
          n + 6⟩ := by
    rw [← hr, ← hdptr]
    exact readByte m src s₁ _ k (n + 4) (by rwa [hr])
  set x := memory m (s.r 7) s.dptr
  have hhex : stepIter (step m src) 1
      ⟨some (src.listing.pos .hexdumpNoaddr + 3), { s₁ with acc := x }, k, n + 6⟩ =
        some ⟨place src .serialHex, { s₁ with acc := x },
          .ret (some (src.listing.pos .hexdumpNoaddr + 4)) :: k, n + 4⟩ := by
    cases src <;> rfl
  obtain ⟨s₂, hlead₃, hprints₂⟩ := serialHex m src { s₁ with acc := x }
    (some (src.listing.pos .hexdumpNoaddr + 4)) k (n + 2)
  have hinc : stepIter (step m src) 1
      ⟨some (src.listing.pos .hexdumpNoaddr + 4), s₂, k, n + 6⟩ =
        some ⟨some (src.listing.pos .hexdumpNoaddr + 5),
          { s₂ with dph := hi (s₂.dptr + 1), dpl := lo (s₂.dptr + 1) }, k, n + 6⟩ := by
    cases src <;> rfl
  have hprints := ((Prints.of_acc s (ascii ' ') s.b rfl).trans hprints₁).trans
    ((Prints.of_acc s₁ x s₁.b rfl).trans hprints₂)
  refine ⟨_, (Leads.of_iter hblank).trans (hlead₁.trans ((Leads.of_iter hread).trans
    (hlead₂.trans ((Leads.of_iter hhex).trans (hlead₃.trans (.of_iter hinc)))))), hprints.out, ?_,
      hprints.r, hprints.f0⟩
  rw [← hprints.dptr]
  exact word_hi_lo _

/-- Then the line counter goes down, and the sixteenth byte ends the line. -/
lemma hexdumpLine : ∃ s', Leads (step m src)
    ⟨some (src.listing.pos .hexdumpNoaddr + 5), s, k, n + 6⟩
    ⟨place src .hexdumpNonewline, s', k, n + 6⟩ ∧
      s'.out = s.out ++ (if s.r 2 = 1 then crlf else []) ∧ s'.dptr = s.dptr ∧
      s'.r = Function.update s.r 2 (if s.r 2 = 1 then 16 else s.r 2 - 1) ∧
      flag PSW_F0 s'.psw = (flag PSW_F0 s.psw || s.r 2 = 1) := by
  have htest : stepIter (step m src) 1
      ⟨some (src.listing.pos .hexdumpNoaddr + 5), s, k, n + 6⟩ =
        some ⟨some (if s.r 2 - 1 ≠ 0 then src.listing.pos .hexdumpNonewline
          else src.listing.pos .hexdumpNoaddr + 6),
          { s with r := Function.update s.r 2 (s.r 2 - 1) }, k, n + 6⟩ := by
    cases src <;> rfl
  have hone : ∀ x : Byte, x - 1 ≠ 0 ↔ ¬x = 1 := by decide
  by_cases hlast : s.r 2 = 1
  · rw [if_neg fun h => (hone _).1 h hlast] at htest
    have hcall : stepIter (step m src) 2 ⟨some (src.listing.pos .hexdumpNoaddr + 6),
        { s with r := Function.update s.r 2 (s.r 2 - 1) }, k, n + 6⟩ =
          some ⟨place src .serialNewline,
            { s with r := Function.update (Function.update s.r 2 (s.r 2 - 1)) 2 16 },
            .ret (some (src.listing.pos .hexdumpNoaddr + 8)) :: k, n + 4⟩ := by
      cases src <;> rfl
    rw [Function.update_idem] at hcall
    obtain ⟨s₁, hlead, hprints⟩ := serialNewline m src
      { s with r := Function.update s.r 2 16 } (some (src.listing.pos .hexdumpNoaddr + 8)) k (n + 2)
    have hset : stepIter (step m src) 1
        ⟨some (src.listing.pos .hexdumpNoaddr + 8), s₁, k, n + 6⟩ =
          some ⟨place src .hexdumpNonewline,
            { s₁ with psw := s₁.psw ||| Cpu.bitMask F0 }, k, n + 6⟩ := by
      cases src <;> rfl
    have hraised : ∀ p : Byte, flag PSW_F0 (p ||| Cpu.bitMask F0) = true := by decide
    refine ⟨_, (Leads.of_iter htest).trans ((Leads.of_iter hcall).trans
      (hlead.trans (.of_iter hset))), ?_, hprints.dptr, ?_, ?_⟩
    · rw [if_pos hlast]
      exact hprints.out
    · rw [if_pos hlast]
      exact hprints.r
    · rw [decide_eq_true hlast, Bool.or_true]
      exact hraised _
  · rw [if_pos ((hone _).2 hlast)] at htest
    refine ⟨_, Leads.of_iter htest, ?_, rfl, ?_, ?_⟩
    · rw [if_neg hlast, List.append_nil]
    · rw [if_neg hlast]
    · rw [decide_eq_false hlast, Bool.or_false]

/-- Then the count goes down, and unless it is zero there is another round. -/
lemma hexdumpCount : ∃ s', Leads (step m src) ⟨place src .hexdumpNonewline, s, k, n⟩
    ⟨some (if word (s.r 0) (s.r 1) - 1 = 0 then src.listing.pos .hexdumpNonewline + 9
      else src.listing.pos .hexdumpLoop), s', k, n⟩ ∧
      s'.out = s.out ∧ s'.dptr = s.dptr ∧
      word (s'.r 0) (s'.r 1) = word (s.r 0) (s.r 1) - 1 ∧ (∀ i, 1 < i → s'.r i = s.r i) ∧
      flag PSW_F0 s'.psw = flag PSW_F0 s.psw := by
  set y := aluSubb (s.r 1) 1 (s.psw &&& ~~~PSW_C) with hy
  set z := aluSubb (s.r 0) 0 y.2 with hz
  have hlow : stepIter (step m src) 5 ⟨place src .hexdumpNonewline, s, k, n⟩ =
      some ⟨some (src.listing.pos .hexdumpNonewline + 5),
        { s with acc := s.r 0, psw := y.2, r := Function.update s.r 1 y.1 }, k, n⟩ := by
    cases src <;> rfl
  have hhigh : stepIter (step m src) 4 ⟨some (src.listing.pos .hexdumpNonewline + 5),
      { s with acc := s.r 0, psw := y.2, r := Function.update s.r 1 y.1 }, k, n⟩ =
        some ⟨some (if z.1 ||| y.1 != 0 then src.listing.pos .hexdumpLoop
          else src.listing.pos .hexdumpNonewline + 9), { s with
            acc := z.1 ||| y.1
            psw := z.2
            r := Function.update (Function.update s.r 1 y.1) 0 z.1 }, k, n⟩ := by
    cases src <;> rfl
  have hword : word z.1 y.1 = word (s.r 0) (s.r 1) - 1 := word_aluSubb ..
  have hend : (if z.1 ||| y.1 != 0 then src.listing.pos .hexdumpLoop
      else src.listing.pos .hexdumpNonewline + 9) =
        if word (s.r 0) (s.r 1) - 1 = 0 then src.listing.pos .hexdumpNonewline + 9
          else src.listing.pos .hexdumpLoop := by
    rw [← hword]
    by_cases hzero : word z.1 y.1 = 0
    · rw [if_pos hzero, if_neg]
      simpa using (or_eq_zero_iff ..).2 hzero
    · rw [if_neg hzero, if_pos]
      simpa using fun h => hzero ((or_eq_zero_iff ..).1 h)
  rw [hend] at hhigh
  refine ⟨_, (Leads.of_iter hlow).trans (.of_iter hhigh), rfl, rfl, hword, ?_, ?_⟩
  · intro i hi
    have hne : i ≠ 0 ∧ i ≠ 1 := by
      revert i
      decide
    change Function.update (Function.update s.r 1 y.1) 0 z.1 i = s.r i
    rw [Function.update_of_ne hne.1, Function.update_of_ne hne.2]
  · change flag PSW_F0 z.2 = flag PSW_F0 s.psw
    rw [hz, flag_f0_aluSubb, hy, flag_f0_aluSubb, flag_f0_clear]

/-! ## The loop -/

/-- The line counter is 1 before the last byte of a group. -/
lemma lineCounter_eq_one {i : ℕ} : BitVec.ofNat 8 (16 - i % 16) = 1 ↔ i % 16 = 15 := by
  have hall : ∀ j < 16, BitVec.ofNat 8 (16 - j) = 1 ↔ j = 15 := by decide
  exact hall _ (Nat.mod_lt i (by decide))

/-- The counter of the current line goes down by 1 with each byte and starts again at 16. -/
lemma lineCounter_next {i : ℕ} : (if BitVec.ofNat 8 (16 - i % 16) = 1 then 16
    else BitVec.ofNat 8 (16 - i % 16) - 1) = BitVec.ofNat 8 (16 - (i + 1) % 16) := by
  have hall : ∀ j < 16, (if BitVec.ofNat 8 (16 - j) = 1 then 16
      else BitVec.ofNat 8 (16 - j) - 1) = BitVec.ofNat 8 (16 - (j + 1) % 16) := by decide
  rw [hall _ (Nat.mod_lt i (by decide)), Nat.mod_add_mod]

/-- The registers before round number `i` of a dump that has begun with the registers `s₀`. -/
structure Dumping (m : Machine σ) (s₀ : Regs σ) (i : ℕ) (s : Regs σ) : Prop where
  out : s.out = s₀.out ++ (List.range i).flatMap (dumpItem (memory m (s₀.r 7)) s₀.dptr)
  dptr : s.dptr = s₀.dptr + BitVec.ofNat 16 i
  count : word (s.r 0) (s.r 1) = word (s₀.r 0) (s₀.r 1) - BitVec.ofNat 16 i
  line : s.r 2 = BitVec.ofNat 8 (16 - i % 16)
  space : s.r 7 = s₀.r 7
  begins : flag PSW_F0 s.psw = decide (i % 16 = 0)

variable {m s} {s₀ : Regs σ} {i : ℕ}

/-- One round of the loop prints one item and counts both counters. -/
lemma Dumping.round (h : Dumping m s₀ i s) (hspace : s₀.r 7 = 0 ∨ s₀.r 7 = 1) :
    ∃ s', Leads (step m src) ⟨place src .hexdumpLoop, s, k, n + 6⟩
      ⟨some (if word (s₀.r 0) (s₀.r 1) - BitVec.ofNat 16 (i + 1) = 0 then
        src.listing.pos .hexdumpNonewline + 9 else src.listing.pos .hexdumpLoop), s', k, n + 6⟩ ∧
          Dumping m s₀ (i + 1) s' := by
  obtain ⟨s₁, hlead₁, hout₁, hdptr₁, hr₁, hf₁⟩ := hexdumpLoop m src s k n
  obtain ⟨s₂, hlead₂, hout₂, hdptr₂, hr₂, hf₂⟩ := hexdumpNoaddr m src s₁ k n
    (by rwa [hr₁, h.space])
  obtain ⟨s₃, hlead₃, hout₃, hdptr₃, hr₃, hf₃⟩ := hexdumpLine m src s₂ k n
  obtain ⟨s₄, hlead₄, hout₄, hdptr₄, hcount, hr₄, hf₄⟩ := hexdumpCount m src s₃ k (n + 6)
  have hline : s₂.r 2 = BitVec.ofNat 8 (16 - i % 16) := by rw [hr₂, hr₁, h.line]
  have hkept : ∀ j, j ≠ 2 → s₃.r j = s.r j := fun j hj => by
    rw [hr₃, Function.update_of_ne hj, hr₂, hr₁]
  have hnext : word (s₃.r 0) (s₃.r 1) - 1 = word (s₀.r 0) (s₀.r 1) - BitVec.ofNat 16 (i + 1) := by
    rw [hkept 0 (by decide), hkept 1 (by decide), h.count, BitVec.ofNat_add]
    exact BitVec.sub_sub ..
  rw [hnext] at hlead₄ hcount
  refine ⟨s₄, hlead₁.trans (hlead₂.trans (hlead₃.trans hlead₄)), ?_, ?_, hcount, ?_, ?_, ?_⟩
  · have hitem : dumpItem (memory m (s₀.r 7)) s₀.dptr i =
        (if flag PSW_F0 s.psw then hexDigits 4 s.dptr.toNat ++ [ascii ':'] else []) ++
          (ascii ' ' :: hexDigits 2 (memory m (s₁.r 7) s₁.dptr).toNat) ++
            if s₂.r 2 = 1 then crlf else [] := by
      simp only [hline, lineCounter_eq_one, h.begins, decide_eq_true_eq, hr₁, h.space, hdptr₁,
        h.dptr]
      rfl
    rw [List.range_succ, List.flatMap_append, List.flatMap_singleton, hitem, hout₄, hout₃, hout₂,
      hout₁, h.out]
    simp only [List.append_assoc]
  · rw [hdptr₄, hdptr₃, hdptr₂, hdptr₁, h.dptr, BitVec.ofNat_add, ← BitVec.add_assoc]
    rfl
  · rw [hr₄ 2 (by decide), hr₃, Function.update_self, hline, lineCounter_next]
  · rw [hr₄ 7 (by decide), hkept 7 (by decide), h.space]
  · rw [hf₄, hf₃, hf₂, hf₁, hline, Bool.false_or]
    refine decide_eq_decide.2 (lineCounter_eq_one.trans ?_)
    omega

/-- The number of bytes, where zero stands for 65536. -/
def dumpCount (w : Word) : ℕ := if w = 0 then 0x10000 else w.toNat

/-- At least one byte is dumped, as the counter is tested behind the loop. -/
lemma dumpCount_pos (w : Word) : 0 < dumpCount w := by
  rw [dumpCount]
  split
  · decide
  · next hw => exact Nat.pos_of_ne_zero fun h => hw (BitVec.eq_of_toNat_eq h)

/-- The counter is zero after that many rounds, and not before. -/
lemma sub_eq_zero_iff {w : Word} {i : ℕ} (hpos : 0 < i) (hle : i ≤ dumpCount w) :
    w - BitVec.ofNat 16 i = 0 ↔ i = dumpCount w := by
  have hw := w.isLt
  have hval : (w - BitVec.ofNat 16 i).toNat = (0x10000 - i % 0x10000 + w.toNat) % 0x10000 := by
    rw [BitVec.toNat_sub, BitVec.toNat_ofNat]
  rw [← BitVec.toNat_inj, hval]
  change _ % 0x10000 = 0 ↔ _
  by_cases hzero : w = 0
  · rw [dumpCount, if_pos hzero] at hle ⊢
    rw [hzero]
    change (0x10000 - i % 0x10000 + 0) % 0x10000 = 0 ↔ _
    omega
  · rw [dumpCount, if_neg hzero] at hle ⊢
    omega

/-- The first round begins a line, as the flag that asks for an address is set. -/
lemma Dumping.first (h : s.out = s₀.out) (hdptr : s.dptr = s₀.dptr)
    (hr : s.r = Function.update s₀.r 2 16) (hf0 : flag PSW_F0 s.psw = true) :
    Dumping m s₀ 0 s where
  out := h.trans (List.append_nil _).symm
  dptr := hdptr.trans (BitVec.add_zero _).symm
  count := by
    rw [hr]
    exact (BitVec.sub_zero _).symm
  line := by
    rw [hr]
    rfl
  space := by
    rw [hr]
    rfl
  begins := hf0

variable (s₀)

/-- `hexdump` makes a round for each byte and returns. -/
lemma hexdump_dumping (hspace : s₀.r 7 = 0 ∨ s₀.r 7 = 1) (q : Option ℕ) :
    ∃ s', Leads (step m src) ⟨place src .hexdump, s₀, .ret q :: k, n + 6⟩ ⟨q, s', k, n + 8⟩ ∧
      Dumping m s₀ (dumpCount (word (s₀.r 0) (s₀.r 1))) s' := by
  set count := dumpCount (word (s₀.r 0) (s₀.r 1)) with hcount
  set s₁ : Regs σ := { s₀ with
    psw := s₀.psw ||| Cpu.bitMask F0
    r := Function.update s₀.r 2 16 }
  have hstart : stepIter (step m src) 2 ⟨place src .hexdump, s₀, .ret q :: k, n + 6⟩ =
      some ⟨place src .hexdumpLoop, s₁, .ret q :: k, n + 6⟩ := by
    cases src <;> rfl
  have hraised : ∀ p : Byte, flag PSW_F0 (p ||| Cpu.bitMask F0) = true := by decide
  have hfirst : Dumping m s₀ 0 s₁ := Dumping.first rfl rfl rfl (hraised _)
  -- `i` rounds have been made, and the loop is left after the last one
  obtain ⟨c, hlead, s₂, hc, hlast⟩ := Leads.rounds (f := step m src) (n := count)
    (I := fun i c => ∃ s, c = ⟨some (if i = count then src.listing.pos .hexdumpNonewline + 9
      else src.listing.pos .hexdumpLoop), s, .ret q :: k, n + 6⟩ ∧ Dumping m s₀ i s)
    (fun i hi c h => by
      obtain ⟨s, rfl, h⟩ := h
      obtain ⟨s', hround, h'⟩ := h.round src (.ret q :: k) n hspace
      refine ⟨_, ?_, s', rfl, h'⟩
      rw [if_neg (Nat.ne_of_lt hi)]
      simpa only [sub_eq_zero_iff (Nat.succ_pos i) hi] using hround)
    ⟨s₁, rfl, hfirst⟩
  rw [if_pos rfl] at hc
  subst hc
  have hret : stepIter (step m src) 1
      ⟨some (src.listing.pos .hexdumpNonewline + 9), s₂, .ret q :: k, n + 6⟩ =
        some ⟨q, s₂, k, n + 8⟩ := by
    cases src <;> rfl
  rw [if_neg (Nat.ne_of_lt (dumpCount_pos _))] at hlead
  exact ⟨s₂, (Leads.of_iter hstart).trans (hlead.trans (.of_iter hret)), hlast⟩

/-- It prints the dump and leaves `DPTR` behind the last byte. -/
lemma hexdump (hspace : s₀.r 7 = 0 ∨ s₀.r 7 = 1) (q : Option ℕ) :
    ∃ s', Leads (step m src) ⟨place src .hexdump, s₀, .ret q :: k, n + 6⟩ ⟨q, s', k, n + 8⟩ ∧
      s'.out = s₀.out ++
        dumpText (memory m (s₀.r 7)) s₀.dptr (dumpCount (word (s₀.r 0) (s₀.r 1))) ∧
      s'.dptr = s₀.dptr + BitVec.ofNat 16 (dumpCount (word (s₀.r 0) (s₀.r 1))) := by
  obtain ⟨s', hlead, hdone⟩ := hexdump_dumping src k n s₀ hspace q
  refine ⟨s', hlead, ?_, hdone.dptr⟩
  rw [dumpText_eq]
  exact hdone.out

end Serial

/-! ## The routine on the machine -/

namespace Machine

open Serial

/-- `hexdump` prints the bytes it is asked for, wherever the code has been placed, and returns. -/
theorem hexdump_prints {script : Script σ} {m : Machine σ} {base : Word} (src : SerialSource)
    (hready : m.Ready) (happart : m.StackApart 8)
    (hload : Loaded m.readc src.listing.code base)
    (hpc : m.pc = codeAddr src.listing.code base (src.listing.pos .hexdump))
    (hspace : m.rx 7 = 0 ∨ m.rx 7 = 1) :
    let count := dumpCount (word (m.rx 0) (m.rx 1))
    ∃ m', Leads (step script) m m' ∧ m'.pc = m.caller ∧ m'.sfr SP = m.sfr SP - 2 ∧
      m'.uartOut = m.uartOut ++ dumpText (memory m (m.rx 7)) m.dptr count ∧
      m'.dptr = m.dptr + BitVec.ofNat 16 count := by
  intro count
  obtain ⟨s, hlead, hout, hdptr⟩ := hexdump (m := m) src [] 0 m.regs hspace none
  obtain ⟨m', hreach, hreturned⟩ :=
    routine_returns hready (Device.none_models script) (fun _ => happart) (by decide) (by decide)
      hload hpc hlead
  have hpair := hready.regs_dptr
  rw [hpair] at hout hdptr
  exact ⟨m', hreach, hreturned.pc, hreturned.sp, hreturned.out.trans hout,
    hreturned.dptr.trans hdptr⟩

/-- The code at address 0. -/
def serialRom : List Byte := (assemble SerialSource.helloS.listing.code 0).getD []

/-- About to dump the first 17 bytes of the code. -/
def dumping : Machine Unit :=
  (calling () serialRom (codeAddr SerialSource.helloS.listing.code 0
    (SerialSource.helloS.listing.pos .hexdump))).setCell (regCell (regBase 0) 1) 17

/-- The theorem for a dump of the routine's own first 17 bytes, one line and the beginning of the
next. -/
theorem hexdump_prints_code : ∃ m', Leads (step noHooks) dumping m' ∧
    m'.uartOut = ("0000: c5 f0 e5 f0 c4 54 0f 11 0d e5 f0 54 0f c3 94 0a\r\n0010: 40").toList.map
      ascii ∧ m'.dptr = 0x11 := by
  have hrom : assemble SerialSource.helloS.listing.code 0 = some serialRom := by decide +kernel
  have hready : dumping.Ready := ⟨⟨rfl, false, rfl, rfl, rfl⟩, rfl, rfl⟩
  have happart : ∀ i < 8, ∀ n, iramCell (dumping.sfr SP - 1 + BitVec.ofNat 8 i) ≠
      regCell dumping.reg n := by decide +kernel
  have hload : Loaded dumping.readc SerialSource.helloS.listing.code 0 :=
    ⟨serialRom, hrom, calling_bytesAt () dumping.pc (by decide +kernel)⟩
  obtain ⟨m', hlead, -, -, hout, hdptr⟩ := hexdump_prints .helloS hready happart
    hload rfl (.inl rfl)
  have hcount : dumpCount (word (dumping.rx 0) (dumping.rx 1)) = 17 := by decide +kernel
  have htext : dumping.uartOut ++ dumpText (memory dumping (dumping.rx 7)) dumping.dptr 17 =
      ("0000: c5 f0 e5 f0 c4 54 0f 11 0d e5 f0 54 0f c3 94 0a\r\n0010: 40").toList.map ascii := by
    decide +kernel
  rw [hcount] at hout hdptr
  exact ⟨m', hlead, hout.trans htext, hdptr⟩

end Machine

end Emu51

import Emu51.Interrupts.Pending
import Emu51.Interrupts.Service
import Emu51.Machine.Events

/-!
# Accepting an interrupt

What `nextop` does in front of an instruction. An interrupt is accepted if interrupts are enabled
and one is requested at a level above all levels in service; then it is one of the highest level
requested, and its service routine is entered as by a call.
-/

namespace Emu51

variable {σ : Type}

namespace Machine

/-! ## Requests and levels -/

/-- The interrupt is requested at the level. -/
def Requested (m : Machine σ) (i : Fin 32) (l : ℕ) : Prop :=
  l = 1 ∧ m.irqpendl1.getLsbD i = true ∨ l = 0 ∧ m.irqpendl0.getLsbD i = true

/-- The level is above all levels in service. -/
def Outranks (m : Machine σ) (l : ℕ) : Prop := ∀ k, m.irqlevel.getLsbD k = true → k < l

/-- The service routine of an interrupt is entered. -/
structure Accepts (m m' : Machine σ) (i : Fin 32) (l : ℕ) : Prop where
  requested : m.Requested i l
  highest : ∀ j k, m.Requested j k → k ≤ l
  irqlevel : ∀ k, m'.irqlevel.getLsbD k = (m.irqlevel.getLsbD k || decide (k = l))
  sp : m'.sfr SP = m.sfr SP + 2
  low : m'.readi (m.sfr SP + 1) = lo m.pc
  high : m'.readi (m.sfr SP + 2) = hi m.pc
  iram : ∀ a, a ≠ m.sfr SP + 1 → a ≠ m.sfr SP + 2 → m'.readi a = m.readi a
  pc : m'.pc = (m.irqs i).vec

/-- No service routine is entered. -/
structure Declines (m m' : Machine σ) : Prop where
  irqlevel : m'.irqlevel = m.irqlevel
  ramsfr : m'.ramsfr = m.ramsfr
  pc : m'.pc = m.pc

/-- The look at the interrupts, from the state in front of it to the state after it. -/
structure Decides (m m' : Machine σ) : Prop where
  accepted_iff : m.acceptedLevel.isSome = true ↔
    m.ea = true ∧ ∃ i l, m.Requested i l ∧ m.Outranks l
  accepts : ∀ l, m.acceptedLevel = some l → ∃ i, Accepts m m' i l
  declines : m.acceptedLevel = none → Declines m m'
  irqpendl0 : m'.irqpendl0 = m.irqpendl0
  irqpendl1 : m'.irqpendl1 = m.irqpendl1
  sfr : ∀ a : Byte, 0x80 ≤ a → a ≠ SP → m'.sfr a = m.sfr a

variable {script : Script σ} {m m' m₀ : Machine σ}

/-! ## Masks -/

/-- A mask is below the bit of a level exactly if it has lower bits only. -/
lemma lt_levelBit_iff (mask : BitVec 32) {l : ℕ} (hl : l < 32) :
    mask < 1#32 <<< l ↔ ∀ k, mask.getLsbD k = true → k < l := by
  have hbit : (1#32 <<< l).toNat = 2 ^ l := by
    have hpow : 2 ^ l < 2 ^ 32 := Nat.pow_lt_pow_right (by decide) hl
    rw [BitVec.toNat_shiftLeft, BitVec.toNat_ofNat, Nat.shiftLeft_eq]
    change 1 * 2 ^ l % 2 ^ 32 = 2 ^ l
    rw [Nat.one_mul, Nat.mod_eq_of_lt hpow]
  rw [BitVec.lt_def, hbit]
  constructor
  · intro hlt k hk
    by_contra hle
    have hk' : mask.toNat.testBit k = false :=
      Nat.testBit_lt_two_pow (Nat.lt_of_lt_of_le hlt
        (Nat.pow_le_pow_right (by decide) (Nat.le_of_not_lt hle)))
    exact absurd (hk.symm.trans hk') (by decide)
  · intro hall
    refine Nat.lt_pow_two_of_testBit _ fun k hk => ?_
    by_contra hset
    exact absurd (hall k ((Bool.not_eq_false _).mp hset)) (Nat.not_lt.2 hk)

/-- `31 - __builtin_clz(mask)` is a bit of the mask. -/
lemma getLsbD_highestBit {mask : BitVec 32} (h : mask ≠ 0) :
    mask.getLsbD (Fin.ofNat 32 (31 - builtinClz mask)) = true := by
  have hne : mask.toNat ≠ 0 := fun hzero => h (BitVec.eq_of_toNat_eq hzero)
  have hlog : mask.toNat.log2 < 32 := (Nat.log2_lt hne).2 mask.isLt
  have hbit : (Fin.ofNat 32 (31 - builtinClz mask)).val = mask.toNat.log2 := by
    change (31 - (31 - mask.toNat.log2)) % 32 = _
    omega
  rw [hbit]
  exact Nat.testBit_log2 hne

/-- A mask with a bit in it is not zero, as one without bits would be. -/
lemma ne_zero_of_getLsbD {mask : BitVec 32} {k : ℕ} (h : mask.getLsbD k = true) : mask ≠ 0 := by
  rintro rfl
  exact absurd h (by simp)

/-! ## The choice -/

/-- `irq_vec` for a level above all levels in service. -/
lemma irqVec_of_lt {mask : BitVec 32} {l : ℕ} (hmask : mask ≠ 0) (hlt : m.irqlevel < 1#32 <<< l) :
    m.irqVec mask l = (((m.irqs (Fin.ofNat 32 (31 - builtinClz mask))).vec.toNat : ℤ),
      m.setLevel (m.irqlevel ||| 1#32 <<< l)) := by
  unfold irqVec
  dsimp only
  rw [if_neg hmask, if_neg (BitVec.not_le.2 hlt)]

/-- `irq_vec` declines if a routine of this level or a higher one is in service. -/
lemma irqVec_of_le {mask : BitVec 32} {l : ℕ} (hle : 1#32 <<< l ≤ m.irqlevel) :
    m.irqVec mask l = (-1, m) := by
  unfold irqVec
  dsimp only
  rw [if_pos (show m.irqlevel ≥ 1#32 <<< l from hle)]
  split_ifs <;> rfl

/-- The requests `handle_irq` looks at, and their level. -/
def topRequests (m : Machine σ) : BitVec 32 × ℕ :=
  if m.irqpendl1 ≠ 0 then (m.irqpendl1, 1) else (m.irqpendl0, 0)

/-- The vector is that of the requests looked at, and of their level. -/
lemma irqSelect_eq_irqVec (m : Machine σ) :
    m.irqSelect = m.irqVec m.topRequests.1 m.topRequests.2 := by
  unfold irqSelect topRequests
  by_cases h1 : m.irqpendl1 ≠ 0
  · rw [if_pos h1, if_pos h1]
  · rw [if_neg h1, if_neg h1]
    by_cases h0 : m.irqpendl0 ≠ 0
    · rw [if_pos h0]
    · rw [if_neg h0]
      unfold irqVec
      rw [if_pos (not_not.1 h0)]

/-- There are two levels, 0 and 1. -/
lemma topRequests_le (m : Machine σ) : m.topRequests.2 ≤ 1 := by
  unfold topRequests
  split_ifs
  · exact Nat.le_refl 1
  · exact Nat.zero_le 1

/-- An interrupt among the requests looked at has really been requested at their level. -/
lemma requested_of_top {i : Fin 32} (h : m.topRequests.1.getLsbD i = true) :
    m.Requested i m.topRequests.2 := by
  unfold topRequests at h ⊢
  by_cases h1 : m.irqpendl1 ≠ 0
  · rw [if_pos h1] at h ⊢
    exact .inl ⟨rfl, h⟩
  · rw [if_neg h1] at h ⊢
    exact .inr ⟨rfl, h⟩

/-- No request has a higher level, and if there is a request there is one to look at. -/
lemma Requested.le_top {i : Fin 32} {l : ℕ} (h : m.Requested i l) :
    l ≤ m.topRequests.2 ∧ m.topRequests.1 ≠ 0 := by
  unfold topRequests
  by_cases h1 : m.irqpendl1 ≠ 0
  · rw [if_pos h1]
    rcases h with ⟨rfl, -⟩ | ⟨rfl, -⟩
    · exact ⟨Nat.le_refl 1, h1⟩
    · exact ⟨Nat.zero_le 1, h1⟩
  · rw [if_neg h1]
    rcases h with ⟨rfl, hbit⟩ | ⟨rfl, hbit⟩
    · exact absurd (ne_zero_of_getLsbD hbit) h1
    · exact ⟨Nat.le_refl 0, ne_zero_of_getLsbD hbit⟩

/-- Requests of any level are seen by the test in front of `handle_irq`. -/
lemma irqpend_iff (m : Machine σ) : m.irqpend = true ↔ m.ea = true ∧ m.topRequests.1 ≠ 0 := by
  have htop : m.irqpendl0 ||| m.irqpendl1 ≠ 0 ↔ m.topRequests.1 ≠ 0 := by
    unfold topRequests
    by_cases h1 : m.irqpendl1 ≠ 0
    · rw [if_pos h1]
      exact iff_of_true (fun h => h1 (BitVec.or_eq_zero_iff.1 h).2) h1
    · rw [if_neg h1, not_not.1 h1]
      exact not_congr (by rw [show m.irqpendl0 ||| 0 = m.irqpendl0 from BitVec.or_zero])
  unfold irqpend
  rw [Bool.and_eq_true, bne_iff_ne, htop, And.comm]

/-! ## The decision -/

/-- Only mapped interrupts are ever requested, and their vectors are not zero. -/
structure Vectored (m : Machine σ) : Prop where
  mapped : ∀ i l, m.Requested i l → (m.irqs i).source.isSome = true
  vec : ∀ i, (m.irqs i).source.isSome = true → (m.irqs i).vec ≠ 0

/-- The interrupt that is chosen if one is. -/
def topIrq (m : Machine σ) : Fin 32 := Fin.ofNat 32 (31 - builtinClz m.topRequests.1)

/-- A level above those in service is accepted. -/
lemma irqSelect_of_outranks (h : m.topRequests.1 ≠ 0) (hout : m.Outranks m.topRequests.2) :
    m.irqSelect = (((m.irqs m.topIrq).vec.toNat : ℤ),
      m.setLevel (m.irqlevel ||| 1#32 <<< m.topRequests.2)) := by
  have hle := m.topRequests_le
  rw [irqSelect_eq_irqVec]
  exact irqVec_of_lt h ((lt_levelBit_iff _ (by omega)).2 hout)

/-- Without such a request, or with one that does not outrank the routine in service, none is
chosen. -/
lemma irqSelect_of_not_outranks (h : m.topRequests.1 = 0 ∨ ¬m.Outranks m.topRequests.2) :
    m.irqSelect = (-1, m) := by
  have hle := m.topRequests_le
  rw [irqSelect_eq_irqVec]
  rcases h with hzero | hout
  · unfold irqVec
    rw [if_pos hzero]
  · exact irqVec_of_le (BitVec.not_lt.1 fun hlt => hout ((lt_levelBit_iff _ (by omega)).1 hlt))

/-- The chosen interrupt is one of the requests, the one with the highest number. -/
lemma requested_topIrq (h : m.topRequests.1 ≠ 0) : m.Requested m.topIrq m.topRequests.2 :=
  requested_of_top (getLsbD_highestBit h)

/-- The vector of the chosen interrupt is not zero. -/
lemma Vectored.pos (hm : Vectored m) (h : m.topRequests.1 ≠ 0) :
    0 < ((m.irqs m.topIrq).vec.toNat : ℤ) := by
  have hne := hm.vec _ (hm.mapped _ _ (requested_topIrq h))
  have hnat : (m.irqs m.topIrq).vec.toNat ≠ 0 := fun hzero => hne (BitVec.eq_of_toNat_eq hzero)
  omega

/-- The test of the source is the condition of the specification. -/
lemma outranks_top_iff (m : Machine σ) : (m.topRequests.1 ≠ 0 ∧ m.Outranks m.topRequests.2) ↔
    ∃ i l, m.Requested i l ∧ m.Outranks l := by
  constructor
  · rintro ⟨htop, hout⟩
    exact ⟨_, _, requested_topIrq htop, hout⟩
  · rintro ⟨i, l, hreq, hout⟩
    obtain ⟨hle, htop⟩ := hreq.le_top
    exact ⟨htop, fun k hk => Nat.lt_of_lt_of_le (hout k hk) hle⟩

/-- A level is accepted exactly if interrupts are enabled and its requests outrank the routine in
service. -/
lemma acceptedLevel_eq_some_iff (hm : Vectored m) {l : ℕ} : m.acceptedLevel = some l ↔
    m.ea = true ∧ (m.topRequests.1 ≠ 0 ∧ m.Outranks m.topRequests.2) ∧ l = m.topRequests.2 := by
  have hlevel : (if m.irqpendl1 ≠ 0 then 1 else 0) = m.topRequests.2 := by
    unfold topRequests
    split_ifs <;> rfl
  have htest : (m.irqpend = true ∧ 0 < m.irqSelect.1) ↔
      m.ea = true ∧ m.topRequests.1 ≠ 0 ∧ m.Outranks m.topRequests.2 := by
    rw [irqpend_iff, and_assoc]
    refine and_congr_right fun _ => and_congr_right fun htop => ?_
    by_cases hout : m.Outranks m.topRequests.2
    · rw [irqSelect_of_outranks htop hout]
      exact iff_of_true (hm.pos htop) hout
    · rw [irqSelect_of_not_outranks (.inr hout)]
      exact iff_of_false (show ¬(0 : ℤ) < -1 by decide) hout
  unfold acceptedLevel
  rw [hlevel, Option.ite_none_right_eq_some, htest, Option.some.injEq, and_assoc, eq_comm (a := l)]

/-- The test of the source is the condition of the specification. -/
lemma acceptedLevel_isSome_iff (hm : Vectored m) : m.acceptedLevel.isSome = true ↔
    m.ea = true ∧ ∃ i l, m.Requested i l ∧ m.Outranks l := by
  rw [Option.isSome_iff_exists, ← outranks_top_iff]
  constructor
  · rintro ⟨l, hl⟩
    obtain ⟨hea, htop, -⟩ := (acceptedLevel_eq_some_iff hm).1 hl
    exact ⟨hea, htop⟩
  · rintro ⟨hea, htop⟩
    exact ⟨_, (acceptedLevel_eq_some_iff hm).2 ⟨hea, htop, rfl⟩⟩

/-! ## Entering the service routine -/

/-- What `handle_irq` does when it accepts: the level is set, `pc` is pushed, and the vector is the
new one. -/
lemma pollIrq_of_accepted (hm : Vectored m) {l : ℕ} (h : m.acceptedLevel = some l) :
    m.pollIrq = (((m.setLevel (m.irqlevel ||| 1#32 <<< l)).push (lo m.pc)).push (hi m.pc)).setPc
      (m.irqs m.topIrq).vec := by
  obtain ⟨hea, ⟨htop, hout⟩, rfl⟩ := (acceptedLevel_eq_some_iff hm).1 h
  have hpos := hm.pos htop
  unfold pollIrq handleIrq
  rw [if_pos ((irqpend_iff m).2 ⟨hea, htop⟩), irqSelect_of_outranks htop hout]
  dsimp only
  rw [if_neg (by omega), BitVec.ofInt_natCast, BitVec.ofNat_toNat, BitVec.setWidth_eq]
  rfl

/-- What it does when it declines is nothing at all. -/
lemma pollIrq_of_declined (hm : Vectored m) (h : m.acceptedLevel = none) : m.pollIrq = m := by
  have hnot : ¬(m.ea = true ∧ m.topRequests.1 ≠ 0 ∧ m.Outranks m.topRequests.2) := by
    rintro ⟨hea, htop⟩
    have hsome := (acceptedLevel_eq_some_iff hm).2 ⟨hea, htop, rfl⟩
    exact absurd (h.symm.trans hsome) (Option.some_ne_none _).symm
  unfold pollIrq
  split_ifs with hpend
  · obtain ⟨hea, htop⟩ := (irqpend_iff m).1 hpend
    unfold handleIrq
    rw [irqSelect_of_not_outranks (.inr fun hout => hnot ⟨hea, htop, hout⟩)]
    rfl
  · rfl

/-- The look at the interrupts, in a state in which only mapped interrupts are requested. -/
theorem pollIrq_decides (hm : Vectored m) : Decides m m.pollIrq where
  accepted_iff := acceptedLevel_isSome_iff hm
  accepts l hl := by
    obtain ⟨-, ⟨htop, -⟩, rfl⟩ := (acceptedLevel_eq_some_iff hm).1 hl
    have hle := m.topRequests_le
    have hpoll := pollIrq_of_accepted hm hl
    generalize hs : m.setLevel (m.irqlevel ||| 1#32 <<< m.topRequests.2) = s at hpoll
    have hsp : s.sfr SP = m.sfr SP := by rw [← hs]; rfl
    have hread : ∀ a, s.readi a = m.readi a := fun a => by rw [← hs]; rfl
    have hsp₁ : (s.push (lo m.pc)).sfr SP = m.sfr SP + 1 := by rw [sp_push, hsp]
    have hnext : m.sfr SP + 1 + 1 = m.sfr SP + 2 := by rw [BitVec.add_assoc]; rfl
    have hcell : ∀ a, m.pollIrq.readi a = if a = m.sfr SP + 2 then hi m.pc
        else if a = m.sfr SP + 1 then lo m.pc else m.readi a := by
      intro a
      rw [hpoll, readi, setPc_ramsfr]
      refine (readi_push _ _ _).trans ?_
      rw [hsp₁, hnext, readi_push, hsp, hread]
    have hdiff : m.sfr SP + 1 ≠ m.sfr SP + 2 := by
      generalize m.sfr SP = sp
      revert sp
      decide
    refine ⟨m.topIrq, requested_topIrq htop, fun j k hreq => hreq.le_top.1, fun k => ?_, ?_, ?_, ?_,
      fun a ha₁ ha₂ => ?_, ?_⟩
    · have hlevel : m.pollIrq.irqlevel = m.irqlevel ||| 1#32 <<< m.topRequests.2 := by
        rw [hpoll, ← hs]
        rfl
      rw [hlevel, BitVec.getLsbD_or]
      refine congrArg (m.irqlevel.getLsbD k || ·) ?_
      rw [BitVec.getLsbD_shiftLeft, BitVec.getLsbD_one, Bool.eq_iff_iff]
      simp only [Bool.and_eq_true, Bool.not_eq_true', decide_eq_true_eq, decide_eq_false_iff_not]
      omega
    · rw [hpoll, sfr, setPc_ramsfr]
      refine (sp_push _ _).trans ?_
      rw [hsp₁, hnext]
    · rw [hcell, if_neg hdiff, if_pos rfl]
    · rw [hcell, if_pos rfl]
    · rw [hcell, if_neg ha₂, if_neg ha₁]
    · rw [hpoll, setPc_pc]
  declines hnone := by
    rw [pollIrq_of_declined hm hnone]
    exact ⟨rfl, rfl, rfl⟩
  irqpendl0 := by
    obtain ⟨l, hl | ⟨x, y, w, hl⟩⟩ := m.pollIrq_eq
    · rw [hl]
      rfl
    · rw [hl]
      rfl
  irqpendl1 := by
    obtain ⟨l, hl | ⟨x, y, w, hl⟩⟩ := m.pollIrq_eq
    · rw [hl]
      rfl
    · rw [hl]
      rfl
  sfr _ ha hsp := m.pollIrq_sfr ha hsp

/-- Moving the breakpoint makes no difference to the choice of an interrupt. -/
lemma Decides.setBreakpoint (h : Decides m m') (mask val : BitVec 32) :
    Decides m (m'.setBreakpoint mask val) where
  accepted_iff := h.accepted_iff
  accepts l hl := by
    obtain ⟨i, hi⟩ := h.accepts l hl
    exact ⟨i, hi.requested, hi.highest, hi.irqlevel, hi.sp, hi.low, hi.high, hi.iram, hi.pc⟩
  declines hnone := by
    obtain ⟨hlevel, hram, hpc⟩ := h.declines hnone
    exact ⟨hlevel, hram, hpc⟩
  irqpendl0 := h.irqpendl0
  irqpendl1 := h.irqpendl1
  sfr := h.sfr

/-! ## Runs -/

/-- The requests and the interrupts are the same. -/
structure SameRequests (m m' : Machine σ) : Prop where
  irqpendl0 : m'.irqpendl0 = m.irqpendl0
  irqpendl1 : m'.irqpendl1 = m.irqpendl1
  irqs : m'.irqs = m.irqs

/-- With the same requests the two vectors stand where they stood. -/
lemma Vectored.same (hm : Vectored m) (h : SameRequests m m') : Vectored m' := by
  constructor
  · intro i l hreq
    unfold Requested at hreq
    rw [h.irqpendl0, h.irqpendl1] at hreq
    rw [h.irqs]
    exact hm.mapped i l hreq
  · rw [h.irqs]
    exact hm.vec

/-- Recomputing one interrupt leaves the requests of the others alone. -/
lemma sfrNotifyIrq_pending_of_ne (m : Machine σ) {idx i : Fin 32} (hi : i ≠ idx) :
    (m.sfrNotifyIrq idx).irqpendl0.getLsbD i = m.irqpendl0.getLsbD i ∧
      (m.sfrNotifyIrq idx).irqpendl1.getLsbD i = m.irqpendl1.getLsbD i := by
  have hlt := i.isLt
  unfold sfrNotifyIrq
  dsimp only
  split_ifs <;> simp [getElem_irqMask, hi]

/-- An interrupt whose source is inactive is not requested once it is recomputed. -/
lemma sfrNotifyIrq_pending_self {i : Fin 32} (h : m.sfrBitval (m.irqs i).source = false) :
    (m.sfrNotifyIrq i).irqpendl0.getLsbD i = false ∧
      (m.sfrNotifyIrq i).irqpendl1.getLsbD i = false := by
  unfold sfrNotifyIrq
  dsimp only
  rw [h, Bool.and_false, if_neg Bool.false_ne_true]
  simp [getElem_irqMask]

/-- An interrupt without a source is never requested, whatever changes. -/
lemma sfrNotifyIrq_vectored (hm : Vectored m) (idx : Fin 32) : Vectored (m.sfrNotifyIrq idx) := by
  have hirqs : (m.sfrNotifyIrq idx).irqs = m.irqs := by
    obtain ⟨l0, l1, hl⟩ := m.sfrNotifyIrq_eq idx
    rw [hl]
    rfl
  refine ⟨fun i l hreq => ?_, by rw [hirqs]; exact hm.vec⟩
  rw [hirqs]
  by_cases hi : i = idx
  · subst hi
    by_contra hnone
    have hsource : m.sfrBitval (m.irqs i).source = false := by
      rw [Option.not_isSome_iff_eq_none.1 hnone]
      rfl
    obtain ⟨hbit0, hbit1⟩ := sfrNotifyIrq_pending_self hsource
    rcases hreq with ⟨-, hbit⟩ | ⟨-, hbit⟩
    · exact absurd (hbit1.symm.trans hbit) (by decide)
    · exact absurd (hbit0.symm.trans hbit) (by decide)
  · obtain ⟨hbit0, hbit1⟩ := m.sfrNotifyIrq_pending_of_ne hi
    refine hm.mapped i l ?_
    unfold Requested at hreq ⊢
    rwa [hbit0, hbit1] at hreq

/-- The listeners behind a register leave the vectors and their requests to the two sources. -/
lemma sfrNotify_vectored (hm : Vectored m) (a : Byte) : Vectored (m.sfrNotify a) := by
  unfold sfrNotify
  generalize m.ramsfrnotifiers a = idxs
  induction idxs generalizing m with
  | nil => exact hm
  | cons idx idxs ih => exact ih (sfrNotifyIrq_vectored hm idx)

/-- No access requests an interrupt that is not mapped. -/
lemma SfrEffects.vectored {ok : Byte → Byte → Prop} (h : SfrEffects ok m m') (hm : Vectored m) :
    Vectored m' := by
  refine h.invariant (fun m₁ m₂ hm₁ he => ?_) hm
  cases he with
  | outside h => exact hm₁.same ⟨h.irqpendl0, h.irqpendl1, h.irqs⟩
  | notify a => exact sfrNotify_vectored hm₁ a
  | _ => exact hm₁.same ⟨rfl, rfl, rfl⟩

/-- No operation of the CPU requests an interrupt other than the two. -/
lemma cpuExec_vectored {o : CpuOp} {r : o.Res} (hm : Vectored m)
    (h : cpuExec script o m = some (r, m')) : Vectored m' := by
  cases o with
  | readd a => exact (readd_effects (pokesOnly_true script) h).vectored hm
  | writed a v =>
    obtain ⟨m₁, hm₁, heq⟩ := Option.map_eq_some_iff.1 h
    obtain ⟨-, rfl⟩ := Prod.mk.inj heq
    exact (writed_effects (pokesOnly_true script) trivial hm₁).vectored hm
  | writex a v =>
    obtain ⟨-, rfl⟩ := Prod.mk.inj (Option.some.inj h)
    have hcore := m.sameCore_writex a v
    exact hm.same ⟨hcore.irqpendl0, hcore.irqpendl1, hcore.irqs⟩
  | _ =>
    obtain ⟨-, rfl⟩ := Prod.mk.inj (Option.some.inj h)
    exact hm.same ⟨rfl, rfl, rfl⟩

/-- No event requests an interrupt that is not mapped. -/
lemma happen_vectored {e : Event} (hm : Vectored m) (h : happen script e m = some m') :
    Vectored m' := by
  refine happen_invariant (I := Vectored) (fun o m r m' hm he => cpuExec_vectored hm he) ?_ ?_ hm h
  · intro m hm
    have hdecides := pollIrq_decides hm
    exact hm.same ⟨hdecides.irqpendl0, hdecides.irqpendl1, (pollIrq_setup m).irqs⟩
  · intro d m hm
    unfold uartListener
    split_ifs
    · exact hm.same ⟨rfl, rfl, rfl⟩
    · exact hm

/-- After `main` nothing is requested, and the vectors of the two interrupts are not zero. -/
lemma boot_vectored {heap : ℕ → Buffer} {file : List Byte} (h : boot script heap file = some m) :
    Vectored m := by
  obtain ⟨m₁, y, hstart, hload, rfl⟩ := boot_eq_some h
  refine (runLua_effects (pokesOnly_true script) (all_pokesOnly_true _) hload).vectored ?_
  constructor
  · intro i l hreq
    unfold Requested at hreq
    rw [hstart.irqpendl0, hstart.irqpendl1] at hreq
    rcases hreq with ⟨-, hbit⟩ | ⟨-, hbit⟩
    · exact absurd hbit (by simp)
    · exact absurd hbit (by simp)
  · rw [hstart.irqs]
    decide

/-- In every reachable state `nextop` accepts an interrupt exactly if it should, enters its service
routine then, and changes nothing otherwise. -/
theorem run_nextop_decides {heap : ℕ → Buffer} {file : List Byte}
    (hboot : boot script heap file = some m₀) {tr : List (Machine σ × Event)}
    (hrun : Run (Happens script) m₀ tr m) :
    ∃ m', nextop script m = some (m'.fetch 0, m') ∧ Decides m m' := by
  have hsetup : SameSetup m₀ m := (hrun.invariant (I := SameSetup m₀)
    (fun _ _ _ hs he => hs.trans (happen_setup he)) (.refl m₀)).2
  have hvec : Vectored m := (hrun.invariant (I := Vectored) (fun _ _ _ hs he =>
    happen_vectored hs he)
    (boot_vectored hboot)).2
  obtain ⟨mask, val, hnext⟩ := nextop_eq script (hsetup.ramsfrtrap.trans (boot_setup hboot).1)
  exact ⟨m.pollIrq.setBreakpoint mask val, hnext, (pollIrq_decides hvec).setBreakpoint mask val⟩

/-- The theorem where the UART's interrupt is enabled and a byte has been sent. -/
theorem run_nextop_decides_sent : ∃ m m' : Machine Unit, Accepts m m' 4 0 := by
  have heval : ((boot noHooks (fun _ => default) []).bind fun m₀ =>
      Run.follow (happen noHooks) [.poke IE 0x90, .poke SCON 0x02] m₀).map (fun m =>
        (m.acceptedLevel, m.irqpendl0, m.irqpendl1)) = some (some 0, irqMask 4, 0) := by
    decide +kernel
  obtain ⟨m, hm, hval⟩ := Option.map_eq_some_iff.1 heval
  obtain ⟨m₀, hboot, hfollow⟩ := Option.bind_eq_some_iff.1 hm
  obtain ⟨tr, -, hrun⟩ := Run.of_follow hfollow
  obtain ⟨m', -, hdecides⟩ := run_nextop_decides hboot hrun
  simp only [Prod.mk.injEq] at hval
  obtain ⟨hlevel, h0, h1⟩ := hval
  obtain ⟨i, hi⟩ := hdecides.accepts 0 hlevel
  have hreq := hi.requested
  unfold Requested at hreq
  rw [h0, h1] at hreq
  have hbits : ∀ i : Fin 32, (0 = 1 ∧ (0 : BitVec 32).getLsbD i = true ∨
      0 = 0 ∧ (irqMask 4).getLsbD i = true) → i = 4 := by
    decide
  exact ⟨m, m', hbits i hreq ▸ hi⟩

end Machine

end Emu51

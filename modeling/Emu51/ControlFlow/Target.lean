import Emu51.Machine.System

/-!
# The target of `AJMP` and `ACALL`

Both instructions carry eleven bits of their target; the other five are to be those of the address
of the following instruction. `ACALL` takes them from there, but `AJMP` takes them from its own
address.
-/

namespace Emu51

variable {σ : Type}

/-- The address field of an opcode `aaa----1` and its second byte. -/
structure Encodes (opcode : Byte) (field : BitVec 11) (m : Machine σ) : Prop where
  first : m.fetch 0 = (field.extractLsb' 8 3).setWidth 8 <<< 5 ||| opcode
  second : m.fetch 1 = field.extractLsb' 0 8

/-- The low bits of `w` are the field, the others those of the instruction after the two bytes at
`pc`. -/
structure IsTarget (pc : Word) (field : BitVec 11) (w : Word) : Prop where
  low : w.extractLsb' 0 11 = field
  page : w >>> 11 = (pc + 2) >>> 11

/-! ## Pages -/

/-- The mask `0x7ff` has the low 11 bits, an address within a page. -/
lemma getLsbD_pageMask (i : ℕ) : (0x7ff : Word).getLsbD i = decide (i < 11) := by
  by_cases hi : i < 16
  · have hall : ∀ j : Fin 16, (0x7ff : Word).getLsbD j = decide (j.val < 11) := by decide
    exact hall ⟨i, hi⟩
  · rw [BitVec.getLsbD_of_ge _ _ (by omega), eq_comm, decide_eq_false_iff_not]
    omega

/-- An address put together from a page and a field. -/
lemma page_or_field (w : Word) (field : BitVec 11) :
    ((w &&& ~~~(0x7ff : Word)) ||| field.setWidth 16).extractLsb' 0 11 = field ∧
      ((w &&& ~~~(0x7ff : Word)) ||| field.setWidth 16) >>> 11 = w >>> 11 := by
  constructor
  · apply BitVec.eq_of_getLsbD_eq
    intro i hi
    simp only [BitVec.getLsbD_extractLsb', BitVec.getLsbD_or, BitVec.getLsbD_and,
      BitVec.getLsbD_not, BitVec.getLsbD_setWidth, getLsbD_pageMask]
    have hi' : i < 16 := by omega
    simp [hi, hi']
  · apply BitVec.eq_of_getLsbD_eq
    intro i hi
    simp only [BitVec.getLsbD_ushiftRight, BitVec.getLsbD_or, BitVec.getLsbD_and,
      BitVec.getLsbD_not, BitVec.getLsbD_setWidth, getLsbD_pageMask]
    by_cases hi' : 11 + i < 16
    · simp [hi']
    · have hw : w.getLsbD (11 + i) = false := BitVec.getLsbD_of_ge _ _ (by omega)
      simp [hi', hw]

/-- The field as `AJMP` puts it together from its opcode and its second byte. -/
lemma ajmp_field (field : BitVec 11) : ((field.extractLsb' 0 8).setWidth 16 : Word) |||
    (((((field.extractLsb' 8 3).setWidth 8 <<< 5 ||| 0x01 : Byte).setWidth 16 &&& 0xe0) <<< 3)) =
      field.setWidth 16 := by
  revert field
  decide +kernel

/-- The field as `ACALL` puts it together from its opcode and its second byte. -/
lemma acall_field (field : BitVec 11) : (((field.extractLsb' 0 8).setWidth 16 : Word) |||
    (((field.extractLsb' 8 3).setWidth 8 <<< 5 ||| 0x11 : Byte).setWidth 16 <<< 3 &&& 0x700)) &&&
      0x7ff = field.setWidth 16 := by
  revert field
  decide +kernel

/-- The next instruction is in the same page unless the two bytes are at the end of it. -/
lemma page_add_two_iff (pc : Word) : pc >>> 11 = (pc + 2) >>> 11 ↔ (pc &&& 0x7ff) < 0x7fe := by
  have hmask : (pc &&& 0x7ff).toNat = pc.toNat % 2 ^ 11 := by
    rw [BitVec.toNat_and]
    exact Nat.and_two_pow_sub_one_eq_mod pc.toNat 11
  have hlt := pc.isLt
  rw [BitVec.lt_def, hmask, ← BitVec.toNat_inj, BitVec.toNat_ushiftRight, BitVec.toNat_ushiftRight,
    BitVec.toNat_add, Nat.shiftRight_eq_div_pow, Nat.shiftRight_eq_div_pow]
  change pc.toNat / 2 ^ 11 = (pc.toNat + 2) % 2 ^ 16 / 2 ^ 11 ↔ pc.toNat % 2 ^ 11 < 0x7fe
  omega

/-! ## Both instructions -/

/-- All eight opcodes of `AJMP`, one for each value of its upper address bits, have the one record.
-/
lemma insnmap_ajmp (field : BitVec 11) :
    insnmap ((field.extractLsb' 8 3).setWidth 8 <<< 5 ||| 0x01) = .ajmp := by
  have hall : ∀ x : BitVec 3, insnmap (x.setWidth 8 <<< 5 ||| 0x01) = .ajmp := by decide +kernel
  exact hall _

/-- All eight opcodes of `ACALL`, one for each value of its upper address bits, have the one record.
-/
lemma insnmap_acall (field : BitVec 11) :
    insnmap ((field.extractLsb' 8 3).setWidth 8 <<< 5 ||| 0x11) = .acall := by
  have hall : ∀ x : BitVec 3, insnmap (x.setWidth 8 <<< 5 ||| 0x11) = .acall := by decide +kernel
  exact hall _

namespace Machine

variable {script : Script σ} {m m₁ m₂ : Machine σ} {field : BitVec 11}

/-- `AJMP` stays in the page of its own first byte, not in that of the next instruction. -/
lemma exec_ajmp (script : Script σ) (h : Encodes 0x01 field m) :
    m.exec script = some (m.setPc ((m.pc &&& ~~~(0x7ff : Word)) ||| field.setWidth 16)) := by
  unfold exec dispatch
  rw [h.first, insn, insnmap_ajmp, ← ajmp_field field, ← h.second]
  rfl

/-- `ACALL` goes to the page of the next instruction. -/
lemma exec_acall (script : Script σ) (h : Encodes 0x11 field m) :
    (m.exec script).map pc =
      some (((m.pc + 2) &&& ~~~(0x7ff : Word)) ||| field.setWidth 16) := by
  unfold exec dispatch
  rw [h.first, insn, insnmap_acall, ← acall_field field, ← h.first, ← h.second, BitVec.or_comm]
  rfl

/-- The two instructions with the same field at the same place go to the same address, the one they
should, exactly if they do not lie at the end of a page. -/
theorem exec_ajmp_acall_iff (script : Script σ) (h₁ : Encodes 0x01 field m₁)
    (h₂ : Encodes 0x11 field m₂) (hpc : m₁.pc = m₂.pc) : ∃ w₁ w₂,
      (m₁.exec script).map pc = some w₁ ∧ (m₂.exec script).map pc = some w₂ ∧
      (w₁ = w₂ ∧ IsTarget m₁.pc field w₁ ↔ (m₁.pc &&& 0x7ff) < 0x7fe) := by
  obtain ⟨hlow₁, hpage₁⟩ := page_or_field m₁.pc field
  obtain ⟨hlow₂, hpage₂⟩ := page_or_field (m₁.pc + 2) field
  refine ⟨_, _, by rw [exec_ajmp script h₁, Option.map_some, setPc_pc],
    by rw [exec_acall script h₂, ← hpc], ?_⟩
  rw [← page_add_two_iff]
  constructor
  · rintro ⟨-, -, hpage⟩
    exact hpage₁.symm.trans hpage
  · intro hsame
    refine ⟨?_, hlow₁, hpage₁.trans hsame⟩
    have hpages : m₁.pc &&& ~~~(0x7ff : Word) = (m₁.pc + 2) &&& ~~~(0x7ff : Word) := by
      apply BitVec.eq_of_getLsbD_eq
      intro i hi
      rw [BitVec.getLsbD_and, BitVec.getLsbD_and, BitVec.getLsbD_not, getLsbD_pageMask]
      by_cases hi' : i < 11
      · simp [hi']
      · have hbit := congrArg (fun w : Word => w.getLsbD (i - 11)) hsame
        simp only [BitVec.getLsbD_ushiftRight] at hbit
        rw [show 11 + (i - 11) = i by omega] at hbit
        rw [hbit]
    rw [hpages]

/-- A memory of zeros with one opcode at the end of the first page, and `pc` there. -/
def atPageEnd (op : Byte) : Machine Unit :=
  { running [] with
    heap := fun _ => { name := "rom", size := 0x10000, mem := fun i => if i = 0x7fe then op else 0 }
    pc := 0x7fe }

/-- The theorem at the end of the first page. -/
theorem exec_ajmp_acall_iff_zero : ∃ w₁ w₂,
    ((atPageEnd 0x01).exec noHooks).map pc = some w₁ ∧
      ((atPageEnd 0x11).exec noHooks).map pc = some w₂ ∧
      (w₁ = w₂ ∧ IsTarget (atPageEnd 0x01).pc 0 w₁ ↔ ((atPageEnd 0x01).pc &&& 0x7ff) < 0x7fe) :=
  exec_ajmp_acall_iff noHooks ⟨by decide +kernel, by decide +kernel⟩
    ⟨by decide +kernel, by decide +kernel⟩ rfl

/-- At the end of the first page `AJMP` goes to the beginning of it, and `ACALL` to the next
page. -/
theorem ajmp_misses_page : ¬∀ (m₁ m₂ : Machine Unit) (field : BitVec 11), Encodes 0x01 field m₁ →
    Encodes 0x11 field m₂ → m₁.pc = m₂.pc →
    (m₁.exec noHooks).map pc = (m₂.exec noHooks).map pc := by
  intro hall
  have hsame := hall (atPageEnd 0x01) (atPageEnd 0x11) 0 ⟨by decide +kernel, by decide +kernel⟩
    ⟨by decide +kernel, by decide +kernel⟩ rfl
  exact absurd hsame (by decide +kernel)

end Machine

end Emu51

import Emu51.Machine.State

/-!
# Interrupts

The two pending masks `irqpendl0` and `irqpendl1` are recomputed for one interrupt at a time by
`sfr_notify_irq`, which is hung on every special function register that one of the interrupt's
bits lives in. `handle_irq` picks a pending request, and `irqlevel` records the levels in service.
-/

namespace Emu51

namespace Machine

variable {σ : Type}

/-! ## Pending requests -/

/-- `sfr_bitval`. -/
def sfrBitval (m : Machine σ) : Option SfrBit → Bool
  | none => false
  | some b => ((m.sfr b.data ^^^ b.xorval) &&& b.mask) != 0

/-- The bit `1 << idx` of a pending mask. -/
def irqMask (idx : Fin 32) : BitVec 32 := 1#32 <<< idx.val

/-- `sfr_notify_irq`: recompute the pending bits of one interrupt. -/
def sfrNotifyIrq (m : Machine σ) (idx : Fin 32) : Machine σ :=
  let mask := irqMask idx
  let enable := m.sfrBitval (m.irqs idx).enable
  let source := m.sfrBitval (m.irqs idx).source
  let pending := enable && source
  let l0 := m.irqpendl0 &&& ~~~mask
  let l1 := m.irqpendl1 &&& ~~~mask
  if pending then
    if m.sfrBitval (m.irqs idx).prio then m.setPending l0 (l1 ||| mask)
    else m.setPending (l0 ||| mask) l1
  else m.setPending l0 l1

/-- `sfr_notify`, called when `ramsfrnotify[addr]` is set; without notifiers nothing happens. -/
def sfrNotify (m : Machine σ) (addr : Byte) : Machine σ :=
  (m.ramsfrnotifiers addr).foldl sfrNotifyIrq m

/-- A notifier changes nothing but the two masks of pending requests. -/
lemma sfrNotifyIrq_eq (m : Machine σ) (idx : Fin 32) :
    ∃ l0 l1, m.sfrNotifyIrq idx = m.setPending l0 l1 := by
  unfold sfrNotifyIrq
  dsimp only
  split_ifs
  · exact ⟨_, _, rfl⟩
  · exact ⟨_, _, rfl⟩
  · exact ⟨_, _, rfl⟩

/-- Notification of all listeners changes nothing but the two masks of pending requests. -/
lemma sfrNotify_eq (m : Machine σ) (addr : Byte) :
    ∃ l0 l1, m.sfrNotify addr = m.setPending l0 l1 := by
  unfold sfrNotify
  generalize m.ramsfrnotifiers addr = idxs
  induction idxs generalizing m with
  | nil => exact ⟨m.irqpendl0, m.irqpendl1, rfl⟩
  | cons idx idxs ih =>
    obtain ⟨k0, k1, hk⟩ := m.sfrNotifyIrq_eq idx
    rw [List.foldl_cons, hk]
    obtain ⟨l0, l1, hl⟩ := ih (m.setPending k0 k1)
    exact ⟨l0, l1, by rw [hl]; rfl⟩

/-- `watch_sfr`: hang the notifier of an interrupt on a register. There are eight slots; the
program exits when they are used up. -/
def watchSfr (m : Machine σ) (sfr : Byte) (idx : Fin 32) : Option (Machine σ) :=
  if 8 ≤ (m.ramsfrnotifiers sfr).length then none
  else some { m with
    ramsfrnotifiers := Function.update m.ramsfrnotifiers sfr (m.ramsfrnotifiers sfr ++ [idx]) }

/-- `watch_sfr` on the register of a bit, if there is one. -/
def watchBit (m : Machine σ) (bit : Option SfrBit) (idx : Fin 32) : Option (Machine σ) :=
  match bit with
  | none => some m
  | some b => m.watchSfr b.data idx

/-- `map_irq`; the program exits when the interrupt is mapped already. -/
def mapIrq (m : Machine σ) (idx : Fin 32) (irq : IrqData) : Option (Machine σ) :=
  if (m.irqs idx).source.isSome then none
  else do
    let m ← some { m with irqs := Function.update m.irqs idx irq }
    let m ← m.watchBit irq.enable idx
    let m ← m.watchBit irq.source idx
    m.watchBit irq.prio idx

/-! ## Acceptance and return -/

/-- The mask cleared by the statement at `case n` of `irqlevel_reti`, for `n ≠ 0`. -/
def retiMask (n : ℕ) : BitVec 32 :=
  if 8 ≤ n then 8 else if 4 ≤ n then 4 else if 2 ≤ n then 2 else 1

/-- `irqlevel_reti` entered at `case n`: no case breaks, so control falls through all the cases
below it, down to the assignment at `case 0`. -/
def retiFrom : ℕ → BitVec 32 → BitVec 32
  | 0, _ => 0
  | n + 1, level => retiFrom n (level &&& ~~~retiMask (n + 1))

/-- `irqlevel_reti`. -/
def irqlevelReti (m : Machine σ) : Machine σ :=
  m.setLevel (retiFrom (m.irqlevel &&& 15).toNat m.irqlevel)

/-- `__builtin_clz` of a nonzero mask. -/
def builtinClz (mask : BitVec 32) : ℕ := 31 - mask.toNat.log2

/-- `irq_vec`: the vector to go to, or `-1`. The level is taken into service here. -/
def irqVec (m : Machine σ) (mask : BitVec 32) (level : ℕ) : ℤ × Machine σ :=
  let lmask := 1#32 <<< level
  if mask = 0 then (-1, m)
  else if m.irqlevel ≥ lmask then (-1, m)
  else
    let bit := 31 - builtinClz mask
    ((m.irqs (Fin.ofNat 32 bit)).vec.toNat, m.setLevel (m.irqlevel ||| lmask))

/-- The choice `handle_irq` makes between the two pending masks. -/
def irqSelect (m : Machine σ) : ℤ × Machine σ :=
  if m.irqpendl1 ≠ 0 then m.irqVec m.irqpendl1 1
  else if m.irqpendl0 ≠ 0 then m.irqVec m.irqpendl0 0
  else (-1, m)

/-- `handle_irq`. -/
def handleIrq (m : Machine σ) : Machine σ :=
  let vec := m.irqSelect.1
  let m' := m.irqSelect.2
  if vec ≤ 0 then m'
  else ((m'.push (lo m'.pc)).push (hi m'.pc)).setPc (BitVec.ofInt 16 vec)

/-- `EA`: interrupts are enabled globally. -/
def ea (m : Machine σ) : Bool := (m.sfr IE &&& 0x80) != 0

/-- The test of `nextop` in front of `handle_irq`. -/
def irqpend (m : Machine σ) : Bool := (m.irqpendl0 ||| m.irqpendl1) != 0 && m.ea

/-- `nextop` up to the opcode fetch: take an interrupt if there is one to take. -/
def pollIrq (m : Machine σ) : Machine σ := if m.irqpend then m.handleIrq else m

/-- Choosing a request changes at most the levels in service. -/
lemma irqSelect_eq (m : Machine σ) : ∃ l, m.irqSelect.2 = m.setLevel l := by
  have hvec : ∀ (mask : BitVec 32) (level : ℕ), ∃ l, (m.irqVec mask level).2 = m.setLevel l := by
    intro mask level
    unfold irqVec
    dsimp only
    split_ifs
    · exact ⟨m.irqlevel, rfl⟩
    · exact ⟨m.irqlevel, rfl⟩
    · exact ⟨_, rfl⟩
  unfold irqSelect
  split_ifs
  · exact hvec _ _
  · exact hvec _ _
  · exact ⟨m.irqlevel, rfl⟩

/-- What taking an interrupt can do: change the levels in service, and then push two bytes and
jump. -/
lemma pollIrq_eq (m : Machine σ) : ∃ l, m.pollIrq = m.setLevel l ∨
    ∃ x y w, m.pollIrq = (((m.setLevel l).push x).push y).setPc w := by
  unfold pollIrq
  split_ifs
  · obtain ⟨l, hl⟩ := m.irqSelect_eq
    refine ⟨l, ?_⟩
    unfold handleIrq
    rw [hl]
    dsimp only
    split_ifs
    · exact .inl rfl
    · exact .inr ⟨_, _, _, rfl⟩
  · exact ⟨m.irqlevel, .inl rfl⟩

/-- Pushing leaves the special function registers other than `SP` alone. -/
lemma push_sfr (m : Machine σ) (x : Byte) {a : Byte} (ha : 0x80 ≤ a) (hsp : a ≠ SP) :
    (m.push x).sfr a = m.sfr a := by
  rw [push, sfr, writei, setCell_apply, if_neg (iramCell_ne_sfr _ ha).symm]
  exact m.sfr_setSfr_of_ne _ hsp

/-- After a push, internal memory has the byte above the old top and is otherwise as it was. -/
lemma readi_push (m : Machine σ) (x a : Byte) :
    (m.push x).readi a = if a = m.sfr SP + 1 then x else m.readi a := by
  have hcell : iramCell a = iramCell (m.sfr SP + 1) ↔ a = m.sfr SP + 1 := iramCell_inj
  rw [push, readi, writei, setCell_apply, setCell_apply, if_neg (iramCell_ne_sfr a (by decide))]
  exact if_congr hcell rfl rfl

/-- After a push `SP` is one further up, modulo 256. -/
lemma sp_push (m : Machine σ) (x : Byte) : (m.push x).sfr SP = m.sfr SP + 1 := by
  rw [push, sfr, writei, setCell_apply, if_neg (iramCell_ne_sfr _ (by decide)).symm]
  exact sfr_setSfr_self _ _ _

/-- Taking an interrupt leaves the special function registers other than `SP` alone. -/
lemma pollIrq_sfr (m : Machine σ) {a : Byte} (ha : 0x80 ≤ a) (hsp : a ≠ SP) :
    m.pollIrq.sfr a = m.sfr a := by
  obtain ⟨l, hl | ⟨x, y, w, hl⟩⟩ := m.pollIrq_eq
  · rw [hl]
    rfl
  · rw [hl]
    exact (push_sfr _ y ha hsp).trans (push_sfr _ x ha hsp)

end Machine

end Emu51

import Emu51.Machine.Step

/-!
# What the code of a record may contain

Six kinds of operations matter to what an instruction leaves alone: an assignment to `pc`, a store
to a register it names, an assignment to `PSW` or to `ACC`, `irqlevel_reti`, and a change of the
breakpoint. `Label.may` says which of them a record may contain. It is shown once for all records
(`record_profile`), together with the order of the reads of `PSW`, and what no instruction but a few
does follows from it.
-/

namespace Emu51

/-- The kinds of operations. -/
inductive OpKind where
  | plain | jump | name | flags | acc | reti | breakpoint
  deriving DecidableEq

/-- The kind of an operation. -/
def CpuOp.kind : CpuOp → OpKind
  | .setPc _ => .jump
  | .writed _ _ => .name
  | .set r _ => if r = .psw then .flags else if r = .acc then .acc else .plain
  | .irqlevelReti => .reti
  | .setBreakpoint _ _ => .breakpoint
  | .fetch _ | .readc _ | .readx _ | .writex _ _ | .xramP2addr | .readd _ | .readi _ => .plain
  | .writei _ _ | .getRx _ | .setRx _ _ | .get _ | .getDptr | .setDph _ | .setDpl _ => .plain
  | .getPc => .plain

/-- The operation may store in `PSW` or `ACC`. -/
def CpuOp.movesParity : CpuOp → Bool
  | .writed _ _ | .set .acc _ | .set .psw _ => true
  | _ => false

namespace Label

/-- The records whose code assigns to `pc` itself. -/
def jumps : Label → Bool
  | ljmp | sjmp | lcall | acall | ajmp | ret | reti | jmpAd => true
  | jbc | jb | jnb | jc | jnc | jz | jnz => true
  | cjneA | cjneB5 | cjneB6 | cjneB7 | cjneR | djnzI | djnzR => true
  | _ => false

/-- The records whose code has neither `writed` nor an assignment to `PSW`. -/
def quiet : Label → Bool
  | nop | undef | ljmp | incA | decA | sjmp | lcall | acall | jb | jnb | jc | jnc | jz | jnz => true
  | ret | reti | ajmp | incR | decR | rrA | rlA | jmpAd => true
  | mov74 | mov76 | mov77 | movRi | movc83 | mov90 | movA6 | movA7 | movcAd | incD | movRd => true
  | pushD | swapA | xchC6 | xchC7 | xchAr | djnzR => true
  | movxE0 | movxE2 | movxE3 | clrA | movE5 | movE6 | movE7 | movAr => true
  | movxF0 | movxF2 | movxF3 | cplA | movF6 | movF7 | movRa => true
  | _ => false

/-- The records whose code has `writed`: they store to a register they name. -/
def names : Label → Bool
  | incIram | decIram | incAtr0 | incAtr1 | decAtr0 | decAtr1 | gen2Ia _ | gen2Id _ => true
  | mov75 | mov85 | mov86 | mov87 | movDr | movF5 | popD | xchAd | xchdAtr0 | xchdAtr1 => true
  | djnzI | jbc | clrB | setB | cplBit | movBitC => true
  | _ => false

/-- The records whose code assigns to `ACC`. -/
def setsAcc : Label → Bool
  | genAi _ | genAd _ | genR0 _ | genR1 _ | genAr _ | incA | decA | rrA | rlA | swapA => true
  | clrA | cplA | rrcA | rlcA | daA | mul | div | mov74 | movE5 | movE6 | movE7 | movAr => true
  | movc83 | movcAd | movxE0 | movxE2 | movxE3 | xchAd | xchC6 | xchC7 | xchAr => true
  | xchdAtr0 | xchdAtr1 => true
  | _ => false

/-- The kinds of operations a record may contain. -/
def may (l : Label) : OpKind → Bool
  | .plain => true
  | .jump => l.jumps
  | .name => l.names
  | .flags => !l.quiet
  | .acc => l.setsAcc
  | .reti => l = .reti
  | .breakpoint => false

@[simp] lemma may_plain (l : Label) : l.may .plain = true := rfl

/-- A quiet record names no register to store to. -/
lemma names_of_quiet {l : Label} (h : l.quiet = true) : l.names = false := by
  cases l <;> first | rfl | exact absurd h Bool.false_ne_true

end Label

open Ops Cpu in
/-- The records contain no others, and apart from `MOV C, bit`, no record reads `PSW` after it may
have changed it or the accumulator. -/
theorem record_profile (l : Label) (op : Byte) :
    ((l.record op).code.All fun o => l.may o.kind = true) ∧
      (l ≠ .movCBit → (l.record op).code.NotAfter CpuOp.movesParity (· = .readd PSW)) := by
  -- the records of `genops.py` end in an operation of the arithmetic unit and a store
  have halu : ∀ {l : Label}, l.quiet = false → ∀ o x y,
      (aluOp o x y).All fun o => l.may o.kind = true := by
    intro l hl o x y
    refine aluOp_all (Q := fun o => l.may o.kind = true) rfl (fun v => ?_) o x y
    change (!l.quiet) = true
    rw [hl]
    rfl
  have hreads : ∀ o x y, (aluOp o x y).All fun o => ¬o = .readd PSW :=
    aluOp_all CpuOp.noConfusion fun _ => CpuOp.noConfusion
  have hacc : ∀ {l : Label}, l.quiet = false → l.setsAcc = true → ∀ o x y,
      (aluOp o x y >>= fun res => set .acc res).All fun o => l.may o.kind = true :=
    fun hl ha o x y => (halu hl o x y).bind fun _ => ⟨ha, fun _ => trivial⟩
  have hdirect : ∀ {l : Label}, l.quiet = false → l.names = true → ∀ o x y a,
      (aluOp o x y >>= fun res => writed a res).All fun o => l.may o.kind = true :=
    fun hl hn o x y a => (halu hl o x y).bind fun _ => ⟨hn, fun _ => trivial⟩
  have haccAfter : ∀ o x y, (aluOp o x y >>= fun res => set .acc res).NotAfter CpuOp.movesParity
      (· = .readd PSW) := fun o x y =>
    Prog.All.notAfter_right ((hreads o x y).bind fun _ => ⟨CpuOp.noConfusion, fun _ => trivial⟩)
  have hdirectAfter : ∀ o x y a, (aluOp o x y >>= fun res => writed a res).NotAfter
      CpuOp.movesParity (· = .readd PSW) := fun o x y a =>
    Prog.All.notAfter_right ((hreads o x y).bind fun _ => ⟨CpuOp.noConfusion, fun _ => trivial⟩)
  cases l with
  | undef =>
    exact ⟨opcodeA5_all (fun _ => rfl) fun _ => rfl, fun _ =>
      Prog.All.notAfter (opcodeA5_all (fun _ => rfl) fun _ => rfl)⟩
  | genAi o =>
    exact ⟨⟨rfl, fun _ => ⟨rfl, fun _ => hacc rfl rfl o _ _⟩⟩, fun _ _ _ => haccAfter o _ _⟩
  | genAd o =>
    exact ⟨⟨rfl, fun _ => ⟨rfl, fun _ => ⟨rfl, fun _ => hacc rfl rfl o _ _⟩⟩⟩,
      fun _ _ _ _ => haccAfter o _ _⟩
  | genR0 o =>
    exact ⟨⟨rfl, fun _ => ⟨rfl, fun _ => ⟨rfl, fun _ => hacc rfl rfl o _ _⟩⟩⟩,
      fun _ _ _ _ => haccAfter o _ _⟩
  | genR1 o =>
    exact ⟨⟨rfl, fun _ => ⟨rfl, fun _ => ⟨rfl, fun _ => hacc rfl rfl o _ _⟩⟩⟩,
      fun _ _ _ _ => haccAfter o _ _⟩
  | genAr o =>
    exact ⟨⟨rfl, fun _ => ⟨rfl, fun _ => hacc rfl rfl o _ _⟩⟩, fun _ _ _ => haccAfter o _ _⟩
  | gen2Ia o =>
    exact ⟨⟨rfl, fun _ => ⟨rfl, fun _ => ⟨rfl, fun _ => hdirect rfl rfl o _ _ _⟩⟩⟩,
      fun _ _ _ _ => hdirectAfter o _ _ _⟩
  | gen2Id o =>
    exact ⟨⟨rfl, fun _ => ⟨rfl, fun _ => ⟨rfl, fun _ => hdirect rfl rfl o _ _ _⟩⟩⟩,
      fun _ _ _ _ => hdirectAfter o _ _ _⟩
  | _ =>
    simp +decide [Label.record, CpuOp.kind, CpuOp.movesParity, Prog.all_ite, Prog.notAfter_ite,
      Prog.map_eq_bind, fetch, readc, readx,
      writex, xramP2addr, readd, writed, readi, writei, getRx, setRx, Cpu.get, Cpu.set, getDptr,
      setDph, setDpl, getPc, setPc, irqlevelReti, advance, branch, push, pop, readx8, writex8, alu,
      readb, writeb, Ops.nop, ljmp, sjmp, pushPc, lcall, acall, ajmp, popPc, ret, reti, jmpAd, jbc,
      jb, jnb, branchOn, jc, jnc, jz, jnz, accRec, incA, decA, rrA, rlA, swapA, clrA, cplA, rrcA,
      rlcA, daA, mul, div, modIram, incIram, decIram, modR, incR, decR, modAtr, incAtr0, incAtr1,
      decAtr0, decAtr1, incD, toAcc, toIram, direct1, indirect, mov74, movE5, movE6, movE7, movAr,
      toAtr, mov75, mov76, mov77, mov85, mov86, mov87, movDr, movA6, movA7, movF5, movF6, movF7,
      toR, movRi, movRd, movRa, mov90, movc83, movcAd, movxFrom, movxTo, movxE0, movxE2, movxE3,
      movxF0, movxF2, movxF3, pushD, popD, xchAtr, xchAd, xchC6, xchC7, xchAr, xchdAtr, xchdAtr0,
      xchdAtr1, cjne, cjneA, cjneB5, cjneB6, cjneB7, cjneR, djnzI, djnzR, pswRec, clrC, setbC, cplC,
      clrB, setB, cplBit, movBitC, setCarry, movCBit, anlC, orlC, anlCbit, anlCnbit, orlCbit,
      orlCnbit]

/-- The first half of the profile: a record has operations of the kinds its label may have. -/
lemma record_may (l : Label) (op : Byte) : (l.record op).code.All fun o => l.may o.kind = true :=
  (record_profile l op).1

end Emu51

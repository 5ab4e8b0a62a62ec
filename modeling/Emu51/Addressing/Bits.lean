import Emu51.Arithmetic.Flags
import Emu51.Chip.Hooks

/-!
# Single bits

The bit instructions name one of 256 bits, in the internal RAM or in a special function register.
The records decode the name in three ways: through `readb` and `writeb`, by a look at the table
`bitaddr`, and, for `C`, by a mask. They agree: each instruction replaces one bit and nothing else.
The exception is `MOV C,bit`, which clears the carry before it reads the bit (`exec_bit_iff`).
-/

namespace Emu51

open Cpu

variable {σ : Type}

/-- The bit address of the carry. -/
@[simp] abbrev CY : Byte := 0xd7

/-- The number of a bit in its byte. -/
def bitIndex (bit : Byte) : ℕ := (bit &&& 7).toNat

/-- The script's hook of a register, if it has one, returns its data unchanged and leaves the
registers to the emulator. -/
def Script.PassesData (script : Script σ) (a : Byte) : Prop :=
  ∀ g hook, script.ramdHooks g a = some hook → ∀ w d (m : Machine σ), ∃ m',
    (hook w d).run (Machine.luaExec (Machine.busAt script script.ccalls)) m = some (d, m') ∧
      Machine.SameCore m m'

namespace Machine

/-- A bit of the internal RAM or of a special function register. -/
def bit (m : Machine σ) (b : Byte) : Bool := (m.sfr (bitaddr b)).getLsbD (bitIndex b)

/-- The CPU differs at most in `ramsfr`, the pending interrupts and `pc`. -/
def SameButCells (m m' : Machine σ) : Prop :=
  SameCore { m with ramsfr := m'.ramsfr, irqpendl0 := m'.irqpendl0, irqpendl1 := m'.irqpendl1,
                    pc := m'.pc } m'

/-- The bit `b` is `v` afterwards, and all other bits and bytes and the rest of the CPU are as
before. -/
structure SetsBit (b : Byte) (v : Bool) (m m' : Machine σ) : Prop where
  bits : ∀ b', m'.bit b' = if b' = b then v else m.bit b'
  cells : ∀ c, c ≠ dataCell (bitaddr b) → m'.ramsfr c = m.ramsfr c
  rest : SameButCells m m'

end Machine

/-! ## Bits of a byte -/

/-- The index of a bit within its byte is below 8. -/
lemma bitIndex_lt (b : Byte) : bitIndex b < 8 := by
  revert b
  decide

/-- A bit is known by its byte and its number. -/
theorem bit_inj {b b' : Byte} (h : bitaddr b = bitaddr b') (hi : bitIndex b = bitIndex b') :
    b = b' := by
  have hbyte : ∀ i j : Fin 32, bitaddrTable.getD i.val 0 = bitaddrTable.getD j.val 0 → i = j := by
    decide
  have hlt : ∀ c : Byte, (c >>> 3).toNat < 32 := by decide
  have hrow : (b >>> 3).toNat = (b' >>> 3).toNat :=
    Fin.mk.inj_iff.1 (hbyte ⟨_, hlt b⟩ ⟨_, hlt b'⟩ h)
  have hsplit : ∀ c : Byte, c.toNat = 8 * (c >>> 3).toNat + bitIndex c := by decide
  apply BitVec.eq_of_toNat_eq
  rw [hsplit b, hsplit b', hrow, hi]

/-- The mask `1 << (b & 7)` has one bit, the one at the index of `b`. -/
lemma getLsbD_bitMask (b : Byte) {j : ℕ} (hj : j < 8) :
    (bitMask b).getLsbD j = decide (j = bitIndex b) := by
  have hbits : ∀ k < 8, ∀ j < 8, ((1 : Byte) <<< k).getLsbD j = decide (j = k) := by decide
  exact hbits _ (bitIndex_lt b) j hj

/-- The other bits of the byte stay as they are. -/
lemma getLsbD_withBit (v b : Byte) (x : Bool) {j : ℕ} (hj : j < 8) :
    (withBit v (bitMask b) x).getLsbD j = if j = bitIndex b then x else v.getLsbD j := by
  have hclear : (v &&& ~~~bitMask b).getLsbD j = (v.getLsbD j && !decide (j = bitIndex b)) := by
    rw [BitVec.getLsbD_and, BitVec.getLsbD_not, getLsbD_bitMask b hj, decide_eq_true hj,
      Bool.true_and]
  unfold withBit
  cases x with
  | true =>
    rw [if_pos rfl, BitVec.getLsbD_or, hclear, getLsbD_bitMask b hj]
    split_ifs with h <;> simp [h]
  | false =>
    rw [if_neg Bool.false_ne_true, hclear]
    split_ifs with h <;> simp [h]

/-- The C code tests a bit with its mask, and this is the bit at its index. -/
lemma and_bitMask_ne (v b : Byte) : (v &&& bitMask b != 0) = v.getLsbD (bitIndex b) := by
  have htest : ∀ k < 8, (v &&& (1 : Byte) <<< k != 0) = v.getLsbD k := by
    revert v
    decide
  exact htest _ (bitIndex_lt b)

/-- Setting a bit needs no clearing before it: the disjunction with the mask is the byte with the
bit set. -/
lemma or_bitMask (v b : Byte) : v ||| bitMask b = withBit v (bitMask b) true := by
  apply BitVec.eq_of_getLsbD_eq
  intro j hj
  rw [getLsbD_withBit v b true hj, BitVec.getLsbD_or, getLsbD_bitMask b hj]
  split_ifs with h <;> simp [h]

/-- The exclusive-or with the mask of the carry replaces the carry by its inverse. -/
lemma xor_carry (v : Byte) : v ^^^ PSW_C = withBit v PSW_C !flag PSW_C v := by
  revert v
  decide

/-- Among the bits of `PSW` the carry is the one that `PSW_C` masks. -/
lemma bitMask_carry : bitMask CY = PSW_C := by decide

/-- The register that the carry's bit address points into is `PSW`. -/
lemma bitaddr_carry : bitaddr CY = PSW := by decide

namespace Machine

variable {script : Script σ} {m m' m₁ : Machine σ} {b : Byte} {x : Bool}

/-- States with the same core have the same window, page tables and code, whatever is in their
cells. -/
lemma SameCore.sameButCells (h : SameCore m m') : SameButCells m m' where
  __ := h
  ramsfr := rfl
  irqpendl0 := rfl
  irqpendl1 := rfl
  pc := rfl

/-- A store to a cell changes nothing but the cells. -/
lemma sameButCells_setSfr (m : Machine σ) (a v : Byte) : SameButCells m (m.setSfr a v) := by
  constructor <;> rfl

/-- A jump changes no cell and none of what instructions are read from. -/
lemma sameButCells_setPc (m : Machine σ) (w : Word) : SameButCells m (m.setPc w) := by
  constructor <;> rfl

/-- States that differ in their cells only can be chained. -/
lemma SameButCells.trans (h : SameButCells m m₁) (h' : SameButCells m₁ m') :
    SameButCells m m' where
  ramsfr := rfl
  ramsfrtrap := h'.ramsfrtrap.trans h.ramsfrtrap
  reg := h'.reg.trans h.reg
  dpl := h'.dpl.trans h.dpl
  dph := h'.dph.trans h.dph
  pc := rfl
  irqlevel := h'.irqlevel.trans h.irqlevel
  irqpendl0 := rfl
  irqpendl1 := rfl
  irqs := h'.irqs.trans h.irqs
  ramsfrnotifiers := h'.ramsfrnotifiers.trans h.ramsfrnotifiers
  bpmask := h'.bpmask.trans h.bpmask
  bpval := h'.bpval.trans h.bpval
  uartOut := h'.uartOut.trans h.uartOut

/-- The carry is one of the bits that can be addressed, and its value is the flag's. -/
lemma bit_carry (m : Machine σ) : m.bit CY = flag PSW_C (m.sfr PSW) := by
  rw [flag, ← bitMask_carry, and_bitMask_ne, ← bitaddr_carry]
  rfl

/-- If a bit is replaced in its byte and nothing but cells has changed, then the bit is set and no
other. -/
lemma SetsBit.of_update (hrest : SameButCells m m') (h : m'.ramsfr =
    Function.update m.ramsfr (dataCell (bitaddr b)) (withBit (m.sfr (bitaddr b)) (bitMask b) x)) :
    SetsBit b x m m' := by
  refine ⟨?_, ?_, hrest⟩
  · intro b'
    rw [bit, bit, sfr, h]
    by_cases haddr : bitaddr b' = bitaddr b
    · rw [haddr, Function.update_self, getLsbD_withBit _ _ _ (bitIndex_lt b')]
      refine if_congr ⟨fun hi => bit_inj haddr hi, fun hb => congrArg bitIndex hb⟩ rfl rfl
    · rw [Function.update_of_ne (by rwa [Ne, dataCell_inj]),
        if_neg fun hb => haddr (congrArg bitaddr hb)]
  · intro c hc
    rw [h, Function.update_of_ne hc]

/-- A state that is left alone has its bit set to the value it has already. -/
lemma SetsBit.refl (m : Machine σ) (b : Byte) : SetsBit b (m.bit b) m m where
  bits b' := by
    split_ifs with h
    · rw [h]
    · rfl
  cells _ _ := rfl
  rest := (SameCore.refl m).sameButCells

/-- Of two changes of one bit the second counts. -/
lemma SetsBit.trans {y : Bool} (h : SetsBit b y m m₁) (h' : SetsBit b x m₁ m') :
    SetsBit b x m m' where
  bits b' := by
    rw [h'.bits, h.bits]
    split_ifs <;> rfl
  cells c hc := (h'.cells c hc).trans (h.cells c hc)
  rest := h.rest.trans h'.rest

/-- What comes before the bit is set may work outside the CPU, as a hook does. -/
lemma SetsBit.of_sameCore (h : SameCore m m₁) (h' : SetsBit b x m₁ m') : SetsBit b x m m' where
  bits b' := by rw [h'.bits, bit, bit, sfr, h.ramsfr]
  cells c hc := (h'.cells c hc).trans (congrFun h.ramsfr c)
  rest := h.sameButCells.trans h'.rest

/-- And so may what comes after, which may also move `pc`. -/
lemma SetsBit.sameCore_setPc (h : SetsBit b x m m₁) (h' : SameCore m₁ m') (w : Word) :
    SetsBit b x m (m'.setPc w) where
  bits b' := by rw [← h.bits b', bit, bit, sfr, sfr, setPc_ramsfr, h'.ramsfr]
  cells c hc := (congrFun h'.ramsfr c).trans (h.cells c hc)
  rest := h.rest.trans (h'.sameButCells.trans (sameButCells_setPc m' w))

/-- The bit that has been set has only one value, so that the result of an instruction is
determined. -/
lemma SetsBit.value {y : Bool} (h : SetsBit b x m m') (h' : SetsBit b y m m') : x = y := by
  have hx := h.bits b
  rw [h'.bits, if_pos rfl, if_pos rfl] at hx
  exact hx.symm

/-! ## Accesses -/

/-- A read of a register whose hook passes its data on. -/
lemma readd_passes (ht : m.ramsfrtrap = sfrInitTrap) {a : Byte} (hp : script.PassesData a) :
    ∃ m', readd script a m = some (m.sfr a, m') ∧ SameCore m m' := by
  cases htrap : m.ramsfrtrap a with
  | false => exact ⟨m, readd_of_untrapped htrap, .refl m⟩
  | true =>
    have hpsw : a ≠ PSW := by
      rintro rfl
      rw [ht] at htrap
      exact absurd htrap (by decide)
    unfold readd readdVia defaultRamdGet ramdGet
    rw [if_pos htrap, if_neg hpsw]
    split_ifs with hscon hsbuf
    · exact ⟨m, by rw [hscon], .refl m⟩
    · exact ⟨m, by rw [hsbuf], .refl m⟩
    · unfold ramdHook
      cases hhook : script.ramdHooks m.lua a with
      | none => exact ⟨m, rfl, .refl m⟩
      | some hook =>
        obtain ⟨m₁, hrun, hcore⟩ := hp m.lua hook hhook false (luaOfByte (m.sfr a)) m
        have hself : m₁.setSfr a (m.sfr a) = m₁ := by
          rw [sfr, ← hcore.ramsfr]
          exact setCell_self m₁ _
        refine ⟨m₁, ?_, hcore⟩
        dsimp only
        rw [hrun, Option.map_some, byteOfLua_luaOfByte, hself, Option.map_some, sfr, hcore.ramsfr]

/-- A write to a register whose hook passes its data on. -/
lemma writed_passes (ht : m.ramsfrtrap = sfrInitTrap) {a v : Byte} (hp : script.PassesData a)
    (hdps : a ≠ DPS) (hsbuf : a ≠ SBUF) :
    ∃ m', writed script a v m = some m' ∧
      m'.ramsfr = Function.update m.ramsfr (dataCell a) v ∧ SameButCells m m' := by
  cases htrap : m.ramsfrtrap a with
  | false => exact ⟨_, writed_of_untrapped htrap, rfl, m.sameButCells_setSfr a v⟩
  | true =>
    have hpsw : a ≠ PSW := by
      rintro rfl
      rw [ht] at htrap
      exact absurd htrap (by decide)
    -- what comes after `ramd_put` recomputes pending requests only
    have hafter : ∀ m₁ : Machine σ, (afterRamdPut a m₁).ramsfr = m₁.ramsfr ∧
        SameButCells m₁ (afterRamdPut a m₁) := by
      intro m₁
      rw [afterRamdPut, if_neg hpsw]
      obtain ⟨l0, l1, hl⟩ := m₁.sfrNotify_eq a
      rw [hl]
      exact ⟨rfl, by constructor <;> rfl⟩
    have hput : ∃ m₁, ramdPut script (busAt script script.ccalls) a v m = some m₁ ∧
        m₁.ramsfr = Function.update m.ramsfr (dataCell a) v ∧ SameButCells m m₁ := by
      unfold ramdPut
      rw [if_neg hdps, if_neg hsbuf]
      split_ifs with hscon
      · rw [hscon]
        exact ⟨_, rfl, rfl, m.sameButCells_setSfr SCON v⟩
      · unfold ramdHook
        rw [sfr_setSfr_self]
        cases hhook : script.ramdHooks (m.setSfr a v).lua a with
        | none => exact ⟨_, rfl, rfl, m.sameButCells_setSfr a v⟩
        | some hook =>
          obtain ⟨m₁, hrun, hcore⟩ := hp m.lua hook hhook true (luaOfByte v) (m.setSfr a v)
          refine ⟨m₁.setSfr a v, ?_, ?_, ?_⟩
          · dsimp only
            rw [hrun, Option.map_some, byteOfLua_luaOfByte]
          · change Function.update m₁.ramsfr (dataCell a) v = _
            rw [hcore.ramsfr]
            exact Function.update_idem ..
          · exact (m.sameButCells_setSfr a v).trans
              (hcore.sameButCells.trans (m₁.sameButCells_setSfr a v))
    obtain ⟨m₁, hm₁, hcells, hrest⟩ := hput
    refine ⟨afterRamdPut a m₁, ?_, (hafter m₁).1.trans hcells, hrest.trans (hafter m₁).2⟩
    unfold writed writedVia defaultRamdPut
    rw [if_pos htrap, hm₁, Option.map_some]

/-- The register of a bit is neither `DPS` nor `SBUF`, whose writes do more than store. -/
lemma bitaddr_ne (b : Byte) : bitaddr b ≠ DPS ∧ bitaddr b ≠ SBUF := by
  revert b
  decide

variable (ht : m.ramsfrtrap = sfrInitTrap) (hp : script.PassesData (bitaddr b))
include ht hp

/-- `readb` gives the bit and leaves the core of the emulator as it is, whatever hook answers. -/
lemma run_readb :
    ∃ m', (Cpu.readb b).run (cpuExec script) m = some (m.bit b, m') ∧ SameCore m m' := by
  obtain ⟨m', hread, hcore⟩ := readd_passes ht hp
  refine ⟨m', ?_, hcore⟩
  rw [readb, Prog.run_bind, Cpu.run_readd, hread, Option.bind_some, bit, ← and_bitMask_ne]
  rfl

/-- `writeb` sets the bit and leaves every other bit of the register and every other cell. -/
lemma run_writeb (x : Bool) :
    ∃ m', (Cpu.writeb b x).run (cpuExec script) m = some ((), m') ∧ SetsBit b x m m' := by
  obtain ⟨m₁, hread, hcore⟩ := readd_passes ht hp
  obtain ⟨hdps, hsbuf⟩ := bitaddr_ne b
  obtain ⟨m', hwrite, hcells, hrest⟩ := writed_passes (hcore.ramsfrtrap.trans ht) hp hdps hsbuf
  refine ⟨m', ?_, .of_update (hcore.sameButCells.trans hrest) ?_⟩
  · rw [Cpu.writeb, Prog.run_bind, Cpu.run_readd, hread, Option.bind_some, Cpu.run_writed, hwrite,
      Option.map_some]
  · rw [← hcore.ramsfr]
    exact hcells

end Machine

/-! ## Instructions -/

/-- The instructions that name a bit and change one. -/
inductive BitInsn where
  | setB | clrB | cplBit | movBitC | jbc
  | movCBit | anlCbit | anlCnbit | orlCbit | orlCnbit
  deriving DecidableEq

/-- The instructions that change the carry by a mask. -/
inductive CarryInsn where
  | setbC | clrC | cplC

namespace BitInsn

/-- The record of the instruction. -/
def label : BitInsn → Label
  | setB => .setB
  | clrB => .clrB
  | cplBit => .cplBit
  | movBitC => .movBitC
  | jbc => .jbc
  | movCBit => .movCBit
  | anlCbit => .anlCbit
  | anlCnbit => .anlCnbit
  | orlCbit => .orlCbit
  | orlCnbit => .orlCnbit

/-- The bit the instruction changes, where `b` is the one it names. -/
def target (b : Byte) : BitInsn → Byte
  | setB | clrB | cplBit | movBitC | jbc => b
  | _ => CY

/-- What the instruction makes of it, where `x` is the bit it names and `c` the carry. A `JBC` that
does not jump has found a bit that is clear already. -/
def result (x c : Bool) : BitInsn → Bool
  | setB => true
  | clrB | jbc => false
  | cplBit => !x
  | movBitC => c
  | movCBit => x
  | anlCbit => c && x
  | anlCnbit => c && !x
  | orlCbit => c || x
  | orlCnbit => c || !x

end BitInsn

namespace CarryInsn

/-- The record of the instruction. -/
def label : CarryInsn → Label
  | setbC => .setbC
  | clrC => .clrC
  | cplC => .cplC

/-- The instruction that does the same with a bit it names. -/
def bitInsn : CarryInsn → BitInsn
  | setbC => .setB
  | clrC => .clrB
  | cplC => .cplBit

end CarryInsn

namespace Machine

variable {script : Script σ} {m : Machine σ} {b : Byte} {x : Bool} {code : Cpu Unit}

/-- The code can be run and gives the bit `b` the value `x`. -/
def RunsToBit (script : Script σ) (code : Cpu Unit) (b : Byte) (x : Bool) (m : Machine σ) : Prop :=
  ∃ m', code.run (cpuExec script) m = some ((), m') ∧ SetsBit b x m m'

/-- The instruction at `pc` is performed and changes the bit it should as it should. -/
def ChangesBit (script : Script σ) (i : BitInsn) (m : Machine σ) : Prop :=
  ∃ m', m.exec script = some m' ∧ SetsBit (i.target (m.fetch 1))
    (i.result (m.bit (m.fetch 1)) (flag PSW_C (m.sfr PSW))) m m'

/-- Code that runs as other code does from this state sets the same bit to the same value. -/
lemma RunsToBit.congr {code' : Cpu Unit}
    (hcode : code.run (cpuExec script) m = code'.run (cpuExec script) m)
    (h : RunsToBit script code' b x m) : RunsToBit script code b x m := by
  obtain ⟨m', hrun, hset⟩ := h
  exact ⟨m', hcode.trans hrun, hset⟩

/-! ### The carry -/

/-- A store to `PSW` with the carry replaced sets the bit at the carry's address and no other. -/
lemma setsBit_setCarry (m : Machine σ) (x : Bool) :
    SetsBit CY x m (m.setSfr PSW (withBit (m.sfr PSW) PSW_C x)) := by
  refine .of_update (m.sameButCells_setSfr _ _) ?_
  rw [bitaddr_carry, bitMask_carry]
  rfl

/-- The records write `PSW |= PSW_C` and `PSW &= ~PSW_C`, and both replace the carry in `PSW`. -/
lemma run_setCarry (script : Script σ) (m : Machine σ) (x : Bool) :
    (Ops.setCarry x).run (cpuExec script) m =
      some ((), m.setSfr PSW (withBit (m.sfr PSW) PSW_C x)) := by
  cases x with
  | true =>
    rw [← bitMask_carry, ← or_bitMask, bitMask_carry]
    rfl
  | false => rfl

/-- `SETB C` and `CLR C` leave the given carry and no other trace in the cells. -/
lemma runsToBit_setCarry (script : Script σ) (m : Machine σ) (x : Bool) :
    RunsToBit script (Ops.setCarry x) CY x m :=
  ⟨_, run_setCarry script m x, m.setsBit_setCarry x⟩

/-- `CLR C`, `SETB C` and `CPL C`, which use a mask of `PSW`, store it with the carry replaced. -/
lemma run_carryInsn (script : Script σ) (m : Machine σ) (i : CarryInsn) (op : Byte) :
    (i.label.record op).code.run (cpuExec script) m = some ((), m.setSfr PSW (withBit (m.sfr PSW)
      PSW_C (i.bitInsn.result (m.bit CY) (flag PSW_C (m.sfr PSW))))) := by
  cases i with
  | setbC => exact run_setCarry script m true
  | clrC => rfl
  | cplC =>
    rw [bit_carry, CarryInsn.bitInsn, BitInsn.result, ← xor_carry]
    rfl

/-- `writeb` at the carry's address stores `PSW` with the carry replaced, as `PSW` is not trapped.
-/
lemma run_writeb_carry (ht : m.ramsfrtrap = sfrInitTrap) :
    (Cpu.writeb CY x).run (cpuExec script) m =
      some ((), m.setSfr PSW (withBit (m.sfr PSW) PSW_C x)) := by
  have htrap : m.ramsfrtrap PSW = false := by
    rw [ht]
    decide
  rw [Cpu.writeb, bitaddr_carry, bitMask_carry, Prog.run_bind, Cpu.run_readd,
    readd_of_untrapped htrap, Option.bind_some, Cpu.run_writed, writed_of_untrapped htrap,
    Option.map_some]

/-- The instructions that name a bit do the same with the carry. -/
lemma run_bitInsn_carry (ht : m.ramsfrtrap = sfrInitTrap) (hb : m.fetch 1 = CY) (i : CarryInsn)
    (op : Byte) : (i.bitInsn.label.record op).code.run (cpuExec script) m =
      some ((), m.setSfr PSW (withBit (m.sfr PSW) PSW_C
        (i.bitInsn.result (m.bit CY) (flag PSW_C (m.sfr PSW))))) := by
  have htrap : m.ramsfrtrap PSW = false := by
    rw [ht]
    decide
  cases i with
  | setbC =>
    change (Cpu.readd (bitaddr (m.fetch 1)) >>= fun v => Cpu.writed (bitaddr (m.fetch 1))
      (v ||| bitMask (m.fetch 1))).run (cpuExec script) m = _
    simp only [or_bitMask]
    rw [hb]
    exact run_writeb_carry ht
  | clrC =>
    change (Cpu.writeb (m.fetch 1) false).run (cpuExec script) m = _
    rw [hb]
    exact run_writeb_carry ht
  | cplC =>
    change (Cpu.readb (m.fetch 1) >>= fun v => Cpu.writeb (m.fetch 1) !v).run
      (cpuExec script) m = _
    rw [hb, Prog.run_bind, Cpu.readb, bitaddr_carry, Prog.run_bind, Cpu.run_readd,
      readd_of_untrapped htrap, Option.bind_some]
    change (Cpu.writeb CY !(m.sfr PSW &&& bitMask CY != 0)).run (cpuExec script) m = _
    rw [run_writeb_carry ht, and_bitMask_ne, ← bitaddr_carry]
    rfl

/-- Before the carry is changed, the bit may be read. -/
lemma RunsToBit.after_readb (ht : m.ramsfrtrap = sfrInitTrap) (hp : script.PassesData (bitaddr b))
    {f : Bool → Cpu Unit} {c : Byte}
    (h : ∀ m', m'.ramsfrtrap = sfrInitTrap → RunsToBit script (f (m.bit b)) c x m') :
    RunsToBit script (Cpu.readb b >>= f) c x m := by
  obtain ⟨m₁, hread, hcore⟩ := run_readb ht hp
  obtain ⟨m', hrun, hset⟩ := h m₁ (hcore.ramsfrtrap.trans ht)
  refine ⟨m', ?_, .of_sameCore hcore hset⟩
  rw [Prog.run_bind, hread, Option.bind_some, hrun]

/-- `MOV C,bit` reads the bit with the carry cleared. -/
lemma runsToBit_movCBit (ht : m.ramsfrtrap = sfrInitTrap)
    (hp : script.PassesData (bitaddr (m.fetch 1))) :
    RunsToBit script Ops.movCBit.code CY (m.bit (m.fetch 1) && m.fetch 1 != CY) m := by
  obtain ⟨m₁, hclear, hset⟩ := runsToBit_setCarry script m false
  have hfetch : m₁.fetch 1 = m.fetch 1 := by
    rw [← (Prod.mk.inj (Option.some.inj hclear)).2]
    rfl
  have hbit : m₁.bit (m.fetch 1) = (m.bit (m.fetch 1) && m.fetch 1 != CY) := by
    rw [hset.bits]
    by_cases h : m.fetch 1 = CY
    · rw [if_pos h, h, bne_self_eq_false, Bool.and_false]
    · rw [if_neg h, bne_iff_ne.2 h, Bool.and_true]
  obtain ⟨m₂, hread, hcore⟩ := run_readb (m := m₁) (hset.rest.ramsfrtrap.trans ht) hp
  have hrun : Ops.movCBit.code.run (cpuExec script) m =
      (if m₁.bit (m.fetch 1) then Ops.setCarry true else pure ()).run (cpuExec script) m₂ := by
    rw [Ops.movCBit, Prog.run_bind, hclear, Option.bind_some, Prog.run_bind, Cpu.run_fetch,
      Option.bind_some, Prog.run_bind, hfetch, hread, Option.bind_some]
  unfold RunsToBit
  rw [hrun, ← hbit]
  cases m₁.bit (m.fetch 1) with
  | true =>
    obtain ⟨m', hone, hset'⟩ := runsToBit_setCarry script m₂ true
    exact ⟨m', hone, hset.trans (.of_sameCore hcore hset')⟩
  | false => exact ⟨m₂, rfl, hset.sameCore_setPc hcore m₂.pc⟩

/-! ### All instructions -/

/-- `JBC` moves `pc` first. It does nothing if the bit is clear. -/
lemma runsToBit_jbc (ht : m.ramsfrtrap = sfrInitTrap)
    (hp : script.PassesData (bitaddr (m.fetch 1))) :
    RunsToBit script Ops.jbc.code (m.fetch 1) false m := by
  obtain ⟨m₁, hread, hcore⟩ := readd_passes (m := m.setPc (m.pc + 3)) ht hp
  have hstart : SetsBit (m.fetch 1) (m.bit (m.fetch 1)) m (m.setPc (m.pc + 3)) :=
    (SetsBit.refl m _).sameCore_setPc (.refl m) _
  have hset₁ : SetsBit (m.fetch 1) (m.bit (m.fetch 1)) m m₁ := hstart.sameCore_setPc hcore m₁.pc
  have hrun : Ops.jbc.code.run (cpuExec script) m =
      (if m.sfr (bitaddr (m.fetch 1)) &&& bitMask (m.fetch 1) ≠ 0 then
        Cpu.writeb (m.fetch 1) false >>= fun _ => Cpu.branch (m.fetch 2) else pure ()).run
          (cpuExec script) m₁ := by
    simp only [Ops.jbc, Prog.run_bind, Cpu.run_fetch, Option.bind_some, Cpu.run_advance,
      Cpu.run_readd, hread, setPc_ramsfr, Cpu.writeb]
    rfl
  unfold RunsToBit
  rw [hrun]
  by_cases hbit : m.sfr (bitaddr (m.fetch 1)) &&& bitMask (m.fetch 1) ≠ 0
  · obtain ⟨m₂, hwrite, hset⟩ := run_writeb (m := m₁) (hcore.ramsfrtrap.trans ht) hp false
    refine ⟨m₂.setPc (m₂.pc + (m.fetch 2).signExtend 16), ?_,
      hset₁.trans (hset.sameCore_setPc (.refl m₂) _)⟩
    rw [if_pos hbit, Prog.run_bind, hwrite, Option.bind_some, Cpu.run_branch]
  · have hclear : m.bit (m.fetch 1) = false := by
      rw [bit, ← and_bitMask_ne, not_not.1 hbit]
      rfl
    rw [if_neg hbit]
    rw [hclear] at hset₁
    exact ⟨m₁, rfl, hset₁⟩

/-- `ANL C` leaves the conjunction of the carry and the bit in the carry. -/
lemma runsToBit_anlC (ht : m.ramsfrtrap = sfrInitTrap)
    (hp : script.PassesData (bitaddr (m.fetch 1))) (f : Bool → Bool) :
    RunsToBit script (Ops.anlC f).code CY (flag PSW_C (m.sfr PSW) && f (m.bit (m.fetch 1))) m := by
  have hcode : (Ops.anlC f).code.run (cpuExec script) m =
      (if m.sfr PSW &&& PSW_C ≠ 0 then Cpu.readb (m.fetch 1) >>= fun v => Ops.setCarry (f v)
        else Ops.setCarry false).run (cpuExec script) m := by
    simp only [Ops.anlC, Prog.run_bind, Cpu.run_get, Option.bind_some, CoreReg.addr]
    split_ifs <;> rfl
  refine .congr hcode ?_
  by_cases hc : m.sfr PSW &&& PSW_C = 0
  · rw [if_neg (not_not.2 hc), flag, hc]
    exact runsToBit_setCarry script m false
  · rw [if_pos hc, flag, bne_iff_ne.2 hc, Bool.true_and]
    exact RunsToBit.after_readb ht hp fun m' _ => runsToBit_setCarry script m' _

/-- `ORL C` leaves the disjunction of the carry and the bit in the carry. -/
lemma runsToBit_orlC (ht : m.ramsfrtrap = sfrInitTrap)
    (hp : script.PassesData (bitaddr (m.fetch 1))) (f : Bool → Bool) :
    RunsToBit script (Ops.orlC f).code CY (flag PSW_C (m.sfr PSW) || f (m.bit (m.fetch 1))) m := by
  have hcode : (Ops.orlC f).code.run (cpuExec script) m =
      (if m.sfr PSW &&& PSW_C ≠ 0 then Ops.setCarry true
        else Cpu.readb (m.fetch 1) >>= fun v => Ops.setCarry (f v)).run (cpuExec script) m := by
    simp only [Ops.orlC, Prog.run_bind, Cpu.run_get, Option.bind_some, CoreReg.addr]
    split_ifs <;> rfl
  refine .congr hcode ?_
  by_cases hc : m.sfr PSW &&& PSW_C = 0
  · rw [if_neg (not_not.2 hc), flag, hc]
    exact RunsToBit.after_readb ht hp fun m' _ => runsToBit_setCarry script m' _
  · rw [if_pos hc, flag, bne_iff_ne.2 hc, Bool.true_or]
    exact runsToBit_setCarry script m true

/-- Each instruction does to its bit what it should, `MOV C,C` apart. -/
theorem runsToBit_bitInsn (ht : m.ramsfrtrap = sfrInitTrap)
    (hp : script.PassesData (bitaddr (m.fetch 1))) (i : BitInsn) (op : Byte) :
    RunsToBit script (i.label.record op).code (i.target (m.fetch 1))
      (i.result (m.bit (m.fetch 1) && (i != .movCBit || m.fetch 1 != CY))
        (flag PSW_C (m.sfr PSW))) m := by
  by_cases hi : i = .movCBit
  · subst hi
    exact runsToBit_movCBit ht hp
  rw [bne_iff_ne.2 hi, Bool.true_or, Bool.and_true]
  cases i with
  | setB =>
    have hset : (fun v => Cpu.writed (bitaddr (m.fetch 1)) (v ||| bitMask (m.fetch 1))) =
        fun v => Cpu.writed (bitaddr (m.fetch 1)) (withBit v (bitMask (m.fetch 1)) true) :=
      funext fun v => by rw [or_bitMask]
    exact .congr (congrArg (fun k => (Cpu.readd _ >>= k).run _ m) hset) (run_writeb ht hp true)
  | clrB => exact run_writeb ht hp false
  | cplBit => exact RunsToBit.after_readb ht hp fun m' ht' => run_writeb ht' hp _
  | movBitC => exact run_writeb ht hp _
  | jbc => exact runsToBit_jbc ht hp
  | movCBit => exact absurd rfl hi
  | anlCbit => exact runsToBit_anlC ht hp id
  | anlCnbit => exact runsToBit_anlC ht hp not
  | orlCbit => exact runsToBit_orlC ht hp id
  | orlCnbit => exact runsToBit_orlC ht hp not

/-- Distinct names are distinct bits. An instruction changes the bit it should, and nothing else,
unless it moves a set carry to the carry. The instructions for the carry do what those that name a
bit do with it. -/
theorem changesBit_iff (script : Script σ) :
    (∀ b b' : Byte, bitaddr b = bitaddr b' → bitIndex b = bitIndex b' → b = b') ∧
    (∀ (m : Machine σ) (i : BitInsn), m.ramsfrtrap = sfrInitTrap →
      insnmap (m.fetch 0) = i.label → script.PassesData (bitaddr (m.fetch 1)) →
      (ChangesBit script i m ↔
        ¬(i = .movCBit ∧ m.fetch 1 = CY ∧ flag PSW_C (m.sfr PSW) = true))) ∧
    (∀ (m : Machine σ) (i : CarryInsn) (op : Byte), insnmap op = i.label →
      ∃ m', dispatch script op m = some (m'.setPc (m.pc + 1)) ∧
        SetsBit CY (i.bitInsn.result (m.bit CY) (flag PSW_C (m.sfr PSW))) m m' ∧
        ∀ op', m.ramsfrtrap = sfrInitTrap → insnmap op' = i.bitInsn.label → m.fetch 1 = CY →
          dispatch script op' m = some (m'.setPc (m.pc + 2))) := by
  refine ⟨fun b b' => bit_inj, ?_, ?_⟩
  · intro m i ht hi hp
    obtain ⟨m', hrun, hset⟩ := runsToBit_bitInsn ht hp i (m.fetch 0)
    have hexec : ∀ m'', m.exec script = some m'' ↔
        m'.setPc (m'.pc + BitVec.ofNat 16 (i.label.record (m.fetch 0)).bytes) = m'' := by
      intro m''
      rw [exec, dispatch_of_run hi hrun, Option.some.injEq]
    have hset' := hset.sameCore_setPc (.refl m') (m'.pc +
      BitVec.ofNat 16 (i.label.record (m.fetch 0)).bytes)
    constructor
    · rintro ⟨m'', hm'', hshould⟩ ⟨rfl, hb, hc⟩
      obtain rfl := (hexec m'').1 hm''
      have hvalue := hset'.value hshould
      rw [BitInsn.result, BitInsn.result, hb, bit_carry, hc] at hvalue
      exact absurd hvalue (by decide)
    · intro hgood
      refine ⟨_, (hexec _).2 rfl, ?_⟩
      have hsame : m.bit (m.fetch 1) =
          (m.bit (m.fetch 1) && (i != .movCBit || m.fetch 1 != CY)) := by
        cases hx : i != .movCBit || m.fetch 1 != CY with
        | true => rw [Bool.and_true]
        | false =>
          obtain ⟨hmov, hb⟩ := Bool.or_eq_false_iff.1 hx
          have hc : flag PSW_C (m.sfr PSW) = false := Bool.eq_false_iff.2 fun hc =>
            hgood ⟨bne_eq_false_iff_eq.1 hmov, bne_eq_false_iff_eq.1 hb, hc⟩
          rw [Bool.and_false, bne_eq_false_iff_eq.1 hb, bit_carry, hc]
      rw [hsame]
      exact hset'
  · intro m i op hop
    refine ⟨_, ?_, m.setsBit_setCarry _, fun op' ht hop' hb => ?_⟩
    · rw [dispatch_of_run hop (run_carryInsn script m i op)]
      cases i <;> rfl
    · rw [dispatch_of_run hop' (run_bitInsn_carry ht hb i op')]
      cases i <;> rfl

/-- The theorem at `CLR 0D7H`, which clears the carry by its bit address. -/
theorem changesBit_iff_clrB : ChangesBit noHooks .clrB (running [0xc2, 0xd7]) ↔
    ¬(BitInsn.clrB = .movCBit ∧ (running [0xc2, 0xd7]).fetch 1 = CY ∧
      flag PSW_C ((running [0xc2, 0xd7]).sfr PSW) = true) :=
  (changesBit_iff noHooks).2.1 (running [0xc2, 0xd7]) .clrB rfl (by decide)
    fun _ _ h => absurd h (Option.some_ne_none _).symm

/-- `MOV C,0D7H`, the carry moved to itself, clears the carry before it reads it. -/
theorem movCBit_loses_carry : ¬∀ (m : Machine Unit) (i : BitInsn), m.ramsfrtrap = sfrInitTrap →
    insnmap (m.fetch 0) = i.label → noHooks.PassesData (bitaddr (m.fetch 1)) →
    ChangesBit noHooks i m := by
  intro hall
  obtain ⟨m', hexec, hset⟩ := hall ((running [0xa2, 0xd7]).setSfr PSW 0x80) .movCBit rfl
    (by decide) fun _ _ h => absurd h (Option.some_ne_none _).symm
  have hcarry : (((running [0xa2, 0xd7]).setSfr PSW 0x80).exec noHooks).map
      (fun m => m.bit CY) = some false := by decide +kernel
  have hbit : ((running [0xa2, 0xd7]).setSfr PSW 0x80).bit 0xd7 = true := by decide +kernel
  rw [hexec, Option.map_some, hset.bits CY, if_pos (by decide +kernel)] at hcarry
  exact absurd (hbit.symm.trans (Option.some.inj hcarry)) (by decide)

end Machine

namespace Chip

/-- The registers with single bits pass their data on, except `0x80` and `0xa0`. -/
theorem passesData (chip : Chip) {b : Byte} (h : bitaddr b ≠ 0x80) (h' : bitaddr b ≠ 0xa0) :
    chip.script.PassesData (bitaddr b) := by
  have hfound : ∀ g, chip.script.ramdHooks g (bitaddr b) = some plain ∨
      chip.script.ramdHooks g (bitaddr b) = none := by
    intro g
    have hplain : ∀ a : Byte, a = 0x88 ∨ a = 0xa8 ∨ a = 0xc8 →
        chip.script.ramdHooks g a = some plain := by
      intro a ha
      cases chip <;> rcases ha with rfl | rfl | rfl <;> rfl
    have hnone : ∀ a : Byte, a ∉ Rtl8372.ramdHooks.map Prod.fst →
        chip.script.ramdHooks g a = none := by
      intro a ha
      have hsub : Rtl8367s.ramdHooks.map Prod.fst ⊆ Rtl8372.ramdHooks.map Prod.fst := by decide
      cases chip with
      | rtl8367s socRegs =>
        refine List.lookup_eq_none_iff.2 fun e he => bne_iff_ne.2 ?_
        rintro rfl
        exact ha (hsub (List.mem_map_of_mem he))
      | rtl8372 =>
        refine List.lookup_eq_none_iff.2 fun e he => bne_iff_ne.2 ?_
        rintro rfl
        exact ha (List.mem_map_of_mem he)
    have hcases : (bitaddr b = 0x88 ∨ bitaddr b = 0xa8 ∨ bitaddr b = 0xc8) ∨
        bitaddr b ∉ Rtl8372.ramdHooks.map Prod.fst := by
      revert b
      decide
    rcases hcases with ha | ha
    · exact .inl (hplain _ ha)
    · exact .inr (hnone _ ha)
  intro g hook hk w d m
  rcases hfound g with hplain | hnone
  · obtain rfl := Option.some.inj (hk.symm.trans hplain)
    exact ⟨m, rfl, .refl m⟩
  · exact absurd (hk.symm.trans hnone) (Option.some_ne_none hook)

end Chip

end Emu51

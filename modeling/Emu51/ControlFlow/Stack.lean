import Emu51.ControlFlow.Branches
import Emu51.Library.RingStack
import Emu51.Library.Transition

/-!
# The stack

Pushes come from `PUSH`, from calls and from the entry of interrupts, and what they push is taken
off by `POP`, `RET` and `RETI`. The stack is kept beside the machine as a list of frames, and any
other steps may come in between that leave `SP` and the live cells alone. As long as not more than
256 bytes are pushed, every frame is found again as it was, wherever `SP` began.
-/

namespace Emu51

variable {σ : Type}

/-- What was pushed together: a byte, the address after a call, or the `pc` an interrupt found. -/
inductive Frame where
  | byte (v : Byte)
  | ret (w : Word)
  | irq (w : Word)

/-- The bytes of a frame, the last one pushed first. -/
def Frame.bytes : Frame → List Byte
  | byte v => [v]
  | ret w => [hi w, lo w]
  | irq w => [hi w, lo w]

/-- The bytes on the stack. -/
def stackBytes (fs : List Frame) : List Byte := fs.flatMap Frame.bytes

/-- What happens to the stack. -/
inductive StackAct where
  | push | pop | call | ret | enter | reti | other

namespace Machine

variable {script : Script σ} {m m' m₁ : Machine σ}

/-- `SP` and the `n` bytes up to the address are the same in both states. -/
structure Undisturbed (top : Byte) (n : ℕ) (m m' : Machine σ) : Prop where
  sp : m'.sfr SP = m.sfr SP
  cells : ∀ i < n, m'.readi (top - BitVec.ofNat 8 i) = m.readi (top - BitVec.ofNat 8 i)

/-- The steps of a well-nested program. What an operand of `PUSH` or `POP` does when it is read or
written must not disturb the frames below, and neither must anything that happens in between. -/
inductive StackStep (script : Script σ) :
    Machine σ × List Frame → StackAct → Machine σ × List Frame → Prop where
  | push {m m₁ m' : Machine σ} {v : Byte} {fs : List Frame} (hop : insnmap (m.fetch 0) = .pushD)
      (hread : readd script (m.fetch 1) (m.setSfr SP (m.sfr SP + 1)) = some (v, m₁))
      (hquiet : Undisturbed (m.sfr SP) (stackBytes fs).length (m.setSfr SP (m.sfr SP + 1)) m₁)
      (hroom : (stackBytes fs).length + 1 ≤ 256) (h : m.exec script = some m') :
      StackStep script (m, fs) .push (m', .byte v :: fs)
  | pop {m m₁ m' : Machine σ} {v : Byte} {fs : List Frame} (hop : insnmap (m.fetch 0) = .popD)
      (hwrite : writed script (m.fetch 1) (m.readi (m.sfr SP)) (m.setSfr SP (m.sfr SP - 1)) =
        some m₁)
      (hquiet : Undisturbed (m.sfr SP - 1) (stackBytes fs).length (m.setSfr SP (m.sfr SP - 1)) m₁)
      (h : m.exec script = some m') : StackStep script (m, .byte v :: fs) .pop (m', fs)
  | call {m m' : Machine σ} {fs : List Frame}
      (hop : insnmap (m.fetch 0) = .lcall ∨ insnmap (m.fetch 0) = .acall)
      (hroom : (stackBytes fs).length + 2 ≤ 256) (h : m.exec script = some m') :
      StackStep script (m, fs) .call
        (m', .ret (m.pc + BitVec.ofNat 16 (insnBytes (m.fetch 0))) :: fs)
  | ret {m m' : Machine σ} {w : Word} {fs : List Frame} (hop : insnmap (m.fetch 0) = .ret)
      (h : m.exec script = some m') : StackStep script (m, .ret w :: fs) .ret (m', fs)
  | enter {m : Machine σ} {fs : List Frame} (hvec : 0 < m.irqSelect.1)
      (hroom : (stackBytes fs).length + 2 ≤ 256) :
      StackStep script (m, fs) .enter (m.handleIrq, .irq m.pc :: fs)
  | reti {m m' : Machine σ} {w : Word} {fs : List Frame} (hop : insnmap (m.fetch 0) = .reti)
      (h : m.exec script = some m') : StackStep script (m, .irq w :: fs) .reti (m', fs)
  | other {m m' : Machine σ} {fs : List Frame}
      (hquiet : Undisturbed (m.sfr SP) (stackBytes fs).length m m') :
      StackStep script (m, fs) .other (m', fs)

/-- The bytes of the frames are in internal RAM, below `SP`. -/
def Stacked (base : Byte) (c : Machine σ × List Frame) : Prop :=
  RingStack.Holds c.1.readi base (c.1.sfr SP) (stackBytes c.2)

/-! ## Pushes and pops -/

/-- A push puts a byte on top of a stack that has room for it, wherever in the ring it is. -/
lemma stacked_push {base : Byte} {l : List Byte} (h : RingStack.Holds m.readi base (m.sfr SP) l)
    (hroom : l.length + 1 ≤ 256) (x : Byte) :
    RingStack.Holds (m.push x).readi base ((m.push x).sfr SP) (x :: l) := by
  rw [sp_push]
  refine h.push hroom ?_ fun a ha => ?_
  · exact (readi_push m x _).trans (if_pos rfl)
  · exact (readi_push m x a).trans (if_neg ha)

/-- A stack stays as it is if nothing disturbs its bytes or moves its pointer. -/
lemma stacked_undisturbed {base : Byte} {l : List Byte}
    (h : RingStack.Holds m.readi base (m.sfr SP) l)
    (hsame : Undisturbed (m.sfr SP) l.length m m') :
    RingStack.Holds m'.readi base (m'.sfr SP) l := by
  rw [hsame.sp]
  exact h.congr hsame.cells

/-- Two bytes pushed one after the other are on top, the second above the first. -/
lemma stacked_push_two {base : Byte} {l : List Byte} (h : RingStack.Holds m.readi base (m.sfr SP) l)
    (hroom : l.length + 2 ≤ 256) (x y : Byte) :
    RingStack.Holds ((m.push x).push y).readi base (((m.push x).push y).sfr SP) (y :: x :: l) := by
  have hfirst := stacked_push h (by omega) x
  exact stacked_push hfirst (by rw [List.length_cons]; omega) y

/-! ## The instructions -/

/-- The state after the top has been taken off. -/
def dropTop (m : Machine σ) : Machine σ := m.setSfr SP (m.sfr SP - 1)

/-- Dropping the top of the stack leaves internal memory alone. -/
lemma dropTop_readi (m : Machine σ) (a : Byte) : m.dropTop.readi a = m.readi a := by
  rw [dropTop, readi, setCell_apply, if_neg (iramCell_ne_sfr a (by decide))]

/-- Dropping the top of the stack counts the stack pointer down. -/
lemma dropTop_sp (m : Machine σ) : m.dropTop.sfr SP = m.sfr SP - 1 := m.sfr_setSfr_self SP _

/-- Without its top byte the stack is what was below. -/
lemma stacked_dropTop {base x : Byte} {l : List Byte}
    (h : RingStack.Holds m.readi base (m.sfr SP) (x :: l)) :
    RingStack.Holds m.dropTop.readi base (m.dropTop.sfr SP) l := by
  rw [dropTop_sp]
  exact h.pop.congr fun i _ => m.dropTop_readi _

/-- `PUSH direct` reads its operand after it has advanced `SP`. -/
lemma exec_push (script : Script σ) (hop : insnmap (m.fetch 0) = .pushD) : m.exec script =
    (readd script (m.fetch 1) (m.setSfr SP (m.sfr SP + 1))).map fun y =>
      (y.2.writei (m.sfr SP + 1) y.1).setPc (y.2.pc + 2) := by
  have hdirect : Ops.direct1.run (cpuExec script) (m.setSfr SP (m.sfr SP + 1)) =
      readd script (m.fetch 1) (m.setSfr SP (m.sfr SP + 1)) := Prog.run_op _ _
  have hrun : Ops.pushD.code.run (cpuExec script) m =
      (readd script (m.fetch 1) (m.setSfr SP (m.sfr SP + 1))).bind fun y =>
        some ((), y.2.writei (m.sfr SP + 1) y.1) := by
    rw [← hdirect]
    unfold Ops.pushD Cpu.push
    simp only [Prog.run_bind, Cpu.run_get, Option.bind_some, Cpu.run_set]
    rfl
  refine (dispatch_eq script hop m).trans ?_
  change (Ops.pushD.code.run (cpuExec script) m).map _ = _
  rw [hrun]
  cases readd script (m.fetch 1) (m.setSfr SP (m.sfr SP + 1)) with
  | none => rfl
  | some y => rfl

/-- `POP direct` takes the top off the stack and then stores it in the register. -/
lemma exec_pop (script : Script σ) (hop : insnmap (m.fetch 0) = .popD) : m.exec script =
    (writed script (m.fetch 1) (m.readi (m.sfr SP)) (m.setSfr SP (m.sfr SP - 1))).map fun m₁ =>
      m₁.setPc (m₁.pc + 2) := by
  have htop : m.dropTop.readi (m.sfr SP) = m.readi (m.sfr SP) := m.dropTop_readi _
  have hrun : Ops.popD.code.run (cpuExec script) m =
      (writed script (m.fetch 1) (m.readi (m.sfr SP)) m.dropTop).map fun m₁ => ((), m₁) := by
    rw [← htop]
    exact Cpu.run_writed _ _
  refine (dispatch_eq script hop m).trans ?_
  change (Ops.popD.code.run (cpuExec script) m).map _ = _
  rw [hrun, Option.map_map]
  rfl

/-- Code that moves `pc` itself is all an opcode does. -/
lemma exec_of_run {l : Label} (hop : insnmap (m.fetch 0) = l)
    (hbytes : (l.record (m.fetch 0)).bytes = 0)
    (hrun : (l.record (m.fetch 0)).code.run (cpuExec script) m = some ((), m')) :
    m.exec script = some m' := by
  have hexec := dispatch_of_run hop hrun
  rw [hbytes] at hexec
  exact hexec.trans (congrArg some (setPc_eq_self (BitVec.add_zero _)))

/-- The state after a call that returns to `next`. -/
def called (m : Machine σ) (next target : Word) : Machine σ :=
  (((m.setPc next).push (lo next)).push (hi next)).setPc target

/-- A call pushes the address of the next instruction. -/
lemma exec_call (script : Script σ)
    (hop : insnmap (m.fetch 0) = .lcall ∨ insnmap (m.fetch 0) = .acall) :
    ∃ target, m.exec script =
      some (m.called (m.pc + BitVec.ofNat 16 (insnBytes (m.fetch 0))) target) := by
  have hlength : ∀ op : Byte, (insnmap op = .lcall → insnBytes op = 3) ∧
      (insnmap op = .acall → insnBytes op = 2) := by decide +kernel
  rcases hop with hop | hop
  · rw [(hlength _).1 hop]
    exact ⟨word (m.fetch 1) (m.fetch 2), exec_of_run hop rfl rfl⟩
  · rw [(hlength _).2 hop]
    have hrun : Ops.acall.code.run (cpuExec script) m = some ((), m.called (m.pc + 2)
        ((((m.fetch 1).setWidth 16 ||| (((m.fetch 0).setWidth 16 <<< 3) &&& 0x700)) &&& 0x7ff) |||
          ((m.pc + 2) &&& ~~~(0x7ff : Word)))) := rfl
    exact ⟨_, exec_of_run hop rfl hrun⟩

/-- The state after a return, apart from what `RETI` does to the levels. -/
def returned (m : Machine σ) : Machine σ :=
  m.dropTop.dropTop.setPc (word (m.readi (m.sfr SP)) (m.readi (m.sfr SP - 1)))

/-- `reladdr = POP() << 8; reladdr |= POP(); pc = reladdr;` -/
lemma run_popPc : Ops.popPc.run (cpuExec script) m = some ((), m.returned) := by
  have hhigh : m.dropTop.readi (m.sfr SP) = m.readi (m.sfr SP) := m.dropTop_readi _
  have hlow : m.dropTop.dropTop.readi (m.dropTop.sfr SP) = m.readi (m.sfr SP - 1) := by
    rw [dropTop_readi, dropTop_readi, dropTop_sp]
  rw [returned, ← hhigh, ← hlow]
  rfl

/-- `RET` takes two bytes off the stack and goes to the address they make. -/
lemma exec_ret (script : Script σ) (hop : insnmap (m.fetch 0) = .ret) :
    m.exec script = some m.returned := exec_of_run hop rfl run_popPc

/-- `RETI` does the same after it has left an interrupt level. -/
lemma exec_reti (script : Script σ) (hop : insnmap (m.fetch 0) = .reti) :
    m.exec script = some m.irqlevelReti.returned := by
  have hrun : Ops.reti.code.run (cpuExec script) m = some ((), m.irqlevelReti.returned) := by
    change Ops.popPc.run (cpuExec script) m.irqlevelReti = _
    exact run_popPc
  exact exec_of_run hop rfl hrun

/-- The entry of an interrupt is a call that returns to where the program was. -/
lemma handleIrq_of_pos (h : 0 < m.irqSelect.1) :
    ∃ l target, m.handleIrq = (m.setLevel l).called m.pc target := by
  obtain ⟨l, hl⟩ := m.irqSelect_eq
  refine ⟨l, BitVec.ofInt 16 m.irqSelect.1, ?_⟩
  unfold handleIrq called
  dsimp only
  rw [if_neg (Int.not_le.2 h), hl]
  rfl

/-! ## Steps -/

/-- A call puts the two bytes of the return address on the stack, the high one on top. -/
lemma stacked_called {base : Byte} {l : List Byte} (h : RingStack.Holds m.readi base (m.sfr SP) l)
    (hroom : l.length + 2 ≤ 256) (next target : Word) :
    RingStack.Holds (m.called next target).readi base ((m.called next target).sfr SP)
      (hi next :: lo next :: l) := by
  have hsame : RingStack.Holds (m.setPc next).readi base ((m.setPc next).sfr SP) l := h
  exact stacked_push_two hsame hroom (lo next) (hi next)

/-- A return takes off a frame of two bytes and goes to the address in it. -/
lemma stacked_returned {base : Byte} {l : List Byte} {w : Word}
    (h : RingStack.Holds m.readi base (m.sfr SP) (hi w :: lo w :: l)) :
    RingStack.Holds m.returned.readi base (m.returned.sfr SP) l ∧ m.returned.pc = w := by
  have hdrop := stacked_dropTop h
  have hhigh : m.readi (m.sfr SP) = hi w := h.head
  have hlow : m.readi (m.sfr SP - 1) = lo w := by
    have hhead := hdrop.head
    rwa [dropTop_sp, dropTop_readi] at hhead
  refine ⟨stacked_dropTop hdrop, ?_⟩
  rw [returned, setPc_pc, hhigh, hlow, word_hi_lo]

/-- `PUSH` stores its operand above the frames, which reading it has not disturbed. -/
lemma stacked_operand {base : Byte} {l : List Byte} (h : RingStack.Holds m.readi base (m.sfr SP) l)
    (hroom : l.length + 1 ≤ 256)
    (hquiet : Undisturbed (m.sfr SP) l.length (m.setSfr SP (m.sfr SP + 1)) m₁) (v : Byte) :
    RingStack.Holds (m₁.writei (m.sfr SP + 1) v).readi base
      ((m₁.writei (m.sfr SP + 1) v).sfr SP) (v :: l) := by
  have hsp : (m₁.writei (m.sfr SP + 1) v).sfr SP = m.sfr SP + 1 := by
    rw [sfr, setCell_apply, if_neg (iramCell_ne_sfr _ (by decide)).symm]
    exact hquiet.sp.trans (m.sfr_setSfr_self SP _)
  have hread : RingStack.Holds m₁.readi base (m.sfr SP) l := by
    refine h.congr fun i hi => (hquiet.cells i hi).trans ?_
    rw [readi, setCell_apply, if_neg (iramCell_ne_sfr _ (by decide))]
  rw [hsp]
  refine hread.push hroom ?_ fun a ha => ?_
  · rw [readi, setCell_apply]
    exact if_pos rfl
  · rw [readi, setCell_apply]
    exact if_neg fun heq => ha (iramCell_inj.1 heq)

/-- Every step of the discipline keeps the frames in internal RAM, in their order. -/
lemma StackStep.stacked {base : Byte} {c c' : Machine σ × List Frame} {a : StackAct}
    (h : StackStep script c a c') (hc : Stacked base c) : Stacked base c' := by
  unfold Stacked at hc ⊢
  cases h with
  | push hop hread hquiet hroom h =>
    rw [exec_push script hop, hread, Option.map_some] at h
    obtain rfl := Option.some.inj h
    exact stacked_operand hc hroom hquiet _
  | pop hop hwrite hquiet h =>
    rw [exec_pop script hop, hwrite, Option.map_some] at h
    obtain rfl := Option.some.inj h
    have hdrop := stacked_dropTop hc
    have hsame := stacked_undisturbed hdrop (by rw [dropTop_sp]; exact hquiet)
    exact hsame
  | call hop hroom h =>
    obtain ⟨target, hexec⟩ := exec_call script hop
    obtain rfl := Option.some.inj (hexec.symm.trans h)
    exact stacked_called hc hroom _ target
  | ret hop h =>
    obtain rfl := Option.some.inj ((exec_ret script hop).symm.trans h)
    exact (stacked_returned hc).1
  | enter hvec hroom =>
    obtain ⟨l, target, hirq⟩ := handleIrq_of_pos hvec
    dsimp only
    rw [hirq]
    exact stacked_called (m := Machine.setLevel _ l) hc hroom _ target
  | reti hop h =>
    obtain rfl := Option.some.inj ((exec_reti script hop).symm.trans h)
    exact (stacked_returned (m := Machine.irqlevelReti _) hc).1
  | other hquiet => exact stacked_undisturbed hc hquiet

/-- What holds of the next step where the frames are on the stack: a `POP` stores the byte that was
pushed, returns go where they should, and no push stores in a special function register. -/
structure Disciplined (script : Script σ) (base : Byte) (c : Machine σ × List Frame) : Prop where
  sp : c.1.sfr SP = base + BitVec.ofNat 8 (stackBytes c.2).length
  pop : ∀ v fs m', c.2 = .byte v :: fs → insnmap (c.1.fetch 0) = .popD →
    c.1.exec script = some m' → ∃ m₁,
      writed script (c.1.fetch 1) v (c.1.setSfr SP (c.1.sfr SP - 1)) = some m₁ ∧
        m' = m₁.setPc (m₁.pc + 2)
  ret : ∀ w fs m', c.2 = .ret w :: fs → insnmap (c.1.fetch 0) = .ret →
    c.1.exec script = some m' → m'.pc = w
  reti : ∀ w fs m', c.2 = .irq w :: fs → insnmap (c.1.fetch 0) = .reti →
    c.1.exec script = some m' → m'.pc = w
  push : ∀ m', insnmap (c.1.fetch 0) = .pushD → c.1.exec script = some m' → ∃ v m₁,
    readd script (c.1.fetch 1) (c.1.setSfr SP (c.1.sfr SP + 1)) = some (v, m₁) ∧
      ∀ a : Byte, 0x80 ≤ a → m'.sfr a = m₁.sfr a
  call : ∀ m', insnmap (c.1.fetch 0) = .lcall ∨ insnmap (c.1.fetch 0) = .acall →
    c.1.exec script = some m' → ∀ a : Byte, 0x80 ≤ a → a ≠ SP → m'.sfr a = c.1.sfr a
  enter : ∀ a : Byte, 0x80 ≤ a → a ≠ SP → c.1.handleIrq.sfr a = c.1.sfr a

/-- A call changes no special function register but the stack pointer. -/
lemma called_sfr (m : Machine σ) (next target : Word) {a : Byte} (ha : 0x80 ≤ a) (hsp : a ≠ SP) :
    (m.called next target).sfr a = m.sfr a :=
  (push_sfr _ _ ha hsp).trans (push_sfr _ _ ha hsp)

/-- A machine whose stack holds its frames keeps the discipline. -/
lemma Stacked.disciplined {base : Byte} {c : Machine σ × List Frame} (h : Stacked base c) :
    Disciplined script base c := by
  obtain ⟨m, fs⟩ := c
  unfold Stacked at h
  dsimp only at h
  refine ⟨h.top_eq, ?_, ?_, ?_, ?_, ?_, ?_⟩
  · rintro v fs m' rfl hop hexec
    have htop : m.readi (m.sfr SP) = v := h.head
    rw [exec_pop script hop, htop] at hexec
    obtain ⟨m₁, hwrite, heq⟩ := Option.map_eq_some_iff.1 hexec
    exact ⟨m₁, hwrite, heq.symm⟩
  · rintro w fs m' rfl hop hexec
    obtain rfl := Option.some.inj ((exec_ret script hop).symm.trans hexec)
    exact (stacked_returned h).2
  · rintro w fs m' rfl hop hexec
    obtain rfl := Option.some.inj ((exec_reti script hop).symm.trans hexec)
    exact (stacked_returned (m := m.irqlevelReti) h).2
  · intro m' hop hexec
    rw [exec_push script hop] at hexec
    obtain ⟨y, hread, rfl⟩ := Option.map_eq_some_iff.1 hexec
    refine ⟨y.1, y.2, hread, fun a ha => ?_⟩
    rw [sfr, setPc_ramsfr, setCell_apply, if_neg (iramCell_ne_sfr _ ha).symm]
  · intro m' hop hexec a ha hsp
    obtain ⟨target, hcall⟩ := exec_call script hop
    obtain rfl := Option.some.inj (hcall.symm.trans hexec)
    exact m.called_sfr _ target ha hsp
  · intro a ha hsp
    by_cases hvec : 0 < m.irqSelect.1
    · obtain ⟨l, target, hirq⟩ := handleIrq_of_pos hvec
      rw [hirq]
      exact (m.setLevel l).called_sfr _ target ha hsp
    · obtain ⟨l, hl⟩ := m.irqSelect_eq
      unfold handleIrq
      rw [if_pos (Int.not_lt.1 hvec), hl]
      rfl

/-! ## Rounds of the emulator -/

/-- What `nextop` does in front of an instruction are such steps: an interrupt is entered or not,
and the breakpoint may move. -/
theorem nextop_stackSteps {op : Byte} {fs : List Frame} (ht : m.ramsfrtrap = sfrInitTrap)
    (hroom : (stackBytes fs).length + 2 ≤ 256) (h : nextop script m = some (op, m₁)) :
    op = m₁.fetch 0 ∧ ∃ fs' tr, (fs' = fs ∨ fs' = .irq m.pc :: fs) ∧
      Run (StackStep script) (m, fs) tr (m₁, fs') := by
  obtain ⟨mask, val, heq⟩ := nextop_eq script ht
  obtain ⟨rfl, rfl⟩ := Prod.mk.inj (Option.some.inj (h.symm.trans heq))
  have hmove : ∀ (n : Machine σ) gs,
      StackStep script (n, gs) .other (n.setBreakpoint mask val, gs) :=
    fun n gs => .other ⟨rfl, fun _ _ => rfl⟩
  refine ⟨rfl, ?_⟩
  unfold pollIrq
  split_ifs with hpend
  · by_cases hvec : 0 < m.irqSelect.1
    · exact ⟨_, _, .inr rfl, .head (.enter hvec hroom) (.head (hmove _ _) (.refl _))⟩
    · obtain ⟨l, hl⟩ := m.irqSelect_eq
      have hlevel : m.handleIrq = m.setLevel l := by
        unfold handleIrq
        rw [if_pos (Int.not_lt.1 hvec), hl]
      have hother : StackStep script (m, fs) .other (m.setLevel l, fs) :=
        .other ⟨rfl, fun _ _ => rfl⟩
      rw [hlevel]
      exact ⟨_, _, .inl rfl, .head hother (.head (hmove _ _) (.refl _))⟩
  · exact ⟨_, _, .inl rfl, .head (hmove _ _) (.refl _)⟩

/-! ## Runs -/

/-- In every well-nested run, at most 256 bytes deep, that starts with no frame in any state
whatever, each step keeps the discipline, and where no frame is left `SP` is where it was. -/
theorem run_disciplined (script : Script σ) {m₀ m : Machine σ} {fs : List Frame}
    {tr : List ((Machine σ × List Frame) × StackAct)}
    (hrun : Run (StackStep script) (m₀, []) tr (m, fs)) :
    Run.Throughout (Disciplined script (m₀.sfr SP)) tr (m, fs) ∧
      (fs = [] → m.sfr SP = m₀.sfr SP) := by
  obtain ⟨htr, hlast⟩ := hrun.invariant (I := Stacked (m₀.sfr SP)) (fun _ _ _ hc h => h.stacked hc)
    (RingStack.Holds.nil _ _)
  refine ⟨⟨fun e he => (htr e he).disciplined, hlast.disciplined⟩, ?_⟩
  rintro rfl
  exact hlast.top_of_nil

/-- A machine about to run an `LCALL` to the `RET` behind it, with the stack pointer at the last
byte of the internal memory. -/
def callAtTop : Machine Unit := (running [0x12, 0x00, 0x03, 0x22]).setSfr SP 0xff

/-- The theorem for a call and a return where `SP` wraps around. -/
theorem run_disciplined_wrap : ∃ m : Machine Unit, m.sfr SP = 0xff ∧
    Disciplined noHooks 0xff (m, []) := by
  have hcall : (callAtTop.exec noHooks).map (fun m => m.fetch 0) = some 0x22 := by decide +kernel
  obtain ⟨m₁, hm₁, hfetch⟩ := Option.map_eq_some_iff.1 hcall
  have hret : insnmap (m₁.fetch 0) = .ret := by
    rw [hfetch]
    decide +kernel
  have hrun : Run (StackStep noHooks) (callAtTop, []) _ (m₁.returned, []) :=
    .head (.call (.inl (by decide +kernel)) (by decide) hm₁)
      (.head (.ret hret (exec_ret noHooks hret)) (.refl _))
  obtain ⟨hall, hsp⟩ := run_disciplined noHooks hrun
  exact ⟨m₁.returned, hsp rfl, hall.2⟩

end Machine

end Emu51

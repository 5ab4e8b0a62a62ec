import Emu51.Firmware.Assembled
import Emu51.Library.RingStack
import Emu51.Registers.DataPointer
import Mathlib.Tactic.IntervalCases

/-!
# Listings on the machine

What a listing does as it stands (`Config.step`), the assembled code does on the machine: each
instruction of the listing is one instruction of the machine, with the registers, the stack and
`pc` in the places they should be in. So a routine that returns in its listing returns on the
machine, wherever it has been placed and whatever has called it (`Machine.routine_returns`).
-/

namespace Emu51

variable {σ : Type}

namespace View

variable {e : Scope σ} {v : View σ} {l : Label}

/-! ## The stack -/

/-- The view after a push. -/
def pushed (v : View σ) (y : Byte) : View σ :=
  { v with sp := v.sp + 1, cells := Function.update v.cells (v.sp + 1) y }

/-- A push counts the stack pointer up and puts the value into the cell it points to then. -/
lemma run_push {x : Cpu Byte} {y : Byte}
    (hx : x.run (viewExec e) { v with sp := v.sp + 1 } = some (y, { v with sp := v.sp + 1 }))
    (howns : e.Owns (v.sp + 1)) : (Cpu.push x).run (viewExec e) v = some ((), v.pushed y) := by
  have hstore : (Cpu.writei (v.sp + 1) y).run (viewExec e) { v with sp := v.sp + 1 } =
      some ((), v.pushed y) := run_writei howns y
  simp only [Cpu.push, Prog.run_bind, run_get_sp, run_set_sp, Option.bind_some, hx, hstore]

/-- A pop gives the cell the stack pointer points to and counts the pointer down. -/
lemma run_pop (howns : e.Owns v.sp) :
    Cpu.pop.run (viewExec e) v = some (v.cells v.sp, { v with sp := v.sp - 1 }) := by
  have hread : (Cpu.readi v.sp).run (viewExec e) { v with sp := v.sp - 1 } =
      some (v.cells v.sp, { v with sp := v.sp - 1 }) := run_readi howns
  simp only [Cpu.pop, Prog.run_bind, run_get_sp, run_set_sp, Option.bind_some, hread]

/-- A call pushes the low byte of `pc` and then the high one. -/
lemma run_pushPc (howns : e.Owns (v.sp + 1)) (howns' : e.Owns (v.sp + 1 + 1)) :
    Ops.pushPc.run (viewExec e) v = some ((), (v.pushed (lo v.pc)).pushed (hi v.pc)) := by
  have hlow : (Cpu.push (lo <$> Cpu.getPc)).run (viewExec e) v = some ((), v.pushed (lo v.pc)) :=
    run_push rfl howns
  have hhigh : (Cpu.push (hi <$> Cpu.getPc)).run (viewExec e) (v.pushed (lo v.pc)) =
      some ((), (v.pushed (lo v.pc)).pushed (hi v.pc)) := run_push rfl howns'
  rw [Ops.pushPc, Prog.run_bind, hlow, Option.bind_some, hhigh]

/-- A return pops the high byte of `pc` and then the low one. -/
lemma run_popPc (howns : e.Owns v.sp) (howns' : e.Owns (v.sp - 1)) :
    Ops.popPc.run (viewExec e) v = some ((), { v with
      sp := v.sp - 1 - 1
      pc := word (v.cells v.sp) (v.cells (v.sp - 1)) }) := by
  have hlow : Cpu.pop.run (viewExec e) { v with sp := v.sp - 1 } =
      some (v.cells (v.sp - 1), { v with sp := v.sp - 1 - 1 }) := run_pop howns'
  rw [Ops.popPc, Prog.run_bind, run_pop howns, Option.bind_some, Prog.run_bind, hlow,
    Option.bind_some, run_setPc]

end View

/-! ## Programs in part -/

/-- One instruction, if it is at one of the given positions. -/
def Config.stepOn (P : ℕ → Prop) [DecidablePred P] (e : Scope σ) (code : List (Insn ℕ))
    (c : Config σ) : Option (Config σ) :=
  if ∃ p ∈ c.pos, P p then c.step e code else none

/-- The instructions at the given positions have been assembled for `base`, and they are there. -/
def LoadedOn (P : ℕ → Prop) (readc : Word → Byte) (code : List (Insn ℕ)) (base : Word) : Prop :=
  ∀ p i, P p → code[p]? = some i →
    ∃ bs, i.encode (codeAddr code base) (codeAddr code base (p + 1)) = some bs ∧
      BytesAt readc (codeAddr code base p) bs

/-- Code that is loaded is loaded wherever only part of it is asked for. -/
lemma Loaded.on {readc : Word → Byte} {code : List (Insn ℕ)} {base : Word}
    (h : Loaded readc code base) (P : ℕ → Prop) : LoadedOn P readc code base :=
  fun _ _ _ hi => h.at hi

/-- A step with every position allowed is a step of the listing. -/
lemma Config.stepOn_true {e : Scope σ} {code : List (Insn ℕ)} {c c' : Config σ}
    (h : c.step e code = some c') : c.stepOn (fun _ => True) e code = some c' := by
  cases hp : c.pos with
  | none =>
    rw [step, hp] at h
    exact absurd h.symm (Option.some_ne_none _)
  | some p => rw [stepOn, if_pos ⟨p, hp, trivial⟩, h]

/-- A run of a listing is a run with every position allowed. -/
lemma Config.leads_stepOn_true {e : Scope σ} {code : List (Insn ℕ)} {c c' : Config σ}
    (h : Leads (step e code) c c') : Leads (stepOn (fun _ => True) e code) c c' := by
  obtain ⟨c₁, hlead, rfl⟩ := Leads.simulate (g := stepOn (fun _ => True) e code)
    (R := fun c t => t = c)
    (fun a b t hrel hstep => ⟨b, .single (hrel ▸ stepOn_true hstep), rfl⟩) h rfl
  exact hlead

/-! ## Configurations and views -/

/-- The address of a position, or of the caller. -/
def posAddr (code : List (Insn ℕ)) (base ret : Word) : Option ℕ → Word
  | none => ret
  | some p => codeAddr code base p

/-- The bytes of an entry of the stack, the topmost first. -/
def Slot.bytes (code : List (Insn ℕ)) (base ret : Word) : Slot → List Byte
  | byte x => [x]
  | .ret p => [hi (posAddr code base ret p), lo (posAddr code base ret p)]

/-- The view is what the configuration says, for code at `base` that has been called from `ret`. -/
structure Realizes (e : Scope σ) (code : List (Insn ℕ)) (base ret : Word) (c : Config σ)
    (v : View σ) : Prop where
  regs : v.regs = c.regs
  pc : v.pc = posAddr code base ret c.pos
  stack : RingStack.Holds v.cells e.base v.sp (c.stack.flatMap (Slot.bytes code base ret))
  room : (c.stack.flatMap (Slot.bytes code base ret)).length + c.room = e.depth

section Stack

variable {e : Scope σ} {v : View σ} {l : List Byte} {x : Byte}

/-- Code owns as many bytes above the base of its stack as its depth says. -/
lemma owns_of_offset {a : Byte} {n : ℕ} (ha : a = e.base + BitVec.ofNat 8 (n + 1))
    (hn : n < e.depth) (hdepth : e.depth ≤ 256) : e.Owns a := by
  have hoffset : a - e.base - 1 = BitVec.ofNat 8 n := by
    rw [ha, BitVec.ofNat_add, ← BitVec.add_assoc]
    bv_omega
  rw [Scope.Owns, hoffset, BitVec.toNat_ofNat, Nat.mod_eq_of_lt (by omega)]
  exact hn

/-- While there is room, the next byte above the stack is owned. -/
lemma owns_next (h : RingStack.Holds v.cells e.base v.sp l) (hroom : l.length < e.depth)
    (hdepth : e.depth ≤ 256) : e.Owns (v.sp + 1) :=
  owns_of_offset (by rw [h.top_eq, BitVec.ofNat_add, ← BitVec.add_assoc]; rfl) hroom hdepth

/-- The topmost byte of the stack is owned. -/
lemma owns_top (h : RingStack.Holds v.cells e.base v.sp (x :: l)) (hroom : l.length < e.depth)
    (hdepth : e.depth ≤ 256) : e.Owns v.sp := owns_of_offset h.top_eq hroom hdepth

/-- After a push the stack has the new byte on top. -/
lemma holds_pushed (h : RingStack.Holds v.cells e.base v.sp l) (hroom : l.length < 256) (x : Byte) :
    RingStack.Holds (v.pushed x).cells e.base (v.pushed x).sp (x :: l) :=
  h.push hroom (Function.update_self ..) fun _ ha => Function.update_of_ne ha ..

/-- Two bytes pushed one after the other are on top, if there is room for both. -/
lemma holds_pushed_two (h : RingStack.Holds v.cells e.base v.sp l) (hroom : l.length + 2 ≤ e.depth)
    (hdepth : e.depth ≤ 256) (x y : Byte) :
    e.Owns (v.sp + 1) ∧ e.Owns (v.sp + 1 + 1) ∧ RingStack.Holds ((v.pushed x).pushed y).cells e.base
      ((v.pushed x).pushed y).sp (y :: x :: l) := by
  have hlen : l.length < e.depth := by omega
  have hlen' : (x :: l).length < e.depth := by
    rw [List.length_cons]
    omega
  have hfirst := holds_pushed h (Nat.lt_of_lt_of_le hlen hdepth) x
  have hsecond := holds_pushed hfirst (Nat.lt_of_lt_of_le hlen' hdepth) y
  have howns : e.Owns ((v.pushed x).sp + 1) := owns_next hfirst hlen' hdepth
  exact ⟨owns_next h hlen hdepth, howns, hsecond⟩

end Stack

/-- The address `acall` puts together is its target, if that is in the page of the next
instruction. -/
lemma acall_target {t next : Word} (h : t &&& 0xf800 = next &&& 0xf800) :
    ((((lo t).setWidth 16 |||
      (((((hi t &&& 7) <<< 5) ||| 0x11 : Byte).setWidth 16 <<< 3) &&& 0x700)) &&& 0x7ff) |||
        (next &&& ~~~(0x7ff : Word))) = t := by
  have hlow : (((lo t).setWidth 16 |||
      (((((hi t &&& 7) <<< 5) ||| 0x11 : Byte).setWidth 16 <<< 3) &&& 0x700)) &&& 0x7ff) =
        t &&& 0x7ff := by
    apply BitVec.eq_of_getLsbD_eq
    intro i hi
    interval_cases i <;> simp [lo, Emu51.hi]
  have hpage : next &&& ~~~(0x7ff : Word) = t &&& 0xf800 := h.symm
  rw [hlow, hpage]
  apply BitVec.eq_of_getLsbD_eq
  intro i hi
  interval_cases i <;> simp

namespace Realizes

variable {e : Scope σ} {code : List (Insn ℕ)} {base ret : Word} {c c' : Config σ} {v : View σ}
  {p : ℕ} {bs : List Byte}

/-- `PUSH direct` does on the view what the listing does on its stack. -/
lemma push (hs : Realizes e code base ret c v) (hdepth : e.depth ≤ 256) {a : Byte}
    (hbytes : BytesAt e.readc v.pc [0xc0, a])
    (hnext : v.pc + BitVec.ofNat 16 2 = codeAddr code base p)
    (hc : c.exec e p (.push a) = some c') :
    ∃ v', View.step e v = some v' ∧ Realizes e code base ret c' v' := by
  unfold Config.exec at hc
  dsimp only at hc
  split at hc
  · next n hroom =>
    obtain ⟨x, hx, rfl⟩ := Option.map_eq_some_iff.1 hc
    rw [← hs.regs] at hx
    have hlen := hs.room
    rw [hroom] at hlen
    have hfree : (c.stack.flatMap (Slot.bytes code base ret)).length < e.depth := by omega
    have hrun : Ops.pushD.code.run (viewExec e) v = some ((), v.pushed x) :=
      View.run_push (View.run_direct1 hbytes.one hx) (owns_next hs.stack hfree hdepth)
    refine ⟨_, View.step_of_run (l := .pushD) hbytes.zero rfl hrun hnext, hs.regs, rfl,
      holds_pushed hs.stack (Nat.lt_of_lt_of_le hfree hdepth) x, ?_⟩
    simp only [List.flatMap_cons, Slot.bytes, List.length_append, List.length_singleton]
    omega
  · exact absurd hc.symm (Option.some_ne_none _)

/-- `POP direct` does on the view what the listing does on its stack. -/
lemma pop (hs : Realizes e code base ret c v) (hdepth : e.depth ≤ 256) {a : Byte}
    (hbytes : BytesAt e.readc v.pc [0xd0, a])
    (hnext : v.pc + BitVec.ofNat 16 2 = codeAddr code base p)
    (hc : c.exec e p (.pop a) = some c') :
    ∃ v', View.step e v = some v' ∧ Realizes e code base ret c' v' := by
  unfold Config.exec at hc
  dsimp only at hc
  split at hc
  · next x k hstack =>
    obtain ⟨s, hs', rfl⟩ := Option.map_eq_some_iff.1 hc
    rw [← hs.regs] at hs'
    have hcells : RingStack.Holds v.cells e.base v.sp
        (x :: k.flatMap (Slot.bytes code base ret)) := by
      have hcells := hs.stack
      rwa [hstack] at hcells
    have hlen : (k.flatMap (Slot.bytes code base ret)).length + 1 + c.room = e.depth := by
      rw [← hs.room, hstack]
      rfl
    have htop : v.cells v.sp = x := hcells.head
    have hpop := View.run_pop (owns_top hcells (by omega) hdepth)
    have hrun : Ops.popD.code.run (viewExec e) v =
        some ((), { v with regs := s, sp := v.sp - 1 }) := by
      have hwrite : (Cpu.writed a x).run (viewExec e) { v with sp := v.sp - 1 } =
          some ((), { v with regs := s, sp := v.sp - 1 }) := View.run_writed hs'
      rw [htop] at hpop
      simp only [Ops.popD, Ops.toIram, Prog.run_bind, View.run_fetch, hbytes.one, Option.bind_some,
        hpop, hwrite]
    refine ⟨_, View.step_of_run (l := .popD) hbytes.zero rfl hrun hnext, rfl, rfl, hcells.pop, ?_⟩
    rw [← hlen, Nat.add_assoc, Nat.add_comm 1]
  · exact absurd hc.symm (Option.some_ne_none _)

/-- A call of either kind pushes the return address, the low byte first, and goes to its label. -/
lemma call (hs : Realizes e code base ret c v) (hdepth : e.depth ≤ 256) {l : ℕ}
    (hrun : e.Owns (v.sp + 1) → e.Owns (v.sp + 1 + 1) → View.step e v = some
      { (v.pushed (lo (codeAddr code base p))).pushed (hi (codeAddr code base p)) with
        pc := codeAddr code base l })
    (hc : c.call l p = some c') :
    ∃ v', View.step e v = some v' ∧ Realizes e code base ret c' v' := by
  unfold Config.call at hc
  split at hc
  · next n hroom =>
    obtain rfl := Option.some.inj hc
    have hlen := hs.room
    rw [hroom] at hlen
    obtain ⟨howns, howns', hstack⟩ := holds_pushed_two hs.stack (hlen ▸ by omega) hdepth
      (lo (codeAddr code base p)) (hi (codeAddr code base p))
    refine ⟨_, hrun howns howns', hs.regs, rfl, hstack, ?_⟩
    rw [← hlen, List.flatMap_cons, List.length_append]
    exact Nat.add_assoc .. ▸ Nat.add_comm .. ▸ rfl
  · exact absurd hc.symm (Option.some_ne_none _)

/-- `ACALL` leaves the return address on the stack and goes to its label, if the label is in the
same page. -/
lemma acall (hs : Realizes e code base ret c v) (hdepth : e.depth ≤ 256) {l : ℕ}
    (hpage : codeAddr code base l &&& 0xf800 = codeAddr code base p &&& 0xf800)
    (hbytes : BytesAt e.readc v.pc
      [((hi (codeAddr code base l) &&& 7) <<< 5) ||| 0x11, lo (codeAddr code base l)])
    (hnext : v.pc + BitVec.ofNat 16 2 = codeAddr code base p) (hc : c.call l p = some c') :
    ∃ v', View.step e v = some v' ∧ Realizes e code base ret c' v' := by
  have hlabel : ∀ x : Byte, insnmap (((x &&& 7) <<< 5) ||| 0x11) = .acall := by decide +kernel
  refine hs.call hdepth (fun howns howns' => ?_) hc
  refine View.step_of_run hbytes.zero (hlabel _) (t :=
    { (v.pushed (lo (codeAddr code base p))).pushed (hi (codeAddr code base p)) with
      pc := codeAddr code base l }) ?_ (BitVec.add_zero _)
  have hpush := View.run_pushPc (v := { v with pc := codeAddr code base p }) howns howns'
  have hadvance : (Cpu.advance 2).run (viewExec e) v =
      some ((), { v with pc := codeAddr code base p }) := by
    rw [View.run_advance, show v.pc + 2 = _ from hnext]
  have hzero : e.readc (v.pc + 0) = ((hi (codeAddr code base l) &&& 7) <<< 5) ||| 0x11 :=
    hbytes 0 (by simp)
  change Ops.acall.code.run (viewExec e) v = _
  simp only [Ops.acall, Prog.run_bind, View.run_fetch, hzero, hbytes.one, hadvance, hpush,
    Option.bind_some, View.run_getPc, View.run_setPc]
  congr 3
  exact acall_target hpage

/-- `LCALL` leaves the return address on the stack and goes to its label, wherever that is. -/
lemma lcall (hs : Realizes e code base ret c v) (hdepth : e.depth ≤ 256) {l : ℕ}
    (hbytes : BytesAt e.readc v.pc
      [0x12, hi (codeAddr code base l), lo (codeAddr code base l)])
    (hnext : v.pc + BitVec.ofNat 16 3 = codeAddr code base p) (hc : c.call l p = some c') :
    ∃ v', View.step e v = some v' ∧ Realizes e code base ret c' v' := by
  refine hs.call hdepth (fun howns howns' => ?_) hc
  refine View.step_of_run (l := .lcall) hbytes.zero rfl (t :=
    { (v.pushed (lo (codeAddr code base p))).pushed (hi (codeAddr code base p)) with
      pc := codeAddr code base l }) ?_ (BitVec.add_zero _)
  have hpush := View.run_pushPc (v := { v with pc := codeAddr code base p }) howns howns'
  have hadvance : (Cpu.advance 3).run (viewExec e) v =
      some ((), { v with pc := codeAddr code base p }) := by
    rw [View.run_advance, show v.pc + 3 = _ from hnext]
  change Ops.lcall.code.run (viewExec e) v = _
  simp only [Ops.lcall, Prog.run_bind, View.run_fetch, hbytes.one, hbytes.two, hadvance, hpush,
    Option.bind_some, View.run_setPc, word_hi_lo]
  rfl

/-- `RET` goes back to the position on top of the stack, or to the caller from the outermost
routine. -/
lemma returns (hs : Realizes e code base ret c v) (hdepth : e.depth ≤ 256)
    (hbytes : BytesAt e.readc v.pc [0x22]) (p : ℕ) (hc : c.exec e p .ret = some c') :
    ∃ v', View.step e v = some v' ∧ Realizes e code base ret c' v' := by
  unfold Config.exec at hc
  dsimp only at hc
  split at hc
  · next q k hstack =>
    obtain rfl := Option.some.inj hc
    have hcells : RingStack.Holds v.cells e.base v.sp (hi (posAddr code base ret q) ::
        lo (posAddr code base ret q) :: k.flatMap (Slot.bytes code base ret)) := by
      have hcells := hs.stack
      rwa [hstack] at hcells
    have hlen : (k.flatMap (Slot.bytes code base ret)).length + 2 + c.room = e.depth := by
      rw [← hs.room, hstack]
      rfl
    have hhigh : v.cells v.sp = hi (posAddr code base ret q) := hcells.head
    have hlow : v.cells (v.sp - 1) = lo (posAddr code base ret q) := hcells.pop.head
    have howns : e.Owns v.sp := owns_top hcells (by rw [List.length_cons]; omega) hdepth
    have howns' : e.Owns (v.sp - 1) :=
      owns_top (v := { v with sp := v.sp - 1 }) hcells.pop (by omega) hdepth
    have hrun := View.run_popPc howns howns'
    rw [hhigh, hlow, word_hi_lo] at hrun
    refine ⟨_, View.step_of_run (l := .ret) hbytes.zero rfl hrun (BitVec.add_zero _), hs.regs, rfl,
      hcells.pop.pop, ?_⟩
    rw [← hlen, Nat.add_assoc, Nat.add_comm 2]
  · exact absurd hc.symm (Option.some_ne_none _)

/-- An instruction of the listing is one of the memory, if it has been assembled and is there. -/
theorem step_at (hs : Realizes e code base ret c v) (hdepth : e.depth ≤ 256) {i : Insn ℕ}
    (hp : c.pos = some p) (hi : code[p]? = some i)
    (henc : i.encode (codeAddr code base) (codeAddr code base (p + 1)) = some bs)
    (hbytes : BytesAt e.readc (codeAddr code base p) bs) (hc : c.exec e (p + 1) i = some c') :
    ∃ v', View.step e v = some v' ∧ Realizes e code base ret c' v' := by
  have hpc : v.pc = codeAddr code base p := by rw [hs.pc, hp]; rfl
  have hnext : v.pc + BitVec.ofNat 16 i.size = codeAddr code base (p + 1) := by
    rw [codeAddr_succ base hi, hpc]
  rw [← hpc] at hbytes
  unfold Config.exec at hc
  split at hc
  case h_1 a =>
    obtain rfl := Option.some.inj henc
    exact hs.push hdepth hbytes hnext hc
  case h_2 a =>
    obtain rfl := Option.some.inj henc
    exact hs.pop hdepth hbytes hnext hc
  case h_3 l =>
    obtain ⟨hpage, heq⟩ := Option.ite_none_right_eq_some.1 henc
    obtain rfl := Option.some.inj heq
    exact hs.acall hdepth hpage hbytes hnext hc
  case h_4 l =>
    obtain rfl := Option.some.inj henc
    exact hs.lcall hdepth hbytes hnext hc
  case h_5 =>
    obtain rfl := Option.some.inj henc
    exact hs.returns hdepth hbytes p hc
  case h_6 =>
    obtain ⟨⟨s, q⟩, heval, rfl⟩ := Option.map_eq_some_iff.1 hc
    rw [← hs.regs] at heval
    exact ⟨_, View.executes i henc hbytes hnext heval, rfl, rfl, hs.stack, hs.room⟩

/-- One instruction of the listing is one instruction of the assembled code. -/
theorem step (hs : Realizes e code base ret c v) (hdepth : e.depth ≤ 256) {P : ℕ → Prop}
    [DecidablePred P] (hload : LoadedOn P e.readc code base) (hc : c.stepOn P e code = some c') :
    ∃ v', View.step e v = some v' ∧ Realizes e code base ret c' v' := by
  unfold Config.stepOn at hc
  obtain ⟨⟨p, hp, hon⟩, hstep⟩ := Option.ite_none_right_eq_some.1 hc
  have hpos : c.pos = some p := hp
  unfold Config.step at hstep
  rw [hpos] at hstep
  dsimp only at hstep
  split at hstep
  · exact absurd hstep.symm (Option.some_ne_none _)
  · next i hi =>
    obtain ⟨bs, henc, hbytes⟩ := hload p i hon hi
    exact hs.step_at hdepth hpos hi henc hbytes hstep

end Realizes

/-! ## Routines -/

namespace Machine

variable {script : Script σ} {code : List (Insn ℕ)} {base : Word} {m : Machine σ}

/-- The address a routine returns to. -/
def caller (m : Machine σ) : Word := word (m.readi (m.sfr SP)) (m.readi (m.sfr SP - 1))

/-- The registers a routine finds. -/
def regs (m : Machine σ) : Regs σ where
  acc := m.sfr ACC
  b := m.sfr B
  psw := m.sfr PSW
  dpl := m.sfr DPL0
  dph := m.sfr DPH0
  scon := m.sfr SCON
  r := m.rx
  out := m.uartOut
  lua := m.lua

/-- What a routine is given when it is called: the stack with its return address and `depth` bytes
in all, and the register window if it wants that. -/
def scope (m : Machine σ) (dev : Device σ) (window : Bool) (depth : ℕ) : Scope σ where
  readc := m.readc
  readx := m.readx
  dev := dev
  bank := m.reg
  window := window
  base := m.sfr SP - 2
  depth := depth

/-- A routine at a position of the code that has just been called. -/
def entry (m : Machine σ) (p depth : ℕ) : Config σ := ⟨some p, m.regs, [.ret none], depth - 2⟩

/-- Interrupts are disabled, and `DPTR` is the pair of `DPL` and `DPH`. -/
structure Ready (m : Machine σ) : Prop where
  dptr : DptrSelected m
  dps : m.sfr DPS = 0
  ea : m.ea = false

/-- The `depth` cells of the stack from the return address on are none of the register window. -/
def StackApart (m : Machine σ) (depth : ℕ) : Prop :=
  ∀ i < depth, ∀ n, iramCell (m.sfr SP - 1 + BitVec.ofNat 8 i) ≠ regCell m.reg n

/-- The state after the return, with the registers `s`. -/
structure Returned (m : Machine σ) (s : Regs σ) (m' : Machine σ) : Prop where
  pc : m'.pc = m.caller
  sp : m'.sfr SP = m.sfr SP - 2
  dptr : m'.dptr = s.dptr
  out : m'.uartOut = s.out
  lua : m'.lua = s.lua

/-- The state a program has come to. -/
structure Reached (m : Machine σ) (code : List (Insn ℕ)) (base : Word) (c : Config σ)
    (m' : Machine σ) : Prop where
  pc : m'.pc = posAddr code base m.caller c.pos
  sp : m'.sfr SP = m.sfr SP - 2 +
    BitVec.ofNat 8 (c.stack.flatMap (Slot.bytes code base m.caller)).length
  dptr : m'.dptr = c.regs.dptr
  out : m'.uartOut = c.regs.out
  lua : m'.lua = c.regs.lua

/-- A machine ready to run a listing has the first data pointer selected. -/
lemma Ready.selects (h : m.Ready) : Selects false m := by
  obtain ⟨-, s, hs⟩ := h.dptr
  cases s with
  | false => exact hs
  | true => exact absurd (h.dps.symm.trans hs.dps) (by decide)

/-- `DPTR` as the registers have it is the one the emulator uses, the first pair. -/
lemma Ready.regs_dptr (h : m.Ready) : m.regs.dptr = m.dptr := by
  rw [h.selects.dptr]
  rfl

/-- Its view is made of its registers, its stack pointer and its internal memory. -/
lemma Ready.sees (h : m.Ready) (dev : Device σ) (window : Bool) (depth : ℕ) :
    Sees (m.scope dev window depth) ⟨m.regs, m.sfr SP, m.readi, m.pc⟩ m where
  cells :=
    { core := fun k => by cases k <;> rfl
      sp := rfl
      ie := bne_eq_false_iff_eq.1 h.ea
      window := fun _ _ => rfl
      stack := fun _ _ => rfl }
  trap := h.dptr.1
  dpl := h.selects.dpl
  dph := h.selects.dph
  bank := rfl
  out := rfl
  lua := rfl
  readc := rfl
  readx := rfl
  pc := rfl

/-- The scope a listing runs in is sound if the hooks do what the device says and the stack is apart
from the registers. -/
lemma scope_ok {dev : Device σ} {window : Bool} {depth : ℕ} (hdev : dev.Models script)
    (happart : window = true → m.StackApart depth) : (m.scope dev window depth).Ok script where
  dev := hdev
  apart hw a ha n := by
    have hadd : m.sfr SP - 1 + BitVec.ofNat 8 (a - (m.sfr SP - 2) - 1).toNat = a := by
      rw [BitVec.ofNat_toNat, BitVec.setWidth_eq]
      bv_omega
    have hne : iramCell (m.sfr SP - 1 + BitVec.ofNat 8 (a - (m.sfr SP - 2) - 1).toNat) ≠
        regCell m.reg n := happart hw _ ha n
    rwa [hadd] at hne

/-- At the entry of a routine the view is what the configuration says, with the return address on
the stack. -/
lemma entry_realizes (dev : Device σ) (window : Bool) {p depth : ℕ} (hdepth : 2 ≤ depth)
    (hpc : m.pc = codeAddr code base p) :
    Realizes (m.scope dev window depth) code base m.caller (m.entry p depth)
      ⟨m.regs, m.sfr SP, m.readi, m.pc⟩ where
  regs := rfl
  pc := hpc
  stack := by
    have hstack : RingStack.Holds m.readi (m.sfr SP - 2) (m.sfr SP) [hi m.caller, lo m.caller] := by
      constructor
      · change m.sfr SP = m.sfr SP - 2 + 2
        bv_omega
      · intro i hi
        match i, hi with
        | 0, _ => exact (congrArg m.readi (BitVec.sub_zero (m.sfr SP))).trans (hi_word _ _).symm
        | 1, _ => exact (lo_word (m.readi (m.sfr SP)) (m.readi (m.sfr SP - 1))).symm
    exact hstack
  room := by
    change 2 + (depth - 2) = depth
    omega

/-- Where a program gets in its listing, it gets on the machine. -/
theorem program_reaches {P : ℕ → Prop} [DecidablePred P] {dev : Device σ} {window : Bool}
    {p depth : ℕ} (hready : m.Ready) (hdev : dev.Models script)
    (happart : window = true → m.StackApart depth) (hdepth : 2 ≤ depth) (hdepth' : depth ≤ 256)
    (hload : LoadedOn P m.readc code base) (hpc : m.pc = codeAddr code base p) {c : Config σ}
    (h : Leads (Config.stepOn P (m.scope dev window depth) code) (m.entry p depth) c) :
    ∃ m', Leads (step script) m m' ∧ m.Reached code base c m' := by
  have hok : (m.scope dev window depth).Ok script := scope_ok hdev happart
  obtain ⟨m', hlead, v, hreal, hsees⟩ := Leads.simulate (g := step script)
    (R := fun c m₁ => ∃ v, Realizes (m.scope dev window depth) code base m.caller c v ∧
      Sees (m.scope dev window depth) v m₁)
    (fun c c' m₁ hrel hstep => by
      obtain ⟨v, hreal, hsees⟩ := hrel
      obtain ⟨v', hv', hreal'⟩ := hreal.step hdepth' hload hstep
      obtain ⟨m', hm', hsees'⟩ := hsees.step hok hv'
      exact ⟨m', .single hm', v', hreal', hsees'⟩) h
    ⟨_, entry_realizes dev window hdepth hpc, hready.sees dev window depth⟩
  refine ⟨m', hlead, hsees.pc.trans hreal.pc, ?_, ?_, ?_, ?_⟩
  · exact hsees.cells.sp.trans hreal.stack.top_eq
  · rw [dptr, hsees.dph, hsees.dpl, Regs.dptr, ← hreal.regs]
    exact congrArg₂ word (hsees.cells.core .dph) (hsees.cells.core .dpl)
  · rw [hsees.out, hreal.regs]
  · rw [hsees.lua, hreal.regs]

/-- A routine that returns in its listing returns on the machine. -/
theorem routine_returns {dev : Device σ} {window : Bool} {p depth : ℕ} (hready : m.Ready)
    (hdev : dev.Models script) (happart : window = true → m.StackApart depth)
    (hdepth : 2 ≤ depth) (hdepth' : depth ≤ 256) (hload : Loaded m.readc code base)
    (hpc : m.pc = codeAddr code base p) {s : Regs σ}
    (h : Leads (Config.step (m.scope dev window depth) code) (m.entry p depth)
      ⟨none, s, [], depth⟩) :
    ∃ m', Leads (step script) m m' ∧ m.Returned s m' := by
  obtain ⟨m', hlead, hreached⟩ := program_reaches hready hdev happart hdepth hdepth' (hload.on _)
    hpc (Config.leads_stepOn_true h)
  exact ⟨m', hlead, hreached.pc, hreached.sp.trans (BitVec.add_zero _), hreached.dptr, hreached.out,
    hreached.lua⟩

/-! ## A small system -/

/-- The state in which the code in the list, which is at address 0, is about to run from `w` on.
Nothing else is in the memories, and the stack is at 0x30. -/
def calling (g : σ) (bs : List Byte) (w : Word) : Machine σ :=
  { static g fun _ => { name := "rom", size := 0x10000, mem := fun i => bs.getD i.toNat 0 } with
    ramsfr := Function.update (fun _ => 0) (dataCell SP) 0x30
    ramsfrtrap := sfrInitTrap
    rompage := fun p => some { buf := 0, ofs := p.toNat * 0x100 }
    pc := w }

/-- The code memory of the machine in the examples has the given bytes from 0 on, and zeros behind
them. -/
lemma readc_calling (g : σ) (bs : List Byte) (w a : Word) :
    (calling g bs w).readc a = bs.getD a.toNat 0 := by
  change bs.getD (((hi a).toNat * 0x100 + (lo a).toNat : ℤ).toNat) 0 = _
  congr 1
  rw [toNat_hi, toNat_lo]
  omega

/-- Its bytes lie at the address 0, as long as they fit. -/
lemma calling_bytesAt (g : σ) (w : Word) {bs : List Byte} (hlen : bs.length ≤ 0x10000) :
    BytesAt (calling g bs w).readc 0 bs := by
  intro i hi
  have hvalue : (0 + BitVec.ofNat 16 i).toNat = i := by
    bv_omega
  rw [readc_calling, hvalue, List.getD_eq_getElem?_getD, List.getElem?_eq_getElem hi]
  rfl

end Machine

end Emu51

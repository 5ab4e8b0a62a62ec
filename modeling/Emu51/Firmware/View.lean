import Emu51.Machine.Step

/-!
# What a routine sees of the machine

A routine of the firmware works with a few registers, with the stack and with the peripherals it
addresses. A `View` is that part of the state, and the operations of instructions are given a
meaning on views (`viewExec`), which leaves everything else undefined. Whatever an instruction does
to a view, it does to every machine the view is a part of (`Sees.step`), with interrupts disabled
and the trap table of `sfr_init`.
-/

namespace Emu51

variable {σ : Type}

/-! ## Registers -/

/-- The registers a routine can address beside the peripherals. -/
inductive Core where
  | acc | b | psw | dpl | dph | scon
  deriving DecidableEq

/-- Their addresses. -/
def Core.addr : Core → Byte
  | acc => ACC
  | b => B
  | psw => PSW
  | dpl => DPL0
  | dph => DPH0
  | scon => SCON

/-- The register at an address. -/
def Core.ofAddr (a : Byte) : Option Core :=
  if a = ACC then some acc
  else if a = B then some b
  else if a = PSW then some psw
  else if a = DPL0 then some dpl
  else if a = DPH0 then some dph
  else if a = SCON then some scon
  else none

/-- A register of the core is at the address it has been found by. -/
lemma Core.addr_of_ofAddr {a : Byte} {k : Core} (h : ofAddr a = some k) : a = k.addr := by
  revert a k
  decide

/-- Different registers of the core have different addresses. -/
lemma Core.addr_inj {k l : Core} : k.addr = l.addr ↔ k = l := by
  cases k <;> cases l <;> decide

/-- The peripherals behind special function registers, on the globals of the chip script. -/
structure Device (σ : Type) where
  read : Byte → σ → Option Byte
  write : Byte → Byte → σ → Option σ

/-- No peripherals. -/
def Device.none : Device σ := { read := fun _ _ => .none, write := fun _ _ _ => .none }

/-- The registers and what is behind them: the register window, what went out on the UART and the
globals of the chip script. -/
structure Regs (σ : Type) where
  acc : Byte
  b : Byte
  psw : Byte
  dpl : Byte
  dph : Byte
  scon : Byte
  r : BitVec 3 → Byte
  out : List Byte
  lua : σ

namespace Regs

/-- The contents of a register. -/
def core (s : Regs σ) : Core → Byte
  | .acc => s.acc
  | .b => s.b
  | .psw => s.psw
  | .dpl => s.dpl
  | .dph => s.dph
  | .scon => s.scon

/-- Store in a register. -/
def setCore (s : Regs σ) (k : Core) (x : Byte) : Regs σ :=
  match k with
  | .acc => { s with acc := x }
  | .b => { s with b := x }
  | .psw => { s with psw := x }
  | .dpl => { s with dpl := x }
  | .dph => { s with dph := x }
  | .scon => { s with scon := x }

/-- Setting one register of the core sets this one and leaves the others. -/
lemma core_setCore (s : Regs σ) (k l : Core) (x : Byte) :
    (s.setCore k x).core l = if l = k then x else s.core l := by
  cases k <;> cases l <;> rfl

@[simp] lemma setCore_r (s : Regs σ) (k : Core) (x : Byte) : (s.setCore k x).r = s.r := by
  cases k <;> rfl

@[simp] lemma setCore_out (s : Regs σ) (k : Core) (x : Byte) : (s.setCore k x).out = s.out := by
  cases k <;> rfl

@[simp] lemma setCore_lua (s : Regs σ) (k : Core) (x : Byte) : (s.setCore k x).lua = s.lua := by
  cases k <;> rfl

/-- `DPTR`. -/
def dptr (s : Regs σ) : Word := word s.dph s.dpl

/-- A byte goes out on the UART, which sets `TI`. -/
def send (s : Regs σ) (x : Byte) : Regs σ :=
  { s with scon := s.scon ||| SCON_TI, out := s.out ++ [x] }

/-- Read by direct address. -/
def read (dev : Device σ) (s : Regs σ) (a : Byte) : Option Byte :=
  match Core.ofAddr a with
  | some k => some (s.core k)
  | none => dev.read a s.lua

/-- Write by direct address. -/
def write (dev : Device σ) (s : Regs σ) (a x : Byte) : Option (Regs σ) :=
  match Core.ofAddr a with
  | some k => some (s.setCore k x)
  | none =>
    if a = SBUF then some (s.send x)
    else (dev.write a x s.lua).map fun g => { s with lua := g }

end Regs

/-! ## Views -/

/-- What a routine sees change. -/
structure View (σ : Type) where
  regs : Regs σ
  sp : Byte
  cells : Byte → Byte
  pc : Word

/-- What stays the same while a routine runs: the memories, the peripherals, the place of the
register window, whether the routine uses it, and the internal RAM above `base` that belongs to the
stack. -/
structure Scope (σ : Type) where
  readc : Word → Byte
  readx : Word → Byte
  dev : Device σ
  bank : RegBase
  window : Bool
  base : Byte
  depth : ℕ

namespace Scope

/-- The cell belongs to the stack. -/
def Owns (e : Scope σ) (a : Byte) : Prop := (a - e.base - 1).toNat < e.depth

instance (e : Scope σ) (a : Byte) : Decidable (e.Owns a) := inferInstanceAs (Decidable (_ < _))

end Scope

/-- The operations on a view. What reaches beyond the view is undefined. -/
def viewExec (e : Scope σ) : Prog.Handler CpuOp CpuOp.Res (View σ)
  | .fetch ofs, v => some (e.readc (v.pc + ofs), v)
  | .readc addr, v => some (e.readc addr, v)
  | .readx addr, v => some (e.readx addr, v)
  | .readd addr, v => (v.regs.read e.dev addr).map fun x => (x, v)
  | .writed addr x, v => (v.regs.write e.dev addr x).map fun s => ((), { v with regs := s })
  | .readi addr, v => if e.Owns addr then some (v.cells addr, v) else none
  | .writei addr x, v =>
      if e.Owns addr then some ((), { v with cells := Function.update v.cells addr x }) else none
  | .getRx n, v => if e.window then some (v.regs.r n, v) else none
  | .setRx n x, v =>
      if e.window then some ((), { v with regs.r := Function.update v.regs.r n x }) else none
  | .get .acc, v => some (v.regs.acc, v)
  | .get .b, v => some (v.regs.b, v)
  | .get .psw, v => some (v.regs.psw, v)
  | .get .sp, v => some (v.sp, v)
  | .set .acc x, v => some ((), { v with regs.acc := x })
  | .set .b x, v => some ((), { v with regs.b := x })
  | .set .psw x, v => some ((), { v with regs.psw := x })
  | .set .sp x, v => some ((), { v with sp := x })
  | .getDptr, v => some (v.regs.dptr, v)
  | .setDph x, v => some ((), { v with regs.dph := x })
  | .setDpl x, v => some ((), { v with regs.dpl := x })
  | .getPc, v => some (v.pc, v)
  | .setPc w, v => some ((), { v with pc := w })
  | _, _ => none

/-- One instruction. -/
def View.step (e : Scope σ) (v : View σ) : Option (View σ) :=
  ((insn (e.readc v.pc)).run (viewExec e) v).map fun y => y.2

/-! ## The view of a machine -/

/-- The register can be left to a hook: it is trapped and means nothing to the emulator itself. -/
def PlainSfr (a : Byte) : Prop :=
  Machine.sfrInitTrap a = true ∧ a ≠ SCON ∧ a ≠ SBUF ∧ a ≠ DPS ∧ a ≠ IE

/-- The register is none of the view's. -/
def Unseen (a : Byte) : Prop := 0x80 ≤ a ∧ a ≠ SP ∧ a ≠ IE ∧ Core.ofAddr a = none

instance (a : Byte) : Decidable (PlainSfr a) := inferInstanceAs (Decidable (_ ∧ _))

instance (a : Byte) : Decidable (Unseen a) := inferInstanceAs (Decidable (_ ∧ _))

/-- A register left to a hook is none of the view's. -/
lemma PlainSfr.unseen {a : Byte} (h : PlainSfr a) : Unseen a := by
  revert a
  decide +kernel

/-- The hooks of the script do what the device says, and nothing else. -/
structure Device.Models (dev : Device σ) (script : Script σ) : Prop where
  read : ∀ {a g x}, dev.read a g = some x → PlainSfr a ∧ ∃ hook r,
    script.ramdHooks g a = some hook ∧ byteOfLua r = x ∧ ∀ (bus : Bus σ) (m : Machine σ) d,
      m.lua = g → (hook false d).run (Machine.luaExec bus) m = some (r, m)
  write : ∀ {a x g g'}, dev.write a x g = some g' → PlainSfr a ∧ ∃ hook r,
    script.ramdHooks g a = some hook ∧ ∀ (bus : Bus σ) (m : Machine σ), m.lua = g →
      (hook true (luaOfByte x)).run (Machine.luaExec bus) m = some (r, m.setLua g')

/-- Without peripherals there is nothing to ask of a script. -/
lemma Device.none_models (script : Script σ) : (Device.none : Device σ).Models script :=
  ⟨fun h => absurd h.symm (Option.some_ne_none _), fun h => absurd h.symm (Option.some_ne_none _)⟩

/-- The peripherals are those of the script, and the stack does not reach into the register window
if the routine uses both. -/
structure Scope.Ok (e : Scope σ) (script : Script σ) : Prop where
  dev : e.dev.Models script
  apart : e.window = true → ∀ a, e.Owns a → ∀ n, iramCell a ≠ regCell e.bank n

/-- The part of a view that is in the cells, and that interrupts are disabled. -/
structure SeesCells (e : Scope σ) (v : View σ) (f : Cell → Byte) : Prop where
  core : ∀ k : Core, f (dataCell k.addr) = v.regs.core k
  sp : f (dataCell SP) = v.sp
  ie : f (dataCell IE) &&& 0x80 = 0
  window : e.window = true → ∀ n, f (regCell e.bank n) = v.regs.r n
  stack : ∀ a, e.Owns a → f (iramCell a) = v.cells a

/-- The view is the routine's part of the machine. -/
structure Sees (e : Scope σ) (v : View σ) (m : Machine σ) : Prop where
  cells : SeesCells e v m.ramsfr
  trap : m.ramsfrtrap = Machine.sfrInitTrap
  dpl : m.dpl.1 = DPL0
  dph : m.dph.1 = DPH0
  bank : m.reg = e.bank
  out : m.uartOut = v.regs.out
  lua : m.lua = v.regs.lua
  readc : m.readc = e.readc
  readx : m.readx = e.readx
  pc : m.pc = v.pc

namespace SeesCells

variable {e : Scope σ} {v : View σ} {f : Cell → Byte}

/-- The registers of the core are special function registers, and neither the stack pointer nor the
one that enables interrupts. -/
lemma core_addr (k : Core) : 0x20 ≤ k.addr ∧ 0x80 ≤ k.addr ∧ k.addr ≠ SP ∧ k.addr ≠ IE := by
  cases k <;> decide

/-- A store to a register that is none of the view's. -/
lemma storeUnseen (h : SeesCells e v f) {a : Byte} (ha : Unseen a) (x : Byte) :
    SeesCells e v (Function.update f (dataCell a) x) := by
  obtain ⟨hhigh, hsp, hie, hcore⟩ := ha
  have hlow : 0x20 ≤ a := BitVec.le_trans (by decide) hhigh
  constructor
  · intro k
    have hk : k.addr ≠ a := by
      rintro rfl
      exact absurd hcore (by cases k <;> decide)
    rw [Function.update_of_ne (by simpa using hk), h.core]
  · rw [Function.update_of_ne (by simpa using hsp.symm), h.sp]
  · rw [Function.update_of_ne (by simpa using hie.symm), h.ie]
  · intro hw n
    rw [Function.update_of_ne (regCell_ne_sfr e.bank n hlow), h.window hw]
  · intro b hb
    rw [Function.update_of_ne (iramCell_ne_sfr b hhigh), h.stack b hb]

/-- A store to one of the registers of the core is a new value of it in the view. -/
lemma storeCore (h : SeesCells e v f) (k : Core) (x : Byte) :
    SeesCells e { v with regs := v.regs.setCore k x } (Function.update f (dataCell k.addr) x) := by
  obtain ⟨hlow, hhigh, hsp, hie⟩ := core_addr k
  constructor
  · intro l
    simp only [Regs.core_setCore, Function.update_apply, dataCell_inj, Core.addr_inj, h.core]
  · rw [Function.update_of_ne (by simpa using hsp.symm), h.sp]
  · rw [Function.update_of_ne (by simpa using hie.symm), h.ie]
  · intro hw n
    rw [Function.update_of_ne (regCell_ne_sfr e.bank n hlow), h.window hw, Regs.setCore_r]
  · intro b hb
    rw [Function.update_of_ne (iramCell_ne_sfr b hhigh), h.stack b hb]

/-- A store to `SP` is a new stack pointer in the view. -/
lemma storeSp (h : SeesCells e v f) (x : Byte) :
    SeesCells e { v with sp := x } (Function.update f (dataCell SP) x) := by
  constructor
  · intro k
    rw [Function.update_of_ne (by simpa using (core_addr k).2.2.1), h.core]
  · exact Function.update_self ..
  · rw [Function.update_of_ne (by rw [Ne, dataCell_inj]; decide), h.ie]
  · intro hw n
    rw [Function.update_of_ne (regCell_ne_sfr e.bank n (by decide)), h.window hw]
  · intro b hb
    rw [Function.update_of_ne (iramCell_ne_sfr b (by decide)), h.stack b hb]

/-- A store to the register window is a new register in the view, if the stack is apart from the
window. -/
lemma storeRx (h : SeesCells e v f)
    (happart : ∀ a, e.Owns a → ∀ n, iramCell a ≠ regCell e.bank n) (n : BitVec 3) (x : Byte) :
    SeesCells e { v with regs.r := Function.update v.regs.r n x }
      (Function.update f (regCell e.bank n) x) := by
  constructor
  · intro k
    rw [Function.update_of_ne (regCell_ne_sfr e.bank n (core_addr k).1).symm, h.core]
    cases k <;> rfl
  · rw [Function.update_of_ne (regCell_ne_sfr e.bank n (by decide)).symm, h.sp]
  · rw [Function.update_of_ne (regCell_ne_sfr e.bank n (by decide)).symm, h.ie]
  · intro hw i
    have hcell : regCell e.bank i = regCell e.bank n ↔ i = n := by
      have hinj : ∀ (b : RegBase) (i n : BitVec 3), regCell b i = regCell b n → i = n := by
        rintro ⟨b, hb⟩ i n hin
        rw [regCell, regCell, dataCell_inj] at hin
        revert i n b
        decide
      exact ⟨hinj e.bank i n, fun hin => congrArg _ hin⟩
    simp only [Function.update_apply, hcell, h.window hw]
  · intro b hb
    rw [Function.update_of_ne (happart b hb n), h.stack b hb]

/-- A store to the stack is a new byte of the stack in the view, apart from the window. -/
lemma storeStack (h : SeesCells e v f) {a : Byte}
    (happart : e.window = true → ∀ n, iramCell a ≠ regCell e.bank n) (x : Byte) :
    SeesCells e { v with cells := Function.update v.cells a x }
      (Function.update f (iramCell a) x) := by
  constructor
  · intro k
    rw [Function.update_of_ne (iramCell_ne_sfr a (core_addr k).2.1).symm, h.core]
  · rw [Function.update_of_ne (iramCell_ne_sfr a (by decide)).symm, h.sp]
  · rw [Function.update_of_ne (iramCell_ne_sfr a (by decide)).symm, h.ie]
  · intro hw n
    rw [Function.update_of_ne (happart hw n).symm, h.window hw]
  · intro b hb
    simp only [Function.update_apply, iramCell_inj, h.stack b hb]

end SeesCells

/-! ## Register accesses -/

namespace Sees

open Machine

variable {script : Script σ} {e : Scope σ} {v v' : View σ} {m m' : Machine σ}

/-- What interrupts are requested makes no difference to the view. -/
lemma setPending (h : Sees e v m) (l0 l1 : BitVec 32) : Sees e v (m.setPending l0 l1) :=
  ⟨h.cells, h.trap, h.dpl, h.dph, h.bank, h.out, h.lua, h.readc, h.readx, h.pc⟩

/-- Where the breakpoint is makes no difference to the view. -/
lemma setBreakpoint (h : Sees e v m) (mask val : BitVec 32) :
    Sees e v (m.setBreakpoint mask val) :=
  ⟨h.cells, h.trap, h.dpl, h.dph, h.bank, h.out, h.lua, h.readc, h.readx, h.pc⟩

/-- A jump of the machine is a jump of the view. -/
lemma setPc (h : Sees e v m) (w : Word) : Sees e { v with pc := w } (m.setPc w) :=
  ⟨⟨h.cells.core, h.cells.sp, h.cells.ie, h.cells.window, h.cells.stack⟩, h.trap, h.dpl, h.dph,
    h.bank, h.out, h.lua, h.readc, h.readx, rfl⟩

/-- The listeners behind a register make no difference to the view. -/
lemma sfrNotify (h : Sees e v m) (a : Byte) : Sees e v (m.sfrNotify a) := by
  obtain ⟨l0, l1, hl⟩ := m.sfrNotify_eq a
  rw [hl]
  exact h.setPending l0 l1

/-- A store to a register that is none of the view's makes no difference to it. -/
lemma setUnseen (h : Sees e v m) {a : Byte} (ha : Unseen a) (x : Byte) : Sees e v (m.setSfr a x) :=
  ⟨h.cells.storeUnseen ha x, h.trap, h.dpl, h.dph, h.bank, h.out, h.lua, h.readc, h.readx, h.pc⟩

/-- A store to a register of the core is that store in the view. -/
lemma setCore (h : Sees e v m) (k : Core) (x : Byte) :
    Sees e { v with regs := v.regs.setCore k x } (m.setSfr k.addr x) :=
  ⟨h.cells.storeCore k x, h.trap, h.dpl, h.dph, h.bank, by simpa using h.out, by simpa using h.lua,
    h.readc, h.readx, h.pc⟩

/-- New globals of the script are new globals in the view. -/
lemma setLua (h : Sees e v m) (g : σ) : Sees e { v with regs.lua := g } (m.setLua g) := by
  refine ⟨⟨fun k => ?_, h.cells.sp, h.cells.ie, h.cells.window, h.cells.stack⟩, h.trap, h.dpl,
    h.dph, h.bank, h.out, rfl, h.readc, h.readx, h.pc⟩
  have hcore := h.cells.core k
  cases k <;> exact hcore

/-- A byte sent by the machine is printed in the view. -/
lemma transmit (h : Sees e v m) (x : Byte) :
    Sees e { v with regs.out := v.regs.out ++ [x] } (m.transmit x) := by
  refine ⟨⟨fun k => ?_, h.cells.sp, h.cells.ie, h.cells.window, h.cells.stack⟩, h.trap, h.dpl,
    h.dph, h.bank, congrArg (· ++ [x]) h.out, h.lua, h.readc, h.readx, h.pc⟩
  have hcore := h.cells.core k
  cases k <;> exact hcore

/-- `SCON` is trapped, but there is no hook for it. -/
lemma readd_core (h : Sees e v m) (k : Core) :
    m.readd script k.addr = some (v.regs.core k, m) := by
  have hvalue := h.cells.core k
  by_cases hk : k = .scon
  · subst hk
    have htrap : m.ramsfrtrap SCON = true := by rw [h.trap]; decide
    rw [← hvalue]
    unfold readd readdVia
    rw [Core.addr, if_pos htrap]
    rfl
  · have htrap : m.ramsfrtrap k.addr = false := by
      rw [h.trap]
      revert hk
      cases k <;> decide
    rw [readd_of_untrapped htrap, sfr, hvalue]

/-- What the view says about a read by direct address is what the machine does. -/
lemma readd (h : Sees e v m) (hok : e.Ok script) {a x : Byte} (hx : v.regs.read e.dev a = some x) :
    ∃ m', m.readd script a = some (x, m') ∧ Sees e v m' := by
  unfold Regs.read at hx
  split at hx
  · next k hk =>
    obtain rfl := Core.addr_of_ofAddr hk
    obtain rfl := Option.some.inj hx
    exact ⟨m, h.readd_core k, h⟩
  · obtain ⟨hplain, hook, r, hhook, rfl, hrun⟩ := hok.dev.read hx
    have htrap : m.ramsfrtrap a = true := by rw [h.trap]; exact hplain.1
    have hpsw : a ≠ PSW := by
      rintro rfl
      exact absurd hplain.1 (by decide)
    refine ⟨m.setSfr a (byteOfLua r), ?_, h.setUnseen hplain.unseen _⟩
    rw [readd_of_hook htrap hplain.2.1 hplain.2.2.1 hpsw (by rw [h.lua]; exact hhook),
      hrun _ m _ h.lua, Option.map_some]

/-- Writing to `SCON` stores the value and calls its listeners, as it is trapped. -/
lemma writed_scon (ht : m.ramsfrtrap = sfrInitTrap) (x : Byte) :
    pokeScon x m = (m.setSfr SCON x).sfrNotify SCON := by
  have htrap : m.ramsfrtrap SCON = true := by rw [ht]; decide
  rw [pokeScon, if_pos htrap, afterRamdPut, if_neg (by decide)]

/-- What the view says about a write by direct address is what the machine does. -/
lemma writed (h : Sees e v m) (hok : e.Ok script) {a x : Byte} {s : Regs σ}
    (hs : v.regs.write e.dev a x = some s) :
    ∃ m', m.writed script a x = some m' ∧ Sees e { v with regs := s } m' := by
  unfold Regs.write at hs
  split at hs
  · next k hk =>
    obtain rfl := Core.addr_of_ofAddr hk
    obtain rfl := Option.some.inj hs
    by_cases hk : k = .scon
    · subst hk
      refine ⟨(m.setSfr SCON x).sfrNotify SCON, ?_, (h.setCore .scon x).sfrNotify SCON⟩
      rw [Machine.writed, Core.addr, writedVia_scon, writed_scon h.trap]
    · have htrap : m.ramsfrtrap k.addr = false := by
        rw [h.trap]
        revert hk
        cases k <;> decide
      exact ⟨m.setSfr k.addr x, writed_of_untrapped htrap, h.setCore k x⟩
  · split_ifs at hs with hsbuf
    · subst hsbuf
      obtain rfl := Option.some.inj hs
      have htrap : m.ramsfrtrap SBUF = true := by rw [h.trap]; decide
      have hstored : Sees e { v with regs.out := v.regs.out ++ [x] }
          ((m.transmit x).setSfr SBUF x) := (h.transmit x).setUnseen (by decide) x
      have hscon : ((m.transmit x).setSfr SBUF x).sfr SCON = v.regs.scon := hstored.cells.core .scon
      have hsent := (hstored.setCore .scon (v.regs.scon ||| SCON_TI)).sfrNotify SCON
      refine ⟨_, ?_, hsent.sfrNotify SBUF⟩
      have hput : ramdPut script (busAt script script.ccalls) SBUF x m = some
          (((((m.transmit x).setSfr SBUF x).setSfr SCON (v.regs.scon ||| SCON_TI))).sfrNotify
            SCON) := by
        rw [← hscon]
        exact congrArg some (writed_scon hstored.trap _)
      rw [Machine.writed, writedVia, if_pos htrap, defaultRamdPut, hput, Option.map_some,
        afterRamdPut, if_neg (by decide)]
      rfl
    · obtain ⟨g, hg, rfl⟩ := Option.map_eq_some_iff.1 hs
      obtain ⟨hplain, hook, r, hhook, hrun⟩ := hok.dev.write hg
      have htrap : m.ramsfrtrap a = true := by rw [h.trap]; exact hplain.1
      have hpsw : a ≠ PSW := by
        rintro rfl
        exact absurd hplain.1 (by decide)
      have hstored : Sees e v (m.setSfr a x) := h.setUnseen hplain.unseen x
      refine ⟨(((m.setSfr a x).setLua g).setSfr a (byteOfLua r)).sfrNotify a, ?_,
        ((hstored.setLua g).setUnseen hplain.unseen _).sfrNotify a⟩
      rw [writed_of_hook htrap hplain.2.2.2.1 hplain.2.1 hplain.2.2.1 hpsw
        (by rw [h.lua]; exact hhook), hrun _ (m.setSfr a x) h.lua, Option.map_some]

/-! ## Instructions -/

/-- What an operation does to the view, it does to the machine. -/
theorem cpuExec (h : Sees e v m) (hok : e.Ok script) {o : CpuOp} {r : o.Res}
    (hr : viewExec e o v = some (r, v')) :
    ∃ m', Emu51.cpuExec script o m = some (r, m') ∧ Sees e v' m' := by
  have hcore : ∀ (k : Core) x v₁, v₁ = { v with regs := v.regs.setCore k x } →
      Sees e v₁ (m.setSfr k.addr x) := by
    rintro k x v₁ rfl
    exact h.setCore k x
  cases o with
  | fetch ofs =>
    obtain ⟨rfl, rfl⟩ := Prod.mk.inj (Option.some.inj hr)
    exact ⟨m, by rw [← h.pc, ← h.readc]; rfl, h⟩
  | readc addr =>
    obtain ⟨rfl, rfl⟩ := Prod.mk.inj (Option.some.inj hr)
    exact ⟨m, by rw [← h.readc]; rfl, h⟩
  | readx addr =>
    obtain ⟨rfl, rfl⟩ := Prod.mk.inj (Option.some.inj hr)
    exact ⟨m, by rw [← h.readx]; rfl, h⟩
  | readd addr =>
    obtain ⟨x, hx, heq⟩ := Option.map_eq_some_iff.1 hr
    obtain ⟨rfl, rfl⟩ := Prod.mk.inj heq
    exact h.readd hok hx
  | writed addr x =>
    obtain ⟨s, hs, heq⟩ := Option.map_eq_some_iff.1 hr
    obtain ⟨-, rfl⟩ := Prod.mk.inj heq
    obtain ⟨m', hm', hsees⟩ := h.writed hok hs
    exact ⟨m', by rw [Emu51.cpuExec, hm', Option.map_some], hsees⟩
  | readi addr =>
    obtain ⟨howns, heq⟩ := Option.ite_none_right_eq_some.1 hr
    obtain ⟨rfl, rfl⟩ := Prod.mk.inj (Option.some.inj heq)
    exact ⟨m, by rw [← h.cells.stack addr howns]; rfl, h⟩
  | writei addr x =>
    obtain ⟨howns, heq⟩ := Option.ite_none_right_eq_some.1 hr
    obtain ⟨-, rfl⟩ := Prod.mk.inj (Option.some.inj heq)
    refine ⟨m.writei addr x, rfl, ?_⟩
    exact ⟨h.cells.storeStack (fun hw => hok.apart hw addr howns) x, h.trap, h.dpl, h.dph, h.bank,
      h.out, h.lua, h.readc, h.readx, h.pc⟩
  | getRx n =>
    obtain ⟨hwindow, heq⟩ := Option.ite_none_right_eq_some.1 hr
    obtain ⟨rfl, rfl⟩ := Prod.mk.inj (Option.some.inj heq)
    exact ⟨m, by rw [← h.cells.window hwindow, ← h.bank]; rfl, h⟩
  | setRx n x =>
    obtain ⟨hwindow, heq⟩ := Option.ite_none_right_eq_some.1 hr
    obtain ⟨-, rfl⟩ := Prod.mk.inj (Option.some.inj heq)
    refine ⟨m.setCell (regCell e.bank n) x, by rw [← h.bank]; rfl, ?_⟩
    exact ⟨h.cells.storeRx (hok.apart hwindow) n x, h.trap, h.dpl, h.dph, h.bank, h.out, h.lua,
      h.readc, h.readx, h.pc⟩
  | get q =>
    cases q with
    | acc =>
      obtain ⟨rfl, rfl⟩ := Prod.mk.inj (Option.some.inj hr)
      exact ⟨m, by rw [← show _ = v.regs.acc from h.cells.core .acc]; rfl, h⟩
    | b =>
      obtain ⟨rfl, rfl⟩ := Prod.mk.inj (Option.some.inj hr)
      exact ⟨m, by rw [← show _ = v.regs.b from h.cells.core .b]; rfl, h⟩
    | psw =>
      obtain ⟨rfl, rfl⟩ := Prod.mk.inj (Option.some.inj hr)
      exact ⟨m, by rw [← show _ = v.regs.psw from h.cells.core .psw]; rfl, h⟩
    | sp =>
      obtain ⟨rfl, rfl⟩ := Prod.mk.inj (Option.some.inj hr)
      exact ⟨m, by rw [← h.cells.sp]; rfl, h⟩
  | set q x =>
    cases q with
    | acc =>
      obtain ⟨-, rfl⟩ := Prod.mk.inj (Option.some.inj hr)
      exact ⟨_, rfl, hcore .acc x _ rfl⟩
    | b =>
      obtain ⟨-, rfl⟩ := Prod.mk.inj (Option.some.inj hr)
      exact ⟨_, rfl, hcore .b x _ rfl⟩
    | psw =>
      obtain ⟨-, rfl⟩ := Prod.mk.inj (Option.some.inj hr)
      exact ⟨_, rfl, hcore .psw x _ rfl⟩
    | sp =>
      obtain ⟨-, rfl⟩ := Prod.mk.inj (Option.some.inj hr)
      exact ⟨m.setSfr SP x, rfl, h.cells.storeSp x, h.trap, h.dpl, h.dph, h.bank, h.out, h.lua,
        h.readc, h.readx, h.pc⟩
  | getDptr =>
    obtain ⟨rfl, rfl⟩ := Prod.mk.inj (Option.some.inj hr)
    refine ⟨m, ?_, h⟩
    rw [Regs.dptr, ← show _ = v.regs.dph from h.cells.core .dph,
      ← show _ = v.regs.dpl from h.cells.core .dpl, Core.addr, Core.addr, ← h.dph, ← h.dpl]
    rfl
  | setDph x =>
    obtain ⟨-, rfl⟩ := Prod.mk.inj (Option.some.inj hr)
    exact ⟨m.setSfr m.dph x, rfl, by rw [h.dph]; exact hcore .dph x _ rfl⟩
  | setDpl x =>
    obtain ⟨-, rfl⟩ := Prod.mk.inj (Option.some.inj hr)
    exact ⟨m.setSfr m.dpl x, rfl, by rw [h.dpl]; exact hcore .dpl x _ rfl⟩
  | getPc =>
    obtain ⟨rfl, rfl⟩ := Prod.mk.inj (Option.some.inj hr)
    exact ⟨m, by rw [← h.pc]; rfl, h⟩
  | setPc w =>
    obtain ⟨-, rfl⟩ := Prod.mk.inj (Option.some.inj hr)
    exact ⟨m.setPc w, rfl, h.setPc w⟩
  | writex addr x => exact absurd hr.symm (Option.some_ne_none _)
  | xramP2addr => exact absurd hr.symm (Option.some_ne_none _)
  | irqlevelReti => exact absurd hr.symm (Option.some_ne_none _)
  | setBreakpoint mask val => exact absurd hr.symm (Option.some_ne_none _)

/-- While interrupts are disabled none is taken, whatever is requested. -/
lemma pollIrq (h : Sees e v m) : m.pollIrq = m := by
  have hea : m.ea = false := by
    rw [ea, sfr, h.cells.ie]
    rfl
  rw [Machine.pollIrq, irqpend, hea, Bool.and_false]
  rfl

/-- What an instruction does to the view, it does to the machine. -/
theorem step (h : Sees e v m) (hok : e.Ok script) (hv : View.step e v = some v') :
    ∃ m', m.step script = some m' ∧ Sees e v' m' := by
  obtain ⟨⟨u, v₁⟩, hrun, rfl⟩ := Option.map_eq_some_iff.1 hv
  obtain ⟨mask, val, hnext⟩ := nextop_eq script h.trap
  rw [h.pollIrq] at hnext
  have hop : m.fetch 0 = e.readc v.pc := by
    rw [fetch, h.readc, h.pc, show v.pc + 0 = v.pc from BitVec.add_zero v.pc]
  have hsees : Sees e v (m.setBreakpoint mask val) := h.setBreakpoint mask val
  obtain ⟨m', hm', hsees'⟩ := Prog.run_simulates (g := Emu51.cpuExec script) (R := Sees e)
    (Q := fun _ => True) (fun o s t r s' _ hst hs => hst.cpuExec hok hs) (fun _ _ => trivial) hsees
    hrun
  refine ⟨m', ?_, hsees'⟩
  rw [Machine.step, hnext, Option.bind_some, dispatch, hop, hm', Option.map_some]

end Sees

end Emu51

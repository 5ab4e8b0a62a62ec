import Emu51.Chip.Hooks
import Emu51.Library.DownwardStack

/-!
# The second stack

The hooks of `SSPL`, `SSPH` and `SSIO` make a stack of external data memory. Their global `ssp` is
a Lua integer that is never cut down to 16 bits: after enough accesses it is negative or beyond
`0xffff`. To the firmware it is a 16-bit register all the same (`run_accesses`), so that what is
pushed is popped in reverse (`pushed_popped`).
-/

namespace Emu51

open Chip Lua

variable {σ : Type}

/-! ## The stack the firmware sees -/

/-- The three registers. -/
inductive StackReg where
  | sspl | ssph | ssio

/-- Their addresses. -/
def StackReg.addr : StackReg → Byte
  | sspl => 0xb9
  | ssph => 0xba
  | ssio => 0xbb

/-- An access of the firmware to one of them. -/
inductive StackAccess where
  | read (r : StackReg)
  | write (r : StackReg) (v : Byte)

/-- A 16-bit stack pointer and the machine that holds the external memory. -/
abbrev Stack16 (σ : Type) := DownStack.State 16 (Machine σ)

/-- External memory. -/
def xramOps : DownStack.Memory 16 (Machine σ) Byte where
  read := Machine.readx
  write := Machine.writex

namespace Stack16

/-- What an access returns and does, with a 16-bit register for a stack pointer. -/
def access (s : Stack16 σ) : StackAccess → List Byte × Stack16 σ
  | .read .sspl => ([lo s.ptr], s)
  | .read .ssph => ([hi s.ptr], s)
  | .read .ssio => ([(DownStack.pop xramOps s).1], (DownStack.pop xramOps s).2)
  | .write .sspl v => ([], { s with ptr := word (hi s.ptr) v })
  | .write .ssph v => ([], { s with ptr := word v (lo s.ptr) })
  | .write .ssio v => ([], DownStack.push xramOps s v)

/-- A sequence of accesses: all bytes that are read, and the state at the end. -/
def accesses : List StackAccess → Stack16 σ → List Byte × Stack16 σ
  | [], s => ([], s)
  | a :: as, s =>
    let r := accesses as (s.access a).2
    ((s.access a).1 ++ r.1, r.2)

end Stack16

namespace Machine

/-- An access as the emulator performs it. -/
def stackAccess (script : Script σ) (m : Machine σ) : StackAccess → Option (List Byte × Machine σ)
  | .read r => (readd script r.addr m).map fun y => ([y.1], y.2)
  | .write r v => (writed script r.addr v m).map fun m' => ([], m')

/-- A sequence of accesses. -/
def stackAccesses (script : Script σ) :
    List StackAccess → Machine σ → Option (List Byte × Machine σ)
  | [], m => some ([], m)
  | a :: as, m => (m.stackAccess script a).bind fun y =>
      (stackAccesses script as y.2).map fun z => (y.1 ++ z.1, z.2)

/-- The external memories of the two states are the same. -/
structure SameXram (m m' : Machine σ) : Prop where
  heap : m'.heap = m.heap
  xrampage : m'.xrampage = m.xrampage
  xramfnwr : m'.xramfnwr = m.xramfnwr

variable {m m' : Machine σ}

/-- States with the same external memories read the same byte at every address. -/
lemma SameXram.readx (h : SameXram m m') (a : Word) : m'.readx a = m.readx a := by
  unfold Machine.readx peekPage
  rw [h.heap, h.xrampage]

/-- The same write to both leaves them with the same external memories. -/
lemma SameXram.writex (h : SameXram m m') (a : Word) (v : Byte) :
    SameXram (m.writex a v) (m'.writex a v) := by
  unfold Machine.writex
  rw [h.xrampage, h.xramfnwr]
  split
  · exact h
  · split
    · refine ⟨?_, h.xrampage, h.xramfnwr⟩
      unfold pokePage
      rw [h.heap]
    · exact h

end Machine

/-- The machine, seen through the three registers, is the stack. -/
structure Shows {ρ : Type} (s : Stack16 (Globals ρ)) (m : Machine (Globals ρ)) : Prop where
  trap : m.ramsfrtrap = Machine.sfrInitTrap
  ptr : m.lua.ssp.setWidth 16 = s.ptr
  xram : Machine.SameXram s.mem m

namespace Shows

variable {ρ : Type} {s : Stack16 (Globals ρ)} {m : Machine (Globals ρ)}

/-- The registers of the CPU make no difference to the stack, which is in external data memory. -/
lemma setSfr (h : Shows s m) (a v : Byte) : Shows s (m.setSfr a v) :=
  ⟨h.trap, h.ptr, h.xram.heap, h.xram.xrampage, h.xram.xramfnwr⟩

/-- Nor do the listeners of a register make a difference to the stack. -/
lemma notify (h : Shows s m) (a : Byte) : Shows s (m.sfrNotify a) := by
  obtain ⟨l0, l1, hl⟩ := m.sfrNotify_eq a
  rw [hl]
  exact ⟨h.trap, h.ptr, h.xram.heap, h.xram.xrampage, h.xram.xramfnwr⟩

/-- Giving the script's pointer a new value moves the pointer of the stack. -/
lemma setSsp (h : Shows s m) {x : LuaInt} {p : Word} (hp : x.setWidth 16 = p) :
    Shows { s with ptr := p } (m.setLua { m.lua with ssp := x }) :=
  ⟨h.trap, hp, h.xram.heap, h.xram.xrampage, h.xram.xramfnwr⟩

/-- A store to external data memory at the pointer is a store of the stack. -/
lemma writex (h : Shows s m) (v : Byte) :
    Shows { s with mem := s.mem.writex s.ptr v } (m.writex (m.lua.ssp.setWidth 16) v) where
  trap := (m.sameCore_writex _ v).ramsfrtrap.trans h.trap
  ptr := by rw [m.writex_lua, h.ptr]
  xram := by
    rw [h.ptr]
    exact h.xram.writex _ v

end Shows

/-! ## The pointer -/

section Pointer

variable (ssp : LuaInt) (v : Byte)

/-- The low byte of the pointer is its remainder modulo 256. -/
lemma toNat_low : (ssp &&& 0xff).toNat = ssp.toNat % 0x100 := by
  rw [BitVec.toNat_and]
  exact Nat.and_two_pow_sub_one_eq_mod ssp.toNat 8

/-- The high byte of the pointer is its quotient by 256. -/
lemma toNat_high : (ssp >>> 8).toNat = ssp.toNat / 0x100 := by
  rw [BitVec.toNat_ushiftRight, Nat.shiftRight_eq_div_pow]

/-- A byte handed to Lua keeps its value. -/
lemma toNat_luaOfByte : (luaOfByte v).toNat = v.toNat := by
  have hv := v.isLt
  rw [luaOfByte, BitVec.toNat_setWidth]
  omega

/-- What a read of the low byte hands over is the low byte of the 16-bit pointer. -/
lemma byteOfLua_low : byteOfLua (ssp &&& 0xff) = lo (ssp.setWidth 16) := by
  apply BitVec.eq_of_toNat_eq
  rw [byteOfLua, BitVec.toNat_setWidth, toNat_low, toNat_lo, BitVec.toNat_setWidth]
  omega

/-- What a read of the high byte hands over is the high byte of the 16-bit pointer. -/
lemma byteOfLua_high : byteOfLua (ssp >>> 8) = hi (ssp.setWidth 16) := by
  apply BitVec.eq_of_toNat_eq
  rw [byteOfLua, BitVec.toNat_setWidth, toNat_high, toNat_hi, BitVec.toNat_setWidth]
  omega

/-- Writing the low byte replaces it in the 16-bit pointer. -/
lemma setWidth_write_low :
    ((ssp >>> 8) * 0x100 + luaOfByte v).setWidth 16 = word (hi (ssp.setWidth 16)) v := by
  have hv := v.isLt
  have hval : (((ssp >>> 8) * 0x100 + luaOfByte v).setWidth 16).toNat =
      ((ssp.toNat / 256 * 256 + v.toNat) % 2 ^ 64) % 2 ^ 16 := by
    rw [BitVec.toNat_setWidth, BitVec.toNat_add, BitVec.toNat_mul, toNat_high, toNat_luaOfByte]
    exact congrArg (· % 2 ^ 16) (Nat.mod_add_mod _ _ _)
  apply eq_word
  · rw [hval, toNat_hi, BitVec.toNat_setWidth]
    omega
  · rw [hval]
    omega

/-- Writing the high byte replaces it in the 16-bit pointer. -/
lemma setWidth_write_high :
    (luaOfByte v * 0x100 + (ssp &&& 0xff)).setWidth 16 = word v (lo (ssp.setWidth 16)) := by
  have hv := v.isLt
  have hval : ((luaOfByte v * 0x100 + (ssp &&& 0xff)).setWidth 16).toNat =
      v.toNat * 256 + ssp.toNat % 256 := by
    rw [BitVec.toNat_setWidth, BitVec.toNat_add, BitVec.toNat_mul, toNat_low, toNat_luaOfByte]
    have hconst : (0x100 : LuaInt).toNat = 256 := rfl
    rw [hconst]
    omega
  apply eq_word
  · rw [hval]
    omega
  · rw [hval, toNat_lo, BitVec.toNat_setWidth]
    omega

end Pointer

/-! ## Accesses -/

namespace Chip

variable (chip : Chip) {m : Machine (Globals chip.Indacc)} {s : Stack16 (Globals chip.Indacc)}

/-- The hooks of both scripts. -/
def stackHook : StackReg → Hook (Globals chip.Indacc)
  | .sspl => sfrSspl
  | .ssph => sfrSsph
  | .ssio => sfrSsio

/-- Both chips have the three hooks of the second stack under the three registers. -/
lemma ramdHooks_stack (g : Globals chip.Indacc) (r : StackReg) :
    chip.script.ramdHooks g r.addr = some (chip.stackHook r) := by
  cases chip <;> cases r <;> rfl

/-- A read of one of the three registers is what its hook does and returns. -/
lemma stackAccess_read {r : StackReg} {d : LuaInt} (m₁ : Machine (Globals chip.Indacc))
    (ht : m.ramsfrtrap = Machine.sfrInitTrap)
    (hrun : (chip.stackHook r false (luaOfByte (m.sfr r.addr))).run
      (Machine.luaExec (Machine.busAt chip.script chip.script.ccalls)) m = some (d, m₁)) :
    m.stackAccess chip.script (.read r) =
      some ([byteOfLua d], m₁.setSfr r.addr (byteOfLua d)) := by
  have ha : m.ramsfrtrap r.addr = true := by
    rw [ht]
    cases r <;> decide
  have hread := Machine.readd_of_hook ha (by cases r <;> decide) (by cases r <;> decide)
    (by cases r <;> decide) (chip.ramdHooks_stack m.lua r)
  rw [Machine.stackAccess, hread, hrun]
  rfl

/-- A write to one of the three registers is what its hook does with the byte. -/
lemma stackAccess_write {r : StackReg} {v : Byte} {d : LuaInt}
    (m₁ : Machine (Globals chip.Indacc)) (ht : m.ramsfrtrap = Machine.sfrInitTrap)
    (hrun : (chip.stackHook r true (luaOfByte v)).run
      (Machine.luaExec (Machine.busAt chip.script chip.script.ccalls)) (m.setSfr r.addr v) =
        some (d, m₁)) :
    m.stackAccess chip.script (.write r v) =
      some ([], (m₁.setSfr r.addr (byteOfLua d)).sfrNotify r.addr) := by
  have ha : m.ramsfrtrap r.addr = true := by
    rw [ht]
    cases r <;> decide
  have hwrite := Machine.writed_of_hook (v := v) ha (by cases r <;> decide)
    (by cases r <;> decide) (by cases r <;> decide) (by cases r <;> decide)
    (chip.ramdHooks_stack m.lua r)
  rw [Machine.stackAccess, hwrite, hrun]
  rfl

/-- A read is one of the 16-bit register or of the memory behind it. -/
lemma shows_read (hs : Shows s m) (r : StackReg) : ∃ m',
    m.stackAccess chip.script (.read r) = some ((s.access (.read r)).1, m') ∧
      Shows (s.access (.read r)).2 m' := by
  cases r with
  | sspl =>
    refine ⟨m.setSfr StackReg.sspl.addr (lo s.ptr), ?_, hs.setSfr _ _⟩
    rw [stackAccess_read chip m (r := .sspl) hs.trap rfl, byteOfLua_low, hs.ptr]
    rfl
  | ssph =>
    refine ⟨m.setSfr StackReg.ssph.addr (hi s.ptr), ?_, hs.setSfr _ _⟩
    rw [stackAccess_read chip m (r := .ssph) hs.trap rfl, byteOfLua_high, hs.ptr]
    rfl
  | ssio =>
    have hread : m.readx (m.lua.ssp.setWidth 16) = s.mem.readx s.ptr := by
      rw [hs.ptr, hs.xram.readx]
    have hptr : (m.lua.ssp + 1).setWidth 16 = s.ptr + 1#16 := by
      rw [BitVec.setWidth_add _ _ (by decide), hs.ptr]
      rfl
    refine ⟨_, ?_, (hs.setSsp hptr).setSfr StackReg.ssio.addr (s.mem.readx s.ptr)⟩
    rw [stackAccess_read chip _ (r := .ssio) hs.trap rfl, hread, byteOfLua_luaOfByte]
    rfl

/-- And so is a write: to the two halves of the pointer, or a push. -/
lemma shows_write (hs : Shows s m) (r : StackReg) (v : Byte) : ∃ m',
    m.stackAccess chip.script (.write r v) = some ((s.access (.write r v)).1, m') ∧
      Shows (s.access (.write r v)).2 m' := by
  have hset := hs.setSfr r.addr v
  cases r with
  | sspl =>
    have hptr : ((m.lua.ssp >>> 8) * 0x100 + luaOfByte v).setWidth 16 = word (hi s.ptr) v := by
      rw [setWidth_write_low, hs.ptr]
    exact ⟨_, stackAccess_write chip _ (r := .sspl) hs.trap rfl,
      ((hset.setSsp hptr).setSfr _ _).notify _⟩
  | ssph =>
    have hptr : (luaOfByte v * 0x100 + (m.lua.ssp &&& 0xff)).setWidth 16 = word v (lo s.ptr) := by
      rw [setWidth_write_high, hs.ptr]
    exact ⟨_, stackAccess_write chip _ (r := .ssph) hs.trap rfl,
      ((hset.setSsp hptr).setSfr _ _).notify _⟩
  | ssio =>
    have hptr : (m.lua.ssp - 1).setWidth 16 = s.ptr - 1#16 := by
      have hone : (-1 : LuaInt).setWidth 16 = -1#16 := by decide
      rw [BitVec.sub_eq_add_neg, BitVec.setWidth_add _ _ (by decide), hs.ptr, hone,
        ← BitVec.sub_eq_add_neg]
    have hpush := (hset.setSsp hptr).writex v
    refine ⟨_, stackAccess_write chip _ (r := .ssio) hs.trap rfl, .notify (.setSfr ?_ _ _) _⟩
    rw [byteOfLua_luaOfByte]
    exact hpush

/-- The emulator keeps up with the 16-bit stack through any sequence of accesses. -/
theorem run_stackAccesses (hs : Shows s m) (as : List StackAccess) : ∃ m',
    m.stackAccesses chip.script as = some ((s.accesses as).1, m') ∧ Shows (s.accesses as).2 m' := by
  induction as generalizing s m with
  | nil => exact ⟨m, rfl, hs⟩
  | cons a as ih =>
    have hstep : ∃ m', m.stackAccess chip.script a = some ((s.access a).1, m') ∧
        Shows (s.access a).2 m' := by
      cases a with
      | read r => exact shows_read chip hs r
      | write r v => exact shows_write chip hs r v
    obtain ⟨m₁, hstep, hs₁⟩ := hstep
    obtain ⟨m', hrun, hs'⟩ := ih hs₁
    refine ⟨m', ?_, hs'⟩
    rw [Machine.stackAccesses, hstep, Option.bind_some, hrun, Option.map_some]
    rfl

end Chip

/-! ## What is pushed is popped in reverse -/

namespace Machine

/-- The byte of a buffer behind an address of external memory. -/
def xramByte (m : Machine σ) (a : Word) : Option (ℕ × ℤ) :=
  (m.xrampage (hi a)).map fun p => (p.buf, p.ofs + (lo a).toNat)

/-- The address is on a mapped page that can be written. -/
def XramWritable (m : Machine σ) (a : Word) : Prop :=
  m.xramfnwr (hi a) = none ∧ (m.xramByte a).isSome

instance (m : Machine σ) (a : Word) : Decidable (m.XramWritable a) :=
  inferInstanceAs (Decidable (_ ∧ _))

/-- A read of external data memory gives the byte of the buffer behind the address, and `0xff`
without one. -/
lemma readx_eq (m : Machine σ) (a : Word) :
    m.readx a = (m.xramByte a).elim 0xff fun c => (m.heap c.1).mem c.2 := by
  unfold readx xramByte
  cases m.xrampage (hi a) <;> rfl

/-- A store in a buffer changes one byte of it. -/
lemma pokePage_apply (m : Machine σ) (p : PagePtr) (i v : Byte) (c : ℕ × ℤ) :
    ((m.pokePage p i v).heap c.1).mem c.2 =
      if c = (p.buf, p.ofs + i.toNat) then v else (m.heap c.1).mem c.2 := by
  obtain ⟨n, k⟩ := c
  by_cases hn : n = p.buf
  · subst hn
    rw [pokePage_heap, Function.update_self]
    change Function.update (m.heap p.buf).mem (p.ofs + i.toNat) v k = _
    rw [Function.update_apply]
    refine if_congr ?_ rfl rfl
    rw [Prod.mk.injEq, eq_self_iff_true, true_and]
  · rw [pokePage_heap, Function.update_of_ne hn, if_neg fun h => hn (Prod.mk.inj h).1]

/-- Storing a byte does not change the mapping of external data memory. -/
lemma writex_mapping (m : Machine σ) (a : Word) (v : Byte) :
    (m.writex a v).xrampage = m.xrampage ∧ (m.writex a v).xramfnwr = m.xramfnwr := by
  unfold writex
  split
  · exact ⟨rfl, rfl⟩
  · split <;> exact ⟨rfl, rfl⟩

/-- While the pages stay mapped as they are, the addresses are names of bytes of buffers. -/
lemma xram_aliases (m : Machine σ) :
    DownStack.Aliases (xramOps : DownStack.Memory 16 (Machine σ) Byte)
    (fun x => x.xrampage = m.xrampage ∧ x.xramfnwr = m.xramfnwr) m.xramByte m.XramWritable := by
  have hread : ∀ (x : Machine σ) (a b : Word) (v : Byte),
      x.xrampage = m.xrampage ∧ x.xramfnwr = m.xramfnwr → m.XramWritable a →
      (x.writex a v).readx b = if m.xramByte b = m.xramByte a then v else x.readx b := by
    rintro x a b v ⟨hpage, hfn⟩ ⟨hnone, hsome⟩
    obtain ⟨c, hc⟩ := Option.isSome_iff_exists.1 hsome
    obtain ⟨p, hp, rfl⟩ := Option.map_eq_some_iff.1 hc
    have hwrite : x.writex a v = x.pokePage p (lo a) v := by
      unfold writex
      rw [hfn, hnone, hpage, hp]
    have hbyte : ∀ y : Machine σ, y.xrampage = m.xrampage → y.xramByte b = m.xramByte b := by
      intro y hy
      rw [xramByte, xramByte, hy]
    rw [hwrite, readx_eq, readx_eq, hbyte _ hpage, hbyte (x.pokePage p (lo a) v) hpage, hc]
    cases m.xramByte b with
    | none => rfl
    | some d =>
      rw [Option.elim_some, Option.elim_some, pokePage_apply]
      refine if_congr ?_ rfl rfl
      rw [Option.some.injEq]
  constructor
  · intro x a v hx
    obtain ⟨hpage, hfn⟩ := x.writex_mapping a v
    exact ⟨hpage.trans hx.1, hfn.trans hx.2⟩
  · intro x a b v hx ha hb
    exact (hread x a b v hx ha).trans (if_pos hb)
  · intro x a b v hx ha hb
    exact (hread x a b v hx ha).trans (if_neg hb)

end Machine

namespace Stack16

variable {s : Stack16 σ}

/-- Writes to `SSIO` one after the other push their bytes one after the other. -/
lemma accesses_push (vs : List Byte) (as : List StackAccess) (s : Stack16 σ) :
    s.accesses (vs.map (.write .ssio) ++ as) =
      Stack16.accesses as (DownStack.pushAll xramOps vs s) := by
  induction vs generalizing s with
  | nil => rfl
  | cons v vs ih =>
    rw [List.map_cons, List.cons_append, accesses, ih]
    rfl

/-- Reads of `SSIO` one after the other pop one byte each. -/
lemma accesses_pop (n : ℕ) (s : Stack16 σ) :
    s.accesses (List.replicate n (.read .ssio)) = DownStack.popMany xramOps n s := by
  induction n generalizing s with
  | zero => rfl
  | succ n ih =>
    rw [List.replicate_succ, accesses, ih]
    rfl

end Stack16

namespace Chip

/-- The second stack, of both chips, is a 16-bit stack in external memory: whatever the firmware
reads through the three registers is what it reads there. If the cells it needs are distinct and
can be written, what is pushed is popped in reverse, the pointer is where it was and no other byte
has changed. -/
theorem secondStack (chip : Chip) {m : Machine (Globals chip.Indacc)}
    (ht : m.ramsfrtrap = Machine.sfrInitTrap) :
    (∀ as, ∃ m', m.stackAccesses chip.script as =
        some ((Stack16.accesses as ⟨m.lua.ssp.setWidth 16, m⟩).1, m') ∧
      Shows (Stack16.accesses as ⟨m.lua.ssp.setWidth 16, m⟩).2 m') ∧
    (∀ vs : List Byte,
      (∀ i < vs.length, m.XramWritable (m.lua.ssp.setWidth 16 - BitVec.ofNat 16 (i + 1))) →
      (∀ i j, i < j → j < vs.length →
        m.xramByte (m.lua.ssp.setWidth 16 - BitVec.ofNat 16 (i + 1)) ≠
          m.xramByte (m.lua.ssp.setWidth 16 - BitVec.ofNat 16 (j + 1))) →
      ∃ m', m.stackAccesses chip.script
          (vs.map (.write .ssio) ++ List.replicate vs.length (.read .ssio)) =
            some (vs.reverse, m') ∧
        m'.lua.ssp.setWidth 16 = m.lua.ssp.setWidth 16 ∧
        ∀ b, (∀ i < vs.length, m.xramByte b ≠
            m.xramByte (m.lua.ssp.setWidth 16 - BitVec.ofNat 16 (i + 1))) →
          m'.readx b = m.readx b) := by
  have hs : Shows ⟨m.lua.ssp.setWidth 16, m⟩ m := ⟨ht, rfl, rfl, rfl, rfl⟩
  refine ⟨chip.run_stackAccesses hs, fun vs hgood hcells => ?_⟩
  obtain ⟨x, hpop, -, hframe⟩ := DownStack.lifo m.xram_aliases
    (s := ⟨m.lua.ssp.setWidth 16, m⟩) ⟨rfl, rfl⟩ hgood hcells
  obtain ⟨m', hrun, hs'⟩ := chip.run_stackAccesses hs
    (vs.map (.write .ssio) ++ List.replicate vs.length (.read .ssio))
  rw [Stack16.accesses_push, Stack16.accesses_pop, hpop] at hrun hs'
  exact ⟨m', hrun, hs'.ptr, fun b hb => (hs'.xram.readx b).trans (hframe b hb)⟩

/-- A machine all of whose external memory is one buffer. -/
def withXram (chip : Chip) : Machine (Globals chip.Indacc) :=
  { Machine.static chip.script.globals fun _ => default with
    ramsfrtrap := Machine.sfrInitTrap
    xrampage := fun p => some ⟨0, p.toNat * 0x100⟩ }

/-- The theorem at two bytes pushed on the empty stack. -/
theorem secondStack_two : ∃ m', (withXram .rtl8372).stackAccesses Chip.rtl8372.script
    ([0x12, 0x34].map (.write .ssio) ++ List.replicate 2 (.read .ssio)) =
      some ([0x34, 0x12], m') := by
  obtain ⟨m', hrun, -⟩ := (secondStack .rtl8372 (m := withXram .rtl8372) rfl).2 [0x12, 0x34]
    (by decide) fun i j hij hj => by
      obtain ⟨rfl, rfl⟩ : i = 0 ∧ j = 1 := by
        change j < 2 at hj
        omega
      decide
  exact ⟨m', hrun⟩

end Chip

end Emu51

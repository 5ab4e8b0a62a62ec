import Emu51.Library.Mutex
import Emu51.Machine.Effects
import Emu51.Uart.Accesses

/-!
# The two threads

The CPU runs in one thread and the UART's listener in another, and `uart_mutex` guards `SCON` and
`SBUF`. This file is both threads with every `pthread_mutex_lock` and `pthread_mutex_unlock` in its
place: the accesses of `Accesses` for the CPU, the passes of the inner loop for the listener.
-/

namespace Emu51

variable {σ : Type}

/-- The threads. -/
inductive Party where
  | cpu
  | uart
  deriving DecidableEq

/-- What the threads share: the machine, and the bytes that are still to come from the
connection. -/
structure Line (σ : Type) where
  machine : Machine σ
  coming : List Byte

/-- What a thread does in one step, apart from the mutex. Between two instructions the CPU looks at
the interrupts and fetches an opcode. -/
inductive ThreadOp (σ : Type) where
  | access (o : Access σ)
  | nextop
  | recv

/-- What the steps return. -/
@[reducible] def ThreadOp.Res : ThreadOp σ → Type
  | .access o => o.Res
  | .nextop => Byte
  | .recv => Byte

/-- What the steps do. `recv` waits for a byte. -/
def threadExec (script : Script σ) : Prog.Handler (ThreadOp σ) ThreadOp.Res (Line σ)
  | .access o, l =>
      (Machine.accessExec script o l.machine).map fun y => (y.1, { l with machine := y.2 })
  | .nextop, l => (Machine.nextop script l.machine).map fun y => (y.1, { l with machine := y.2 })
  | .recv, ⟨m, ds⟩ =>
      match ds with
      | [] => none
      | d :: ds => some (d, ⟨m, ds⟩)

/-- Code with its locks. -/
abbrev Locked (σ α : Type) := LockProg (ThreadOp σ) ThreadOp.Res α

namespace Locked

open LockProg

def access (o : Access σ) : Locked σ o.Res := act (ThreadOp.access o)

/-- An access with the mutex held. -/
def guarded (o : Access σ) : Locked σ o.Res := locked (ThreadOp.access o)

/-- The accessors hooks see. -/
structure LockedBus (σ : Type) where
  get : Byte → Locked σ Byte
  put : Byte → Byte → Locked σ Unit

/-! ## The CPU -/

/-- The functions of `emu_lib`. -/
def luaCode (bus : LockedBus σ) : (o : LuaOp σ) → Locked σ o.Res
  | .peekSfr addr => bus.get (byteOfLua addr) >>= fun v => .done (luaOfByte v)
  | .pokeSfr addr v => bus.put (byteOfLua addr) (byteOfLua v)
  | .peekXram addr => access (.lua (.peekXram addr))
  | .pokeXram addr v => access (.lua (.pokeXram addr v))
  | .peekRom addr => access (.lua (.peekRom addr))
  | .pokePcx v => access (.lua (.pokePcx v))
  | .makeRam name size => access (.lua (.makeRam name size))
  | .mapRom name start len ofs => access (.lua (.mapRom name start len ofs))
  | .mapXram name start len ofs readonly => access (.lua (.mapXram name start len ofs readonly))
  | .get => access (.lua .get)
  | .set g => access (.lua (.set g))
  | .error => access (.lua .error)

/-- `ramd_hook`. -/
def hookCode (script : Script σ) (bus : LockedBus σ) (write : Bool) (a : Byte) :
    Locked σ Unit := do
  let g ← access (.lua .get)
  match script.ramdHooks g a with
  | none => .done ()
  | some hook =>
      let data ← access (.load a)
      let result ← (hook write (luaOfByte data)).expand (luaCode bus)
      access (.store a (byteOfLua result))

/-- `ramd_get`: `SCON` and `SBUF` are read with the mutex held. -/
def ramdGetCode (script : Script σ) (bus : LockedBus σ) (a : Byte) : Locked σ Byte :=
  if a = SCON ∨ a = SBUF then guarded (.load a)
  else do
    hookCode script bus false a
    access (.load a)

/-- `default_ramd_get`. -/
def defaultRamdGetCode (script : Script σ) (bus : LockedBus σ) (a : Byte) : Locked σ Byte :=
  (if a = PSW then access .refreshPsw else .done ()) >>= fun _ => ramdGetCode script bus a

/-- `readd`. -/
def readdCode (script : Script σ) (bus : LockedBus σ) (a : Byte) : Locked σ Byte := do
  let trap ← access (.trapped a)
  if trap then defaultRamdGetCode script bus a else access (.load a)

/-- `writed` on `SCON`, as `ramd_put` calls it after it has given back the mutex. -/
def pokeSconCode (v : Byte) : Locked σ Unit := do
  let trap ← access (.trapped SCON)
  if trap then do
    guarded (.store SCON v)
    access (.notify SCON)
  else access (.store SCON v)

/-- `ramd_put`: `SCON` and `SBUF` are written with the mutex held, and `SCON` is then read without
it. -/
def ramdPutCode (script : Script σ) (bus : LockedBus σ) (a v : Byte) : Locked σ Unit :=
  if a = DPS then do
    access (.store DPS (v &&& 1))
    if v &&& 1 ≠ 0 then access (.mapDptr ⟨DPL1, isDpl1⟩ ⟨DPH1, isDph1⟩)
    else access (.mapDptr ⟨DPL0, isDpl0⟩ ⟨DPH0, isDph0⟩)
  else if a = SCON then guarded (.store SCON v)
  else if a = SBUF then do
    access (.transmit v)
    guarded (.store SBUF v)
    let scon ← access (.load SCON)
    pokeSconCode (scon ||| SCON_TI)
  else do
    access (.store a v)
    hookCode script bus true a

/-- The part of `default_ramd_put` after `ramd_put`. -/
def afterRamdPutCode (a : Byte) : Locked σ Unit :=
  (if a = PSW then access .window else .done ()) >>= fun _ => access (.notify a)

/-- `writed`. -/
def writedCode (script : Script σ) (bus : LockedBus σ) (a v : Byte) : Locked σ Unit := do
  let trap ← access (.trapped a)
  if trap then do
    ramdPutCode script bus a v
    afterRamdPutCode a
  else access (.store a v)

/-- The accessors available to a hook when `n` more levels of nesting are left. -/
def lockedBusAt (script : Script σ) : ℕ → LockedBus σ
  | 0 =>
      { get := fun _ => access .fail >>= fun e => e.elim
        put := fun _ _ => access .fail >>= fun e => e.elim }
  | n + 1 =>
      { get := readdCode script (lockedBusAt script n)
        put := writedCode script (lockedBusAt script n) }

/-- The operations of instructions. -/
def cpuCode (script : Script σ) : (o : CpuOp) → Locked σ o.Res
  | .readd a => readdCode script (lockedBusAt script script.ccalls) a
  | .writed a v => writedCode script (lockedBusAt script script.ccalls) a v
  | .fetch ofs => access (.cpu (.fetch ofs))
  | .readc addr => access (.cpu (.readc addr))
  | .readx addr => access (.cpu (.readx addr))
  | .writex addr v => access (.cpu (.writex addr v))
  | .xramP2addr => access (.cpu .xramP2addr)
  | .readi addr => access (.cpu (.readi addr))
  | .writei addr v => access (.cpu (.writei addr v))
  | .getRx n => access (.cpu (.getRx n))
  | .setRx n v => access (.cpu (.setRx n v))
  | .get r => access (.cpu (.get r))
  | .set r v => access (.cpu (.set r v))
  | .getDptr => access (.cpu .getDptr)
  | .setDph v => access (.cpu (.setDph v))
  | .setDpl v => access (.cpu (.setDpl v))
  | .getPc => access (.cpu .getPc)
  | .setPc w => access (.cpu (.setPc w))
  | .irqlevelReti => access (.cpu .irqlevelReti)
  | .setBreakpoint mask val => access (.cpu (.setBreakpoint mask val))

/-- The code behind an opcode. -/
def insnCode (script : Script σ) (op : Byte) : Locked σ Unit :=
  (insn op).expand (cpuCode script)

/-! ## The listener -/

/-- The rest of the section of `uart_listener_thread` after it has read `SCON`: whether the byte is
taken (`ok`). The registers are accessed through `sfr_ptr`. -/
def listenerTake (d scon : Byte) : Locked σ Bool :=
  if scon &&& SCON_RI = 0 then do
    access (.store SBUF d)
    let scon ← access (.load SCON)
    access (.store SCON (scon ||| SCON_RI))
    unlock
    .done true
  else do
    unlock
    .done false

/-- One pass of the inner loop of `uart_listener_thread`. -/
def listenerPass (d : Byte) : Locked σ Bool := do
  lock
  let scon ← access (.load SCON)
  listenerTake d scon

/-! ## The loops -/

/-- What a round of each thread's loop hands to the next one: the listener, the byte it has not got
rid of yet. -/
@[reducible] def Loop : Party → Type
  | .cpu => Unit
  | .uart => Option Byte

/-- The body of the loop of `run_8051`. -/
def cpuLoop (script : Script σ) : Locked σ Unit := act ThreadOp.nextop >>= insnCode script

/-- The body of the loop of `uart_listener_thread`: receive a byte, or try again with the one at
hand. -/
def uartLoop : Option Byte → Locked σ (Option Byte)
  | none => act ThreadOp.recv >>= fun d => .done (some d)
  | some d => listenerPass d >>= fun ok => .done (if ok then none else some d)

/-- The loops of both threads. -/
def threadLoop (script : Script σ) : (i : Party) → Loop i → Locked σ (Loop i)
  | .cpu, _ => cpuLoop script
  | .uart, hand => uartLoop hand

/-- The threads when `main` calls `run_8051`: the listener has no byte at hand. -/
def loopStart : (i : Party) → Loop i
  | .cpu => ()
  | .uart => none

end Locked

/-! ## Without the locks -/

/-- The accesses that may be made without the mutex: all but those to `SBUF` and the writes to
`SCON`. -/
def Access.Free : Access σ → Prop
  | .cpu (.readd _) => False
  | .cpu (.writed _ _) => False
  | .lua o => o.OffSfr
  | .load a => a ≠ SBUF
  | .store a _ => a ≠ SBUF ∧ a ≠ SCON
  | _ => True

/-- The accesses made with the mutex held: loads and stores. -/
def Access.Simple : Access σ → Prop
  | .load _ => True
  | .store _ _ => True
  | _ => False

/-- What the code may rely on: the trap table is the one `sfr_init` has made. -/
def Access.Expected : (o : Access σ) → o.Res → Prop
  | .trapped a, r => r = Machine.sfrInitTrap a
  | _, _ => True

/-- As long as the answers are as expected, the code with locks makes the accesses of the code
without locks, and those that are not free with the mutex held, each in a section of its own. -/
inductive Guards {α : Type} : Locked σ α → Accesses σ α → Prop where
  | done (a : α) : Guards (.done a) (.done a)
  | free {o : Access σ} {k : o.Res → Locked σ α} {k' : o.Res → Accesses σ α} (ho : o.Free)
      (hk : ∀ r, o.Expected r → Guards (k r) (k' r)) :
      Guards (.node (.act (.access o)) k) (.node o k')
  | locked {o : Access σ} {k : o.Res → Locked σ α} {k' : o.Res → Accesses σ α} (ho : o.Simple)
      (hk : ∀ r, o.Expected r → Guards (k r) (k' r)) :
      Guards (.node .lock fun _ => .node (.act (.access o)) fun r => .node .unlock fun _ => k r)
        (.node o k')

namespace Guards

open Locked Accesses

variable {α β : Type} {script : Script σ}

/-- Two pieces of code that guard their accesses guard them one after the other. -/
lemma bind {p : Locked σ α} {q : Accesses σ α} {f : α → Locked σ β} {g : α → Accesses σ β}
    (hp : Guards p q) (hf : ∀ a, Guards (f a) (g a)) : Guards (p >>= f) (q >>= g) := by
  induction hp with
  | done a => exact hf a
  | free ho _ ih => exact .free ho ih
  | locked ho _ ih => exact .locked ho ih

/-- A free access needs no mutex, and guarding it changes nothing. -/
lemma access {o : Access σ} (ho : o.Free) : Guards (Locked.access o) (.node o .done) :=
  .free ho fun r _ => .done r

/-- A load or a store with the mutex held is guarded, in a section of its own. -/
lemma guarded {o : Access σ} (ho : o.Simple) : Guards (Locked.guarded o) (.node o .done) :=
  .locked ho fun r _ => .done r

/-- Code that depends on whether an address is trapped. -/
lemma trapped {a : Byte} {f : Bool → Locked σ α} {g : Bool → Accesses σ α}
    (h : Guards (f (Machine.sfrInitTrap a)) (g (Machine.sfrInitTrap a))) :
    Guards (Locked.access (.trapped a) >>= f) (Accesses.trapped a >>= g) :=
  .free trivial fun r hr => by
    obtain rfl : r = Machine.sfrInitTrap a := hr
    exact h

/-- A program whose operations are each guarded is guarded. -/
lemma expand {Op : Type} {Res : Op → Type} {f : (o : Op) → Locked σ (Res o)}
    {g : (o : Op) → Accesses σ (Res o)} (hf : ∀ o, Guards (f o) (g o)) (p : Prog Op Res α) :
    Guards (p.expand f) (p.expand g) := by
  induction p with
  | done a => exact .done a
  | node o k ih => exact (hf o).bind ih

/-- The two kinds of accessors correspond. -/
structure SameCode (bus : LockedBus σ) (steps : AccessBus σ) : Prop where
  get : ∀ a, Guards (bus.get a) (steps.get a)
  put : ∀ a v, Guards (bus.put a v) (steps.put a v)

variable {bus : LockedBus σ} {steps : AccessBus σ}

/-- A step of a hook guards its accesses. -/
lemma luaCode (h : SameCode bus steps) (o : LuaOp σ) :
    Guards (Locked.luaCode bus o) (luaSteps steps o) := by
  cases o with
  | peekSfr addr => exact (h.get _).bind fun v => .done _
  | pokeSfr addr v => exact h.put _ _
  | _ => exact access trivial

/-- Hooks are called outside the sections, for addresses other than `SBUF`, and leave `SCON` to
`poke_sfr`. -/
lemma hookCode (h : SameCode bus steps) (write : Bool) {a : Byte} (ha : a ≠ SBUF) (ha' : a ≠ SCON) :
    Guards (Locked.hookCode script bus write a) (hookSteps script steps write a) := by
  refine .free trivial fun g _ => ?_
  change Guards (match script.ramdHooks g a with
    | none => _
    | some hook => _) (match script.ramdHooks g a with
    | none => _
    | some hook => _)
  cases script.ramdHooks g a with
  | none => exact .done ()
  | some hook =>
    refine .free ha fun data _ => ?_
    exact (expand (luaCode h) _).bind fun result => access ⟨ha, ha'⟩

/-- `ramd_get` guards its accesses: `SCON` and `SBUF` are read with the mutex held. -/
lemma ramdGetCode (h : SameCode bus steps) (a : Byte) :
    Guards (Locked.ramdGetCode script bus a) (ramdGetSteps script steps a) := by
  unfold Locked.ramdGetCode ramdGetSteps
  split_ifs with ha
  · exact guarded trivial
  · rw [not_or] at ha
    exact (hookCode h false ha.2 ha.1).bind fun _ => access ha.2

/-- `default_ramd_get` guards its accesses, as the parity of `PSW` needs no mutex. -/
lemma defaultRamdGetCode (h : SameCode bus steps) (a : Byte) :
    Guards (Locked.defaultRamdGetCode script bus a) (defaultRamdGetSteps script steps a) := by
  refine bind ?_ fun _ => ramdGetCode h a
  split_ifs
  · exact access trivial
  · exact .done ()

/-- An address that is not trapped is neither `SBUF` nor `SCON`. -/
lemma free_of_untrapped {a : Byte} (h : Machine.sfrInitTrap a = false) : a ≠ SBUF ∧ a ≠ SCON := by
  constructor
  · rintro rfl
    exact absurd h (by decide)
  · rintro rfl
    exact absurd h (by decide)

/-- `readd` guards its accesses, as long as the trap table is the one `sfr_init` has made. -/
lemma readdCode (h : SameCode bus steps) (a : Byte) :
    Guards (Locked.readdCode script bus a) (readdSteps script steps a) := by
  refine trapped ?_
  cases ha : Machine.sfrInitTrap a with
  | true => exact defaultRamdGetCode h a
  | false => exact access (free_of_untrapped ha).1

/-- `poke_sfr` on `SCON` guards its accesses: the store has a section of its own. -/
lemma pokeSconCode (v : Byte) : Guards (Locked.pokeSconCode v : Locked σ Unit) (pokeSconSteps v) :=
  trapped (.locked trivial fun _ _ => access trivial)

/-- `ramd_put` guards its accesses: `SCON` and `SBUF` are written with the mutex held. -/
lemma ramdPutCode (h : SameCode bus steps) (a v : Byte) :
    Guards (Locked.ramdPutCode script bus a v) (ramdPutSteps script steps a v) := by
  unfold Locked.ramdPutCode ramdPutSteps
  split_ifs with hdps hsel hscon hsbuf
  · exact .free ⟨by decide, by decide⟩ fun _ _ => access trivial
  · exact .free ⟨by decide, by decide⟩ fun _ _ => access trivial
  · exact guarded trivial
  · refine .free trivial fun _ _ => .locked trivial fun _ _ => ?_
    exact .free (show SCON ≠ SBUF by decide) fun scon _ => pokeSconCode _
  · exact .free ⟨hsbuf, hscon⟩ fun _ _ => hookCode h true hsbuf hscon

/-- What follows `ramd_put`, the window and the listeners, needs no mutex. -/
lemma afterRamdPutCode (a : Byte) :
    Guards (Locked.afterRamdPutCode a : Locked σ Unit) (afterRamdPutSteps a) := by
  refine bind ?_ fun _ => access trivial
  split_ifs
  · exact access trivial
  · exact .done ()

/-- `writed` guards its accesses, as long as the trap table is the one `sfr_init` has made. -/
lemma writedCode (h : SameCode bus steps) (a v : Byte) :
    Guards (Locked.writedCode script bus a v) (writedSteps script steps a v) := by
  refine trapped ?_
  cases ha : Machine.sfrInitTrap a with
  | true => exact (ramdPutCode h a v).bind fun _ => afterRamdPutCode a
  | false => exact access (free_of_untrapped ha)

/-- The two kinds of accessors correspond at every depth, by induction over the nesting. -/
lemma lockedBusAt (script : Script σ) (n : ℕ) :
    SameCode (Locked.lockedBusAt script n) (accessBusAt script n) := by
  induction n with
  | zero =>
    exact ⟨fun _ => .free trivial fun e _ => e.elim, fun _ _ => .free trivial fun e _ => e.elim⟩
  | succ n ih => exact ⟨readdCode ih, writedCode ih⟩

/-- So every operation of the CPU guards its accesses. -/
lemma cpuCode (o : CpuOp) : Guards (Locked.cpuCode script o) (cpuSteps script o) := by
  cases o with
  | readd a => exact readdCode (lockedBusAt script _) a
  | writed a v => exact writedCode (lockedBusAt script _) a v
  | _ => exact access trivial

/-- An instruction with its locks makes the accesses of the instruction. -/
theorem insnCode (script : Script σ) (op : Byte) :
    Guards (Locked.insnCode script op) (insnSteps script op) := expand cpuCode (insn op)

end Guards

end Emu51

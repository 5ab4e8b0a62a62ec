import Emu51.Machine.Step

/-!
# The whole program

What `main` sets up before it calls `run_8051`, the UART listener thread, and the events the running
program consists of.
-/

namespace Emu51

namespace Machine

variable {σ : Type}

/-! ## Start -/

/-- The static storage of the program before `main`. The contents of the buffers to come are not
known yet. -/
def static (globals : σ) (heap : ℕ → Buffer) : Machine σ where
  ramsfr := fun _ => 0
  ramsfrtrap := fun _ => false
  reg := regBase 0
  dpl := ⟨DPL0, isDpl0⟩
  dph := ⟨DPH0, isDph0⟩
  pc := 0
  pcx := 0
  rompage := fun _ => none
  xrampage := fun _ => none
  xramfnwr := fun _ => none
  heap := heap
  nbuf := 0
  irqlevel := 0
  irqpendl0 := 0
  irqpendl1 := 0
  irqs := fun _ => { vec := 0, enable := none, source := none, prio := none }
  ramsfrnotifiers := fun _ => []
  bpmask := 0
  bpval := 0xffffffff
  uartOut := []
  lua := globals

/-- `paddedsize`: the file's size rounded up to whole pages. Files are smaller than `2 ^ 31`. -/
def paddedSize (size : ℕ) : ℕ := (size + 255) / 256 * 256

/-- Create the buffer `rom` and read the file into it. -/
def loadRom (m : Machine σ) (file : List Byte) : Machine σ :=
  let m' := m.createBuffer "rom" (paddedSize file.length)
  { m' with
    heap := Function.update m'.heap m.nbuf
      { m'.heap m.nbuf with
        mem := fun i =>
          if 0 ≤ i ∧ i < file.length then file.getD i.toNat 0 else (m'.heap m.nbuf).mem i } }

/-- The bits of the UART's interrupt. -/
def uart0Irq : IrqData where
  vec := 0x23
  enable := some { data := IE, mask := 0x10, xorval := 0 }
  source := some { data := SCON, mask := 0x03, xorval := 0 }
  prio := some { data := IP, mask := 0x10, xorval := 0 }

/-- The bits of timer 2's interrupt. -/
def timer2Irq : IrqData where
  vec := 0x2b
  enable := some { data := IE, mask := 0x20, xorval := 0 }
  source := some { data := T2CON, mask := 0x80, xorval := 0 }
  prio := some { data := IP, mask := 0x20, xorval := 0 }

/-- `main` up to and including `sfr_init`. -/
def mainInit (script : Script σ) (heap : ℕ → Buffer) (file : List Byte) : Option (Machine σ) := do
  let m ← ((static script.globals heap).loadRom file).mapIrq 4 uart0Irq
  let m ← m.mapIrq 5 timer2Irq
  m.sfrInit script

/-- `main` up to the call of `run_8051`: the chip script is loaded last. -/
def boot (script : Script σ) (heap : ℕ → Buffer) (file : List Byte) : Option (Machine σ) := do
  let m ← mainInit script heap file
  let y ← m.runLua script script.chunk
  pure y.2

/-- The interrupts that watch each register after `main`. -/
def mainNotifiers (a : Byte) : List (Fin 32) :=
  if a = IE ∨ a = IP then [4, 5] else if a = SCON then [4] else if a = T2CON then [5] else []

/-- The interrupts `main` maps. -/
def mainIrqs : Fin 32 → IrqData :=
  Function.update (Function.update (fun _ => ⟨0, none, none, none⟩) 4 uart0Irq) 5 timer2Irq

/-- The state of the CPU when `main` has initialised it. -/
structure Started (m : Machine σ) : Prop where
  ramsfr : m.ramsfr = Function.update (fun _ => 0) (dataCell SP) 0x07
  ramsfrtrap : m.ramsfrtrap = sfrInitTrap
  reg : m.reg = regBase 0
  irqlevel : m.irqlevel = 0
  irqpendl0 : m.irqpendl0 = 0
  irqpendl1 : m.irqpendl1 = 0
  irqs : m.irqs = mainIrqs
  ramsfrnotifiers : m.ramsfrnotifiers = mainNotifiers

/-- `main` succeeds, and this is what it sets up. -/
theorem mainInit_started (script : Script σ) (heap : ℕ → Buffer) (file : List Byte) :
    ∃ m, mainInit script heap file = some m ∧ Started m := by
  refine ⟨_, rfl, rfl, rfl, rfl, rfl, rfl, rfl, rfl, ?_⟩
  -- six registers are watched, in this order
  change Function.update (Function.update (Function.update (Function.update (Function.update
    (Function.update (fun _ => []) IE [4]) SCON [4]) IP [4]) IE [4, 5]) T2CON [5]) IP [4, 5] = _
  funext a
  revert a
  decide

/-- `main` written out without the `do`: the set-up, and then the script. -/
lemma boot_eq (script : Script σ) (heap : ℕ → Buffer) (file : List Byte) :
    boot script heap file = (mainInit script heap file).bind fun m =>
      (m.runLua script script.chunk).bind fun y => some y.2 := rfl

/-- `main` ends in a state that the chip script has made of what `main` set up. -/
lemma boot_eq_some {script : Script σ} {heap : ℕ → Buffer} {file : List Byte} {m : Machine σ}
    (h : boot script heap file = some m) :
    ∃ m₀ y, Started m₀ ∧ m₀.runLua script script.chunk = some y ∧ m = y.2 := by
  obtain ⟨m₀, hinit, hstart⟩ := mainInit_started script heap file
  rw [boot_eq, hinit, Option.bind_some] at h
  obtain ⟨y, hy, hm⟩ := Option.bind_eq_some_iff.1 h
  exact ⟨m₀, y, hstart, hy, (Option.some.inj hm).symm⟩

/-! ## The UART listener -/

/-- The section of `uart_listener_thread` inside the mutex: whether the byte was taken, and the new
state. `SCON` and `SBUF` are written through `sfr_ptr`. -/
def uartListener (d : Byte) (m : Machine σ) : Bool × Machine σ :=
  if m.sfr SCON &&& SCON_RI = 0 then
    let m := m.setSfr SBUF d
    (true, m.setSfr SCON (m.sfr SCON ||| SCON_RI))
  else (false, m)

/-! ## Events -/

end Machine

/-- What can happen next: an instruction, a call of `poke_sfr`, one pass of the listener with the
byte it holds. -/
inductive Event where
  | insn
  | poke (addr v : Byte)
  | uart (d : Byte)
  deriving DecidableEq

namespace Machine

variable {σ : Type}

/-- What an event does. -/
def happen (script : Script σ) : Event → Machine σ → Option (Machine σ)
  | .insn, m => m.step script
  | .poke addr v, m => m.writed script addr v
  | .uart d, m => some (m.uartListener d).2

/-- The events as a transition relation. -/
def Happens (script : Script σ) (m : Machine σ) (e : Event) (m' : Machine σ) : Prop :=
  happen script e m = some m'

/-! ## A small system -/

end Machine

/-- A script without hooks. -/
def noHooks : Script Unit where
  ramdHooks := fun _ _ => none
  globals := ()
  chunk := .done ()
  ccalls := 1

/-- A script without hooks that maps the first pages of the code. -/
def mapsRom : Script Unit := { noHooks with chunk := Lua.mapRom "rom" 0 0x40 0 }

/-- The state from which the code in the list is run at address 0, with everything else as `main`
leaves it. -/
def Machine.running (code : List Byte) : Machine Unit :=
  { static () fun _ => { name := "rom", size := 0x10000, mem := fun i => code.getD i.toNat 0 } with
    ramsfrtrap := sfrInitTrap
    rompage := fun p => some { buf := 0, ofs := p.toNat * 0x100 }
    irqs := Function.update (Function.update (static () default).irqs 4 uart0Irq) 5 timer2Irq }

end Emu51

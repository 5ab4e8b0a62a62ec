import Emu51.Chip.Latches

/-!
# The switch registers as a store

What the firmware does to the latches and to `INDACC_CMD` it does to a port of the library
(`Shows.step`). So the switch registers are a store (`run_accesses_store`): a read command delivers
what was stored last, and writing back what has been read changes nothing.
-/

namespace Emu51

open Chip Lua RegisterPort

/-! ## The firmware's accesses -/

namespace Machine

variable {σ : Type}

/-- What a read of the register returns. -/
def shown (script : Script σ) (m : Machine σ) (a : Byte) : Byte :=
  ((m.readd script a).map Prod.fst).getD 0

/-- The address in the address registers. -/
def addressed (script : Script σ) (m : Machine σ) : Word := indaccWord (m.shown script)

end Machine

namespace Chip

variable (chip : Chip)

/-- A write to a latch, or a command to a plain register. -/
def Accepted (m : Machine (Globals chip.Indacc)) (w : Byte × Byte) : Prop :=
  chip.IsLatch w.1 ∨ w.1 = INDACC_CMD ∧
    (w.2 = SFR_EXEC_READ_REG ∨ w.2 = SFR_EXEC_WRITE_REG) ∧
    chip.PlainReg (m.addressed chip.script)

/-- The accepted writes as a transition relation. -/
def Accesses (m : Machine (Globals chip.Indacc)) (w : Byte × Byte)
    (m' : Machine (Globals chip.Indacc)) : Prop :=
  chip.Accepted m w ∧ m.writed chip.script w.1 w.2 = some m'

/-- What a write stores: a write command stores what the data registers show at the address that the
address registers show. -/
def stored (m : Machine (Globals chip.Indacc)) (w : Byte × Byte) : List (Word × List Byte) :=
  if w = (INDACC_CMD, SFR_EXEC_WRITE_REG) then
    [(m.addressed chip.script, chip.layout.source.map (m.shown chip.script))]
  else []

/-- What has been stored in a sequence of writes. -/
def storeHistory (tr : List (Machine (Globals chip.Indacc) × (Byte × Byte))) :
    List (Word × List Byte) := tr.flatMap fun e => chip.stored e.1 e.2

/-- A read command, and a look at the data registers. -/
def readCommand : Cpu (List Byte) := do
  Cpu.writed INDACC_CMD SFR_EXEC_READ_REG
  readAll chip.layout.target

/-- Read the register at an address. -/
def readReg (a : Word) : Cpu (List Byte) := do
  Cpu.writed INDACC_ADDR_H (hi a)
  Cpu.writed INDACC_ADDR_L (lo a)
  chip.readCommand

/-- Copy the data registers across, where they are not the same. -/
def copyAcross : Chip → Cpu Unit
  | .rtl8367s _ => do
      let d ← readAll [INDACC_RDATA_H, INDACC_RDATA_L]
      writeAll ([INDACC_WDATA_H, INDACC_WDATA_L].zip d)
  | .rtl8372 => pure ()

/-- A read command followed by a write command. -/
def readWriteBack : Cpu Unit := do
  Cpu.writed INDACC_CMD SFR_EXEC_READ_REG
  chip.copyAcross
  Cpu.writed INDACC_CMD SFR_EXEC_WRITE_REG

/-- What the firmware gets when it reads the register at an address. -/
def observed (m : Machine (Globals chip.Indacc)) (a : Word) : Option (List Byte) :=
  ((chip.readReg a).run (cpuExec chip.script) m).map Prod.fst

/-! ## The machine shows the port -/

variable {chip} {file : List Byte}

/-- The machine shows the state of the port. -/
structure Shows (file : List Byte) (s : State Byte Byte Word) (m : Machine (Globals chip.Indacc)) :
    Prop where
  banked : Machine.Banked file [] m
  globals : Globals.Shows chip s m.lua

variable {s : State Byte Byte Word} {m m' : Machine (Globals chip.Indacc)} {a v : Byte}

/-- A write to a latch of the machine is a write to that latch of the store. -/
lemma Shows.latch (h : Shows file s m) (ha : chip.IsLatch a) (v : Byte) :
    ∃ m', m.writed chip.script a v = some m' ∧ Shows file (s.step chip.layout (.latch a v)) m' := by
  obtain ⟨set, get, hspec⟩ := exists_latchSpec ha
  obtain ⟨m', hm', hbanked, hlua, -⟩ :=
    Machine.writed_latch (v := v) h.banked hspec.only (hspec.hook m.lua)
  refine ⟨m', hm', hbanked, ?_⟩
  rw [hlua]
  refine ⟨hspec.latched _ _ _ h.globals.latched, h.globals.fits.step _, fun b hb => ?_⟩
  rw [regValue, hspec.socRegs]
  exact h.globals.regs b hb

/-- A read of a latch gives what the store has there and changes nothing in the store. -/
lemma Shows.readd (h : Shows file s m) (ha : chip.IsLatch a) :
    ∃ m', m.readd chip.script a = some (s.latches a, m') ∧ Shows file s m' := by
  obtain ⟨set, get, hspec⟩ := exists_latchSpec ha
  obtain ⟨m', hm', hbanked, hlua⟩ := Machine.readd_latch h.banked hspec.only (hspec.hook m.lua)
  rw [hspec.shown _ _ h.globals.latched, byteOfLua_luaOfByte] at hm'
  refine ⟨m', hm', hbanked, ?_⟩
  rw [hlua]
  exact h.globals

/-- What a read of a latch shows is what the store has in that latch. -/
lemma Shows.shown (h : Shows file s m) (ha : chip.IsLatch a) :
    m.shown chip.script a = s.latches a := by
  obtain ⟨m', hm', -⟩ := h.readd ha
  rw [Machine.shown, hm']
  rfl

/-- In both chips the address of a command is the word in the two address latches. -/
lemma addr_layout (chip : Chip) (f : Byte → Byte) : chip.layout.addr f = indaccWord f := by
  cases chip <;> rfl

/-- The register that the machine addresses is the one that the store addresses. -/
lemma Shows.addressed (h : Shows file s m) :
    m.addressed chip.script = chip.layout.addr s.latches := by
  rw [Machine.addressed, addr_layout, indaccWord, h.shown (.inl rfl), h.shown (.inr (.inl rfl)),
    indaccWord]

/-- A command to a plain register is that command to the store, a read or a write. -/
lemma Shows.command (h : Shows file s m) {x : Byte}
    (hx : x = SFR_EXEC_READ_REG ∨ x = SFR_EXEC_WRITE_REG)
    (ha : chip.PlainReg (chip.layout.addr s.latches)) :
    ∃ m', m.writed chip.script INDACC_CMD x = some m' ∧
      Shows file (s.step chip.layout (Chip.command x)) m' := by
  rw [addr_layout] at ha
  have hglobals : ∃ hook r g', chip.script.ramdHooks m.lua INDACC_CMD = some hook ∧
      Globals.Shows chip (s.step chip.layout (Chip.command x)) g' ∧
      ∀ (bus : Bus _) m₁, m₁.lua = m.lua → (hook true (luaOfByte x)).run (Machine.luaExec bus) m₁ =
        some (r, m₁.setLua g') := by
    cases chip with
    | rtl8367s socRegs =>
      obtain ⟨g', hg', hshows⟩ := Rtl8367s.command_shows h.globals hx ha
      refine ⟨Rtl8367s.sfrIndaccCmd, 0, g', rfl, hshows, fun bus m₁ hlua => ?_⟩
      rw [Rtl8367s.run_sfrIndaccCmd, hlua, hg', Option.map_some]
    | rtl8372 =>
      refine ⟨Rtl8372.sfrIndaccCmd, 0, _, rfl, Rtl8372.command_shows h.globals hx ha,
        fun bus m₁ hlua => ?_⟩
      rw [Rtl8372.run_sfrIndaccCmd, hlua]
  obtain ⟨hook, r, g', hhook, hshows, hrun⟩ := hglobals
  obtain ⟨m', hm', hbanked, hlua, -⟩ := Machine.writed_globals (v := x) h.banked
    (show Machine.HookOnly INDACC_CMD by decide) hhook fun bus m₁ _ hlua _ => hrun bus m₁ hlua
  refine ⟨m', hm', hbanked, ?_⟩
  rw [hlua]
  exact hshows

/-- What a write is for the port. -/
def portOp (w : Byte × Byte) : Op Byte Byte :=
  if w.1 = INDACC_CMD then Chip.command w.2 else .latch w.1 w.2

/-- The command register is not a latch. -/
lemma IsLatch.ne_cmd (h : chip.IsLatch a) : a ≠ INDACC_CMD := by
  rintro rfl
  revert h
  cases chip <;> simp [IsLatch, layout]

/-- Every accepted write succeeds and does to the port what it is for it. -/
theorem Shows.step (h : Shows file s m) {w : Byte × Byte} (hw : chip.Accepted m w) :
    ∃ m', m.writed chip.script w.1 w.2 = some m' ∧
      Shows file (s.step chip.layout (portOp w)) m' := by
  rcases hw with ha | ⟨ha, hx, hplain⟩
  · rw [portOp, if_neg ha.ne_cmd]
    exact h.latch ha w.2
  · rw [h.addressed] at hplain
    rw [portOp, if_pos ha, ha]
    exact h.command hx hplain

/-- What an accepted write stores in the machine's log is what it stores in that of the store. -/
lemma Shows.stored (h : Shows file s m) {w : Byte × Byte} (hw : chip.Accepted m w) :
    chip.stored m w = s.stores chip.layout (portOp w) := by
  have hdata : chip.layout.source.map (m.shown chip.script) =
      chip.layout.source.map s.latches :=
    List.map_congr_left fun i hi => h.shown (.inr (.inr (.inl hi)))
  obtain ⟨a, x⟩ := w
  rcases hw with ha | ⟨rfl, rfl | rfl, -⟩
  · rw [Chip.stored, if_neg fun heq => ha.ne_cmd (congrArg Prod.fst heq), portOp,
      if_neg ha.ne_cmd]
    rfl
  · rfl
  · rw [Chip.stored, if_pos rfl, h.addressed, hdata]
    rfl

/-- The port after the stores of the log. -/
structure ShowsStores (chip : Chip) (file : List Byte) (log : List (Word × List Byte))
    (s : State Byte Byte Word) (m : Machine (Globals chip.Indacc)) : Prop where
  shows : Shows file s m
  regs : s.regs = fileAfter chip.initialFile log

/-- One accepted write keeps the machine and the store together, and both logs grow by the same
entry. -/
lemma ShowsStores.step {log : List (Word × List Byte)} (h : ShowsStores chip file log s m)
    {w : Byte × Byte} (hstep : chip.Accesses m w m') :
    ∃ s', ShowsStores chip file (log ++ chip.stored m w) s' m' := by
  obtain ⟨haccepted, hwrite⟩ := hstep
  obtain ⟨m₁, hm₁, hshows⟩ := h.shows.step haccepted
  obtain rfl := Option.some.inj (hwrite.symm.trans hm₁)
  refine ⟨_, hshows, ?_⟩
  rw [h.shows.stored haccepted]
  exact State.regs_step h.regs _

/-- When the script has been loaded, the registers have their initial values. -/
lemma boot_showsStores (hchip : chip ∈ scripts) (heap : ℕ → Buffer) (file : List Byte) :
    ∃ m, Machine.boot chip.script heap file = some m ∧
      ShowsStores chip file [] ⟨fun _ => 0, chip.initialFile⟩ m := by
  obtain ⟨m, hboot, -, hlua⟩ := Machine.boot_mapped chip heap file
  obtain ⟨m₁, hboot₁, hbanked⟩ := Machine.boot_banked chip heap file
  obtain rfl := Option.some.inj (hboot₁.symm.trans hboot)
  refine ⟨_, hboot, ⟨hbanked, ?_⟩, rfl⟩
  change Globals.Shows chip _ m.lua
  rw [hlua]
  refine ⟨?_, fun a => length_toBytes _ _, fun a _ => (ofBytes_initialFile hchip a).symm⟩
  cases chip <;> exact ⟨rfl, rfl, rfl⟩

/-! ## What the firmware reads -/

/-- Code that reads some latches finds what the store has in them. -/
lemma Shows.readAll (h : Shows file s m) {l : List Byte} (hl : ∀ a ∈ l, chip.IsLatch a) :
    ∃ m', (readAll l).run (cpuExec chip.script) m = some (l.map s.latches, m') ∧
      Shows file s m' := by
  induction l generalizing m with
  | nil => exact ⟨m, rfl, h⟩
  | cons a l ih =>
    obtain ⟨ha, hrest⟩ := List.forall_mem_cons.1 hl
    obtain ⟨m₁, hm₁, hshows₁⟩ := h.readd ha
    obtain ⟨m', hm', hshows'⟩ := ih hshows₁ hrest
    refine ⟨m', ?_, hshows'⟩
    rw [Emu51.readAll, Prog.run_bind, Cpu.run_readd, hm₁, Option.bind_some, Prog.run_bind, hm']
    rfl

/-- Code that writes some latches puts its bytes into those of the store. -/
lemma Shows.writeAll (h : Shows file s m) {is : List Byte} (his : ∀ a ∈ is, chip.IsLatch a)
    (bs : List Byte) : ∃ m', (writeAll (is.zip bs)).run (cpuExec chip.script) m = some ((), m') ∧
      Shows file { s with latches := deliver is bs s.latches } m' := by
  induction is generalizing s m bs with
  | nil => exact ⟨m, rfl, h⟩
  | cons a is ih =>
    obtain ⟨ha, hrest⟩ := List.forall_mem_cons.1 his
    cases bs with
    | nil => exact ⟨m, rfl, h⟩
    | cons b bs =>
      obtain ⟨m₁, hm₁, hshows₁⟩ := h.latch ha b
      obtain ⟨m', hm', hshows'⟩ := ih hshows₁ hrest bs
      refine ⟨m', ?_, hshows'⟩
      rw [List.zip_cons_cons, Emu51.writeAll, Prog.run_bind, Cpu.run_writed, hm₁]
      exact hm'

/-- The registers a write command takes its value from are latches. -/
lemma isLatch_source (ha : a ∈ chip.layout.source) : chip.IsLatch a := .inr (.inr (.inl ha))

/-- The registers a read command puts its value in are latches. -/
lemma isLatch_target (ha : a ∈ chip.layout.target) : chip.IsLatch a := .inr (.inr (.inr ha))

/-- A read command puts the addressed register into the result latches, as it does in the store. -/
lemma Shows.readCommand (h : Shows file s m) (ha : chip.PlainReg (chip.layout.addr s.latches)) :
    ∃ m', chip.readCommand.run (cpuExec chip.script) m =
      some (s.regs (chip.layout.addr s.latches), m') := by
  obtain ⟨m₁, hm₁, hshows₁⟩ := h.command (.inl rfl) ha
  obtain ⟨m', hm', -⟩ := hshows₁.readAll fun _ => isLatch_target
  refine ⟨m', ?_⟩
  rw [Chip.readCommand, Prog.run_bind, Cpu.run_writed, hm₁, Option.map_some, Option.bind_some, hm']
  exact congrArg (fun d => some (d, m')) (State.map_latches_read h.globals.fits)

/-- The firmware gets what the store has in the port when it reads a plain register. -/
lemma Shows.observed (h : Shows file s m) {r : Word} (hr : chip.PlainReg r) :
    chip.observed m r = some (s.regs r) := by
  obtain ⟨m₁, hm₁, hshows₁⟩ := h.latch (.inl rfl) (hi r)
  obtain ⟨m₂, hm₂, hshows₂⟩ := hshows₁.latch (.inr (.inl rfl)) (lo r)
  have haddr : chip.layout.addr
      ((s.step chip.layout (.latch INDACC_ADDR_H (hi r))).step chip.layout
        (.latch INDACC_ADDR_L (lo r))).latches = r := by
    rw [addr_layout]
    exact word_hi_lo r
  obtain ⟨m', hm'⟩ := hshows₂.readCommand (by rwa [haddr])
  rw [haddr] at hm'
  rw [Chip.observed, readReg, Prog.run_bind, Cpu.run_writed, hm₁, Option.map_some,
    Option.bind_some, Prog.run_bind, Cpu.run_writed, hm₂, Option.map_some, Option.bind_some, hm']
  rfl

/-- Code that copies the result latches to the data latches does this copy in the store. -/
lemma Shows.copyAcross (h : Shows file s m) :
    ∃ m', chip.copyAcross.run (cpuExec chip.script) m = some ((), m') ∧
      Shows file (s.copied chip.layout) m' := by
  cases chip with
  | rtl8367s socRegs =>
    have htarget : ∀ a ∈ (Chip.rtl8367s socRegs).layout.target,
        (Chip.rtl8367s socRegs).IsLatch a := fun _ => isLatch_target
    obtain ⟨m₁, hm₁, hshows₁⟩ := h.readAll htarget
    obtain ⟨m', hm', hshows'⟩ := hshows₁.writeAll (fun _ => isLatch_source) _
    refine ⟨m', ?_, hshows'⟩
    have hread : (Emu51.readAll [INDACC_RDATA_H, INDACC_RDATA_L]).run
        (cpuExec (Chip.rtl8367s socRegs).script) m = some (_, m₁) := hm₁
    rw [Chip.copyAcross, Prog.run_bind, hread]
    exact hm'
  | rtl8372 =>
    refine ⟨m, rfl, ?_⟩
    rw [State.copied_eq_self rfl]
    exact h

/-- Reading a plain register and writing back what has been read leaves all the registers as they
were. -/
lemma Shows.readWriteBack (h : Shows file s m) (ha : chip.PlainReg (chip.layout.addr s.latches)) :
    ∃ m' s', chip.readWriteBack.run (cpuExec chip.script) m = some ((), m') ∧ Shows file s' m' ∧
      s'.regs = s.regs := by
  obtain ⟨m₁, hm₁, hshows₁⟩ := h.command (.inl rfl) ha
  obtain ⟨m₂, hm₂, hshows₂⟩ := hshows₁.copyAcross
  obtain ⟨m', hm', hshows'⟩ := hshows₂.command (x := SFR_EXEC_WRITE_REG) (.inr rfl) (by
    rw [State.addr_copied]
    exact (congrArg _ State.addr_read).mpr ha)
  refine ⟨m', _, ?_, hshows', State.regs_write_back h.globals.fits⟩
  rw [Chip.readWriteBack, Prog.run_bind, Cpu.run_writed, hm₁, Option.map_some, Option.bind_some,
    Prog.run_bind, hm₂, Option.bind_some, Cpu.run_writed, hm']
  rfl

/-! ## The store -/

/-- In every sequence of accepted writes after the script has been loaded, the next accepted write
succeeds. A read command delivers, byte by byte, what the most recent write command to the same
address has stored, or the initial value if there was none; and reading a register and writing it
back changes no register. -/
theorem run_accesses_store (hchip : chip ∈ scripts) {heap : ℕ → Buffer}
    {m₀ m : Machine (Globals chip.Indacc)} (hboot : Machine.boot chip.script heap file = some m₀)
    {tr : List (Machine (Globals chip.Indacc) × (Byte × Byte))}
    (hrun : Run chip.Accesses m₀ tr m) :
    (∀ w, chip.Accepted m w → ∃ m', chip.Accesses m w m') ∧
    (chip.PlainReg (m.addressed chip.script) →
      (∃ m', chip.readCommand.run (cpuExec chip.script) m = some
        (fileAfter chip.initialFile (chip.storeHistory tr) (m.addressed chip.script), m')) ∧
      ∃ m', chip.readWriteBack.run (cpuExec chip.script) m = some ((), m') ∧
        ∀ a, chip.PlainReg a →
          chip.observed m a = some (fileAfter chip.initialFile (chip.storeHistory tr) a) ∧
          chip.observed m' a = chip.observed m a) := by
  obtain ⟨m₁, hboot₁, hstart⟩ := boot_showsStores hchip heap file
  obtain rfl := Option.some.inj (hboot₁.symm.trans hboot)
  obtain ⟨s, hs⟩ := hrun.logged (I := fun log m => ∃ s, ShowsStores chip file log s m)
    (fun _ _ _ _ ⟨s, h⟩ hstep => h.step hstep) ⟨_, hstart⟩
  have hlog : s.regs = fileAfter chip.initialFile (chip.storeHistory tr) := hs.regs
  refine ⟨fun w hw => ?_, fun ha => ⟨?_, ?_⟩⟩
  · obtain ⟨m', hm', -⟩ := hs.shows.step hw
    exact ⟨m', hw, hm'⟩
  · rw [← hlog, hs.shows.addressed]
    rw [hs.shows.addressed] at ha
    exact hs.shows.readCommand ha
  · rw [hs.shows.addressed] at ha
    obtain ⟨m', s', hm', hshows', hregs⟩ := hs.shows.readWriteBack ha
    refine ⟨m', hm', fun a ha => ?_⟩
    rw [hshows'.observed ha, hs.shows.observed ha, hregs, hlog]
    exact ⟨rfl, rfl⟩

/-- The theorem after a write command to register 0 and a read command to the register that names
the model. When register 0 is read then, it still has what was written. -/
theorem run_accesses_store_kept : ∃ (m₀ m m' : Machine Rtl8372.G)
    (tr : List (Machine Rtl8372.G × (Byte × Byte))), Run Chip.rtl8372.Accesses m₀ tr m ∧
      tr.map Prod.snd = [(INDACC_DATA_0, 0x5a), (INDACC_CMD, SFR_EXEC_WRITE_REG),
        (INDACC_ADDR_L, 0x04), (INDACC_CMD, SFR_EXEC_READ_REG), (INDACC_ADDR_L, 0x00)] ∧
      m.shown Rtl8372.script INDACC_DATA_24 = 0x83 ∧
      Chip.rtl8372.readCommand.run (cpuExec Rtl8372.script) m =
        some ([0x00, 0x00, 0x00, 0x5a], m') := by
  have hchip : Chip.rtl8372 ∈ scripts := List.mem_cons_of_mem _ List.mem_cons_self
  have heval : ((Machine.boot Rtl8372.script (fun _ => default) []).bind fun m₀ =>
      (m₀.writed Rtl8372.script INDACC_DATA_0 0x5a).bind fun m₁ =>
        (m₁.writed Rtl8372.script INDACC_CMD SFR_EXEC_WRITE_REG).bind fun m₂ =>
          (m₂.writed Rtl8372.script INDACC_ADDR_L 0x04).bind fun m₃ =>
            (m₃.writed Rtl8372.script INDACC_CMD SFR_EXEC_READ_REG).bind fun m₄ =>
              (m₄.writed Rtl8372.script INDACC_ADDR_L 0x00).map fun m =>
                ([m₁, m₃, m].map (Machine.addressed Rtl8372.script),
                  [INDACC_DATA_24, INDACC_DATA_16, INDACC_DATA_8, INDACC_DATA_0].map
                    (m₁.shown Rtl8372.script), m.shown Rtl8372.script INDACC_DATA_24)) =
      some ([0x0000, 0x0004, 0x0000], [0x00, 0x00, 0x00, 0x5a], 0x83) := by
    decide +kernel
  obtain ⟨m₀, hboot, heval⟩ := Option.bind_eq_some_iff.1 heval
  obtain ⟨m₁, h₁, heval⟩ := Option.bind_eq_some_iff.1 heval
  obtain ⟨m₂, h₂, heval⟩ := Option.bind_eq_some_iff.1 heval
  obtain ⟨m₃, h₃, heval⟩ := Option.bind_eq_some_iff.1 heval
  obtain ⟨m₄, h₄, heval⟩ := Option.bind_eq_some_iff.1 heval
  obtain ⟨m, h₅, hval⟩ := Option.map_eq_some_iff.1 heval
  obtain ⟨haddrs, hval⟩ := Prod.mk.inj hval
  obtain ⟨hdata, hmodel⟩ := Prod.mk.inj hval
  simp only [List.map_cons, List.map_nil, List.cons.injEq, and_true] at haddrs
  obtain ⟨haddr₁, haddr₃, haddr⟩ := haddrs
  have hplain : ∀ a : Word, a = 0x0000 ∨ a = 0x0004 → Chip.rtl8372.PlainReg a := by
    rintro a (rfl | rfl)
    · exact ⟨by decide, by decide, by decide, by decide⟩
    · exact ⟨by decide, by decide, by decide, by decide⟩
  have hdataLatch : Chip.rtl8372.IsLatch INDACC_DATA_0 := .inr (.inr (.inl (by decide)))
  have hrun : Run Chip.rtl8372.Accesses m₀
      [(m₀, (INDACC_DATA_0, 0x5a)), (m₁, (INDACC_CMD, SFR_EXEC_WRITE_REG)),
        (m₂, (INDACC_ADDR_L, 0x04)), (m₃, (INDACC_CMD, SFR_EXEC_READ_REG)),
        (m₄, (INDACC_ADDR_L, 0x00))] m :=
    .head ⟨.inl hdataLatch, h₁⟩
      (.head ⟨.inr ⟨rfl, .inr rfl, hplain _ (.inl haddr₁)⟩, h₂⟩
        (.head ⟨.inl (.inr (.inl rfl)), h₃⟩
          (.head ⟨.inr ⟨rfl, .inl rfl, hplain _ (.inr haddr₃)⟩, h₄⟩
            (.head ⟨.inl (.inr (.inl rfl)), h₅⟩ (.refl m)))))
  obtain ⟨m', hread⟩ := ((run_accesses_store hchip hboot hrun).2 (hplain _ (.inl haddr))).1
  refine ⟨m₀, m, m', _, hrun, rfl, hmodel, hread.trans ?_⟩
  have hhistory : Chip.rtl8372.storeHistory [(m₀, (INDACC_DATA_0, 0x5a)),
      (m₁, (INDACC_CMD, SFR_EXEC_WRITE_REG)), (m₂, (INDACC_ADDR_L, 0x04)),
      (m₃, (INDACC_CMD, SFR_EXEC_READ_REG)), (m₄, (INDACC_ADDR_L, 0x00))] =
      [(0x0000, [0x00, 0x00, 0x00, 0x5a])] := by
    rw [← haddr₁, ← hdata]
    rfl
  rw [hhistory]
  have haddr' : m.addressed Chip.rtl8372.script = 0x0000 := haddr
  rw [haddr']
  rfl

end Chip

end Emu51

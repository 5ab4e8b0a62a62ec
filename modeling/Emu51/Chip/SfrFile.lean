import Emu51.Chip.Hooks
import Emu51.Machine.SfrStore

/-!
# The special function registers of the chips

Of the registers that the scripts do not use for anything but an effect of the write, or for
nothing at all, each is a memory cell, and four registers for commands always read as 0.
-/

namespace Emu51

open Chip Lua

/-- The registers whose hooks answer with a global: timer 0, the latches of the switch and of the
flash, and the second stack. -/
def globalRegs : List Byte :=
  [0x8a, 0x8c, 0xa2, 0xa3, 0xa4, 0xa5, 0xa6, 0xa7, SPI_S_DATA0, SPI_S_DATA1, SPI_S_DATA2,
    SPI_S_DATA3, SPI_S_RCMD, 0xb9, 0xba, 0xbb]

/-- `CACHE_CTRL`, `INDACC_CMD`, `INDACC_STATUS` and `PEDMA_LEN`. -/
def commandRegs : List Byte := [CACHE_CTRL, 0xa0, 0xa1, 0xb7]

namespace Chip

/-- The register is not one of those that the emulator, a global or, under `rtl8372.lua`, the hook
of `PCON` changes. -/
def OwnValue (chip : Chip) (a : Byte) : Prop :=
  0x80 ≤ a ∧ a ∉ coreRegs ∧ a ∉ globalRegs ∧
    match chip with
    | .rtl8367s _ => True
    | .rtl8372 => a ≠ T2CON

/-- What such a register answers. -/
def answer (a : Byte) : Byte → Byte := if a ∈ commandRegs then fun _ => 0 else id

/-! ## The hooks -/

section Hooks

variable {ρ σ : Type} {a : Byte}

/-- The hook of a register answers as told, or with a global. -/
def Answering (e : Byte × Hook σ) : Prop :=
  e.1 ∈ globalRegs ∨
    ∀ w (v : Byte), (e.2 w (luaOfByte v)).Returns fun r => byteOfLua r = answer e.1 v

/-- A hook of a register that is kept in the globals may answer as it likes. -/
lemma answering_of_global (h : a ∈ globalRegs) (hook : Hook σ) : Answering (a, hook) := .inl h

/-- Code that ends by returning the byte answers with it, whatever it has done before. -/
lemma answering_of_data (ha : a ∉ commandRegs) {p : Bool → LuaInt → LuaProg σ Unit} :
    Answering (a, fun w d => p w d >>= fun _ => pure d) := by
  refine .inr fun w v => Prog.returns_bind _ fun _ => ?_
  rw [answer, if_neg ha]
  exact byteOfLua_luaOfByte v

/-- A command register's code may do what it likes, if it ends by returning 0. -/
lemma answering_of_zero (ha : a ∈ commandRegs) {p : Bool → LuaInt → LuaProg σ Unit} :
    Answering (a, fun w d => p w d >>= fun _ => pure 0) := by
  refine .inr fun w v => Prog.returns_bind _ fun _ => ?_
  rw [answer, if_pos ha]
  rfl

/-- A register without behaviour answers with its own cell, unless it is one that carries out
commands. -/
lemma answering_plain (ha : a ∉ commandRegs) : Answering (a, (plain : Hook (Globals ρ))) :=
  answering_of_data (p := fun _ _ => .done ()) ha

/-- So does a latch without a reader. -/
lemma answering_latchOnly (ha : a ∉ commandRegs) (set : LuaInt → Globals ρ → Globals ρ) :
    Answering (a, latchOnly set) := answering_of_data ha

/-- So does `PCON` of the RTL8372, whose hook pokes another register. -/
lemma answering_sfrPcon : Answering (0x87, Rtl8372.sfrPcon) := by
  refine .inr fun w v => Prog.returns_bind _ fun _ => Prog.returns_bind _ fun _ =>
    Prog.returns_bind _ fun _ => ?_
  exact byteOfLua_luaOfByte v

end Hooks

/-- All hooks of the RTL8367S answer as the register file says. -/
theorem Rtl8367s.hooks_answering : ∀ e ∈ Rtl8367s.ramdHooks, Answering e := by
  simp only [Rtl8367s.ramdHooks, List.forall_mem_cons]
  refine ⟨answering_of_zero (by decide), answering_plain (by decide), answering_plain (by decide),
    answering_of_global (by decide) _, answering_plain (by decide),
    answering_of_global (by decide) _, answering_plain (by decide), answering_of_data (by decide),
    answering_of_data (by decide), answering_of_zero (by decide),
    answering_of_zero (p := fun _ _ => .done ()) (by decide), ?_, ?_, ?_, ?_, ?_, ?_,
    answering_plain (by decide), answering_latchOnly (by decide) _,
    answering_latchOnly (by decide) _, answering_latchOnly (by decide) _, ?_, ?_, ?_, ?_, ?_,
    answering_of_zero (by decide), ?_, ?_, ?_, answering_plain (by decide),
    answering_plain (by decide), answering_plain (by decide), List.forall_mem_nil _⟩
  all_goals exact answering_of_global (by decide) _

/-- All hooks of the RTL8372 answer as the register file says. -/
theorem Rtl8372.hooks_answering : ∀ e ∈ Rtl8372.ramdHooks, Answering e := by
  simp only [Rtl8372.ramdHooks, List.forall_mem_cons]
  refine ⟨answering_of_zero (by decide), answering_sfrPcon, answering_plain (by decide),
    answering_plain (by decide), answering_of_global (by decide) _, answering_plain (by decide),
    answering_of_global (by decide) _, answering_plain (by decide), answering_of_data (by decide),
    answering_of_data (by decide), answering_of_zero (by decide),
    answering_of_zero (p := fun _ _ => .done ()) (by decide), ?_, ?_, ?_, ?_, ?_, ?_,
    answering_plain (by decide), answering_latchOnly (by decide) _,
    answering_latchOnly (by decide) _, answering_latchOnly (by decide) _, ?_, ?_, ?_, ?_, ?_,
    answering_of_zero (by decide), ?_, ?_, ?_, answering_plain (by decide),
    answering_plain (by decide), answering_plain (by decide), List.forall_mem_nil _⟩
  all_goals exact answering_of_global (by decide) _

/-- Every hook in the tables of both scripts answers as the register file says. -/
lemma hook_answering {chip : Chip} {g : Globals chip.Indacc} {a : Byte}
    {hook : Hook (Globals chip.Indacc)} (h : chip.script.ramdHooks g a = some hook) :
    Answering (a, hook) := by
  cases chip with
  | rtl8367s socRegs => exact Rtl8367s.hooks_answering _ (mem_of_lookup h)
  | rtl8372 => exact Rtl8372.hooks_answering _ (mem_of_lookup h)

/-- The registers that carry out commands have hooks in both scripts. -/
lemma notMem_commandRegs {chip : Chip} {g : Globals chip.Indacc} {a : Byte}
    (h : chip.script.ramdHooks g a = none) : a ∉ commandRegs := by
  have hfound : ∀ b ∈ commandRegs, (chip.script.ramdHooks g b).isSome = true := by
    simp only [commandRegs, List.forall_mem_cons]
    cases chip with
    | rtl8367s socRegs => exact ⟨rfl, rfl, rfl, rfl, List.forall_mem_nil _⟩
    | rtl8372 => exact ⟨rfl, rfl, rfl, rfl, List.forall_mem_nil _⟩
  intro ha
  have hsome := hfound a ha
  rw [h] at hsome
  exact Bool.false_ne_true hsome

/-- `rtl8367s.lua` pokes no register at all, so every rule about pokes holds of it. -/
lemma Rtl8367s.pokesOnly (socRegs : LuaInt → Option LuaInt) (ok : Byte → Byte → Prop) :
    (Rtl8367s.script socRegs).PokesOnly ok := by
  intro g a hook h w d
  rcases Rtl8367s.hooks_calm _ (mem_of_lookup h) with hcalm | hbank | hbank
  · refine (hcalm w d).mono fun o ho => ?_
    cases o with
    | pokeSfr addr v => exact absurd ho id
    | _ => trivial
  · obtain ⟨rfl, rfl⟩ := Prod.mk.inj hbank
    refine (all_when fun _ => ?_).bind fun _ => trivial
    exact ⟨trivial, fun _ => ⟨trivial, fun _ => trivial⟩⟩
  · obtain ⟨rfl, rfl⟩ := Prod.mk.inj hbank
    refine (all_when fun _ => Prog.all_ite.2 ⟨fun _ => ?_, fun _ => ?_⟩).bind fun _ => trivial
    · exact ⟨trivial, fun _ => trivial⟩
    · exact ⟨trivial, fun _ => trivial⟩

/-- The register meets what is asked of a register that stores. -/
theorem OwnValue.answers {chip : Chip} {a : Byte} (h : chip.OwnValue a) :
    chip.script.Answers a (answer a) := by
  obtain ⟨hhigh, hcore, hglobal, hchip⟩ := h
  have hpokes : chip.script.PokesOnly fun b _ => b ≠ a := by
    cases chip with
    | rtl8367s socRegs => exact Rtl8367s.pokesOnly socRegs _
    | rtl8372 =>
      refine Chip.rtl8372.pokesOnly (fun _ => hchip.symm) fun _ => ?_
      rintro rfl
      exact hcore (by decide)
  have hchunk : chip.script.chunk.All (LuaOp.PokesOnly fun b _ => b ≠ a) := by
    cases chip <;>
      exact ⟨trivial, fun _ => ⟨trivial, fun _ => ⟨trivial, fun _ => trivial⟩⟩⟩
  refine ⟨hhigh, hcore, ?_, fun v => ?_, fun g hg v => ?_, fun g hook hk => ?_, hpokes, hchunk⟩
  · unfold answer
    split_ifs <;> rfl
  · unfold answer
    split_ifs <;> rfl
  · rw [answer, if_neg (notMem_commandRegs hg), id]
  · exact (hook_answering hk).resolve_left hglobal

/-! ## Reads succeed -/

section Reads

variable {σ : Type}

/-- The hook does nothing in a read but answer. -/
def AnswersAtOnce (e : Byte × Hook σ) : Prop :=
  e.1 ∈ globalRegs ∨ e.1 = PCON ∨ ∀ d, ∃ r, e.2 false d = .done r

/-- All hooks of the RTL8367S answer a read at once, with no step of their own. -/
lemma Rtl8367s.hooks_answer : ∀ e ∈ Rtl8367s.ramdHooks, AnswersAtOnce e := by
  simp only [Rtl8367s.ramdHooks, List.forall_mem_cons]
  refine ⟨?_, ?_, ?_, ?_, ?_, ?_, ?_, ?_, ?_, ?_, ?_, ?_, ?_, ?_, ?_, ?_, ?_, ?_, ?_, ?_, ?_, ?_,
    ?_, ?_, ?_, ?_, ?_, ?_, ?_, ?_, ?_, ?_, ?_, List.forall_mem_nil _⟩
  all_goals
    first
      | exact .inr (.inr fun _ => ⟨_, rfl⟩)
      | exact .inl (by decide)

/-- All hooks of the RTL8372 answer a read at once, with no step of their own. -/
lemma Rtl8372.hooks_answer : ∀ e ∈ Rtl8372.ramdHooks, AnswersAtOnce e := by
  simp only [Rtl8372.ramdHooks, List.forall_mem_cons]
  refine ⟨?_, .inr (.inl rfl), ?_, ?_, ?_, ?_, ?_, ?_, ?_, ?_, ?_, ?_, ?_, ?_, ?_, ?_, ?_, ?_, ?_,
    ?_, ?_, ?_, ?_, ?_, ?_, ?_, ?_, ?_, ?_, ?_, ?_, ?_, ?_, ?_, List.forall_mem_nil _⟩
  all_goals
    first
      | exact .inr (.inr fun _ => ⟨_, rfl⟩)
      | exact .inl (by decide)

/-- A read of `PCON` copies `SCON` to itself and can always be performed. -/
lemma Rtl8372.run_sfrPcon_read (n : ℕ) (d : LuaInt) (m : Machine Rtl8372.G) :
    ∃ y, (Rtl8372.sfrPcon false d).run
      (Machine.luaExec (Machine.busAt Rtl8372.script (n + 1))) m = some y := by
  have hget : (Machine.busAt Rtl8372.script (n + 1)).get SCON m = some (m.sfr SCON, m) := by
    change Machine.readdVia _ _ SCON m = _
    unfold Machine.readdVia
    split_ifs
    · rfl
    · rfl
  have hput : ∀ v m, (Machine.busAt Rtl8372.script (n + 1)).put SCON v m =
    some (Machine.pokeScon v m) := fun v m => Machine.writedVia_scon v
  change ∃ y, ((((Machine.busAt Rtl8372.script (n + 1)).get SCON m).map _).bind _) = some y
  rw [hget]
  change ∃ y, ((((Machine.busAt Rtl8372.script (n + 1)).put SCON _ m).map _).bind _) = some y
  rw [hput]
  exact ⟨_, rfl⟩

/-- A read of such a register always succeeds, as its hook does. -/
lemma OwnValue.exists_readd {chip : Chip} {a : Byte} (h : chip.OwnValue a)
    (m : Machine (Globals chip.Indacc)) : ∃ y, m.readd chip.script a = some y := by
  have hhook : ∃ m', Machine.ramdHook chip.script
      (Machine.busAt chip.script chip.script.ccalls) false a m = some m' := by
    unfold Machine.ramdHook
    cases hfound : chip.script.ramdHooks m.lua a with
    | none => exact ⟨_, rfl⟩
    | some hook =>
      suffices hrun : ∃ y, (hook false (luaOfByte (m.sfr a))).run
          (Machine.luaExec (Machine.busAt chip.script chip.script.ccalls)) m = some y by
        obtain ⟨y, hy⟩ := hrun
        dsimp only
        rw [hy]
        exact ⟨_, rfl⟩
      have honce : AnswersAtOnce (a, hook) := by
        cases chip with
        | rtl8367s socRegs => exact Rtl8367s.hooks_answer _ (mem_of_lookup hfound)
        | rtl8372 => exact Rtl8372.hooks_answer _ (mem_of_lookup hfound)
      rcases honce with hglobal | hpcon | hdone
      · exact absurd hglobal h.2.2.1
      · obtain rfl : a = PCON := hpcon
        cases chip with
        | rtl8367s socRegs => exact absurd hfound.symm (Option.some_ne_none hook)
        | rtl8372 =>
          obtain rfl : Rtl8372.sfrPcon = hook := Option.some.inj hfound
          exact Rtl8372.run_sfrPcon_read 199 _ m
      · obtain ⟨r, hr⟩ : ∃ r, hook false (luaOfByte (m.sfr a)) = .done r := hdone _
        rw [hr]
        exact ⟨_, rfl⟩
  obtain ⟨m', hm'⟩ := hhook
  unfold Machine.readd Machine.readdVia Machine.defaultRamdGet Machine.ramdGet
  rw [if_neg (h.answers.ne (by decide) : a ≠ PSW)]
  split_ifs
  · exact ⟨_, rfl⟩
  · exact ⟨_, rfl⟩
  · rw [hm']
    exact ⟨_, rfl⟩
  · exact ⟨_, rfl⟩

end Reads

variable {chip : Chip} {m₀ m : Machine (Globals chip.Indacc)}
  {tr : List (Machine (Globals chip.Indacc) × Event)}

/-- In every run of either chip, a read of such a register gives the byte that was written to it
last, and 0 if none was; the registers for commands read as 0. -/
theorem run_ownValue {a : Byte} (ha : chip.OwnValue a) {heap : ℕ → Buffer} {file : List Byte}
    (hboot : Machine.boot chip.script heap file = some m₀)
    (hrun : Run (Machine.Happens chip.script) m₀ tr m) (e : Event) :
    ∀ x ∈ Machine.withWrites []
        (Machine.opHistory chip.script tr ++ Machine.visited chip.script m e),
      ∃ m', x.2.2.readd chip.script a = some (answer a (lastWrite a x.1), m') := by
  intro x hx
  obtain ⟨⟨v, m'⟩, hread⟩ := ha.exists_readd x.2.2
  obtain rfl := Machine.run_stored ha.answers hboot hrun e x hx _ hread
  exact ⟨m', hread⟩

/-- The theorem at the port `P1`, after `0x5a` has been written to it. -/
theorem run_ownValue_port : ∃ (m₀ m : Machine (Globals Rtl8372.Indacc))
    (tr : List (Machine (Globals Rtl8372.Indacc) × Event)),
    Machine.boot Rtl8372.script (fun _ => default) [0x75, 0x90, 0x5a, 0xe5, 0x90] = some m₀ ∧
      Run (Machine.Happens Rtl8372.script) m₀ tr m ∧
      ∃ x ∈ Machine.withWrites []
          (Machine.opHistory Rtl8372.script tr ++ Machine.visited Rtl8372.script m .insn),
        x.1 = [(0x90, 0x5a)] ∧ ∃ m', x.2.2.readd Rtl8372.script 0x90 = some (0x5a, m') := by
  have heval : ((Machine.boot Rtl8372.script (fun _ => default)
      [0x75, 0x90, 0x5a, 0xe5, 0x90]).bind fun m₀ =>
        (Machine.happen Rtl8372.script .insn m₀).map fun m =>
          (Machine.withWrites [] (Machine.visited Rtl8372.script m₀ .insn ++
            Machine.visited Rtl8372.script m .insn)).any fun x => x.1 = [(0x90, 0x5a)]) =
      some true := by
    decide +kernel
  obtain ⟨m₀, hboot, hrest⟩ := Option.bind_eq_some_iff.1 heval
  obtain ⟨m, hstep, hany⟩ := Option.map_eq_some_iff.1 hrest
  have hrun : Run (Machine.Happens Rtl8372.script) m₀ [(m₀, .insn)] m := .head hstep (.refl m)
  obtain ⟨x, hx, hwrites⟩ := List.any_eq_true.1 hany
  have hwrites : x.1 = [(0x90, 0x5a)] := of_decide_eq_true hwrites
  have hmem : x ∈ Machine.withWrites [] (Machine.opHistory Rtl8372.script [(m₀, .insn)] ++
      Machine.visited Rtl8372.script m .insn) := by
    rwa [Machine.opHistory, List.flatMap_singleton]
  have hown : Chip.rtl8372.OwnValue 0x90 := ⟨by decide, by decide, by decide, by decide⟩
  obtain ⟨m', hread⟩ := run_ownValue hown hboot hrun .insn x hmem
  rw [hwrites] at hread
  exact ⟨m₀, m, _, hboot, hrun, x, hmem, hwrites, m', hread⟩

end Chip

end Emu51

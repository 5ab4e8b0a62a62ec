import Emu51.Chip.Common
import Emu51.Machine.EmuLib

/-!
# Loading a script

`lua_init` runs a chip script call by call, up to the first error, and `main` returns 1 if there is
one. With the two scripts that have a table of the current form there is none, and `main` runs the
CPU from the state that `boot` gives (`main_rtlCalls`). The other three call `map_rom` with one
argument too few, from before it took an offset, and with them `main` never runs the CPU
(`OldChip.main_fails`).
-/

namespace Emu51

open LuaApi Machine

namespace OnStack

variable {φ σ : Type} {env : LuaEnv φ (Machine σ)} {bus : Bus σ} {m : Machine σ}
  {args : List (LuaValue φ)} {fopen : String → Except String (List Byte)}

/-! ## The calls of a script -/

/-- A call `emu.fn(args)` in a script. -/
structure EmuCall (φ : Type) where
  fn : EmuFn
  args : List (LuaValue φ)

/-- The calls of a script one after the other, up to the first error, as `luaL_dofile` runs them. -/
def runCalls (env : LuaEnv φ (Machine σ)) (fopen : String → Except String (List Byte)) :
    List (EmuCall φ) → Machine σ → Option (Except (LuaValue φ) Unit × Machine σ)
  | [], m => some (.ok (), m)
  | c :: cs, m => do
      let y ← callC (emuLib env fopen c.fn) c.args m
      match y.1 with
      | .error v => some (.error v, y.2)
      | .ok _ => runCalls env fopen cs y.2

/-- An integer argument. -/
def int (n : LuaInt) : LuaValue φ := .number (.inl n)

/-- The calls of `nrf24.lua`. -/
def nrf24Calls : List (EmuCall φ) := [
  ⟨.makeRam, [.string "sram", int 2048]⟩,
  ⟨.makeRam, [.string "usbram", int 2048]⟩,
  ⟨.mapRom, [.string "rom", int 0x00, int 0x80]⟩,
  ⟨.mapRom, [.string "sram", int 0x80, int 8]⟩,
  ⟨.mapXram, [.string "sram", int 0x80, int 8]⟩,
  ⟨.mapXram, [.string "usbram", int 0xc0, int 8]⟩]

/-- The calls of `nrf24le.lua`. -/
def nrf24leCalls : List (EmuCall φ) := [
  ⟨.makeRam, [.string "sram", int 0x400]⟩,
  ⟨.mapRom, [.string "rom", int 0x00, int 0x40]⟩,
  ⟨.mapXram, [.string "sram", int 0x00, int 0x04]⟩]

/-- The calls of `tusb3200.lua`. -/
def tusb3200Calls : List (EmuCall φ) := [
  ⟨.loadRom, [.string "tusb3200.bootrom", int 4096]⟩,
  ⟨.makeRam, [.string "usbram", int 2048]⟩,
  ⟨.mapRom, [.string "rom", int 0x00, int 0x20]⟩,
  ⟨.mapRom, [.string "tusb3200.bootrom", int 0x80, int 0x10]⟩,
  ⟨.mapXram, [.string "rom", int 0x00, int 0x20]⟩,
  ⟨.mapXram, [.string "usbram", int 0xf8, int 0x08]⟩]

/-- The calls of `rtl8367s.lua` and `rtl8372.lua`. -/
def rtlCalls : List (EmuCall φ) := [
  ⟨.makeRam, [.string "sram", int 0xc000]⟩,
  ⟨.mapRom, [.string "rom", int 0x00, int 0x40, int 0]⟩,
  ⟨.mapXram, [.string "sram", int 0x00, int 0xc0, int 0, int 0]⟩]

/-- `main`, with a chip script that makes the given calls. If `lua_init` fails, it has printed the
error, and `main` returns 1. Otherwise this is the state in which `main` runs the CPU. -/
def main (script : Script σ) (env : LuaEnv φ (Machine σ))
    (fopen : String → Except String (List Byte)) (calls : List (EmuCall φ)) (heap : ℕ → Buffer)
    (file : List Byte) : Option (Except (LuaValue φ) (Machine σ)) :=
  (mainInit script heap file).bind fun m =>
    (runCalls env fopen calls m).map fun y => y.1.map fun _ => y.2

/-! ## The scripts that are loaded -/

/-- A call without an error is its program, and then come the other calls. -/
lemma runCalls_cons {c : EmuCall φ} {cs : List (EmuCall φ)} {p : LuaProg σ (List (LuaValue φ))}
    (hcall : callC (emuLib env fopen c.fn) c.args m =
      orRaise (request env m c.fn c.args) m fun p =>
        (p.run (luaExec bus) m).map fun y => (.ok y.1, y.2))
    (hreq : request env m c.fn c.args = .ok p) : runCalls env fopen (c :: cs) m =
      (p.run (luaExec bus) m).bind fun y => runCalls env fopen cs y.2 := by
  change (callC (emuLib env fopen c.fn) c.args m).bind _ = _
  rw [hcall, hreq]
  change ((p.run (luaExec bus) m).map _).bind _ = _
  rw [Option.bind_map]
  rfl

/-- The name of a buffer as a first argument. -/
lemma wantBuffer_string {name : String} {numbers : List (LuaValue φ)} {buf : ℕ}
    (hname : cstring name = name) (hbuf : m.getBuffer name = some buf)
    (hnumbers : (numbers.any fun n => (n.asNumber env).isNone) = false) :
    wantBuffer env m (.string name) numbers = .ok name := by
  change (if (m.getBuffer (cstring name)).isNone then _ else if _ then _ else _) = _
  rw [hname, hbuf, hnumbers]
  rfl

/-- The name `sram` has no null in it, and `lua_tostring` gives it as it is. -/
lemma cstring_sram : cstring "sram" = "sram" := by decide

/-- The same holds of the name `rom`. -/
lemma cstring_rom : cstring "rom" = "rom" := by decide

section Rtl

open Chip

variable {ρ : Type}

/-- The calls of the two scripts are the program `mapMemory`. -/
theorem runCalls_rtlCalls {env : LuaEnv φ (Machine (Globals ρ))} (bus : Bus (Globals ρ))
    {m : Machine (Globals ρ)} {rom : ℕ}
    (hrom : m.getBuffer "rom" = some rom) : runCalls env fopen rtlCalls m =
      (mapMemory.run (luaExec bus) m).map fun y => (.ok (), y.2) := by
  have hsram := registers_createBuffer m "sram" 0xc000
  have hrom' : (m.createBuffer "sram" 0xc000).getBuffer "rom" = some rom :=
    (hsram.sameBuffer (by decide)).1.trans hrom
  have hsram' : ((m.createBuffer "sram" 0xc000).mapRom rom 0x00 0x40 0).getBuffer "sram" =
    some m.nbuf := hsram.getBuffer_self
  have hsize : ∀ n ∈ [LuaValue.string "sram", int 0xc000][1]?, 0 ≤ intOfLua (luaArg env n) := by
    rintro _ ⟨⟩
    exact (by decide : 0 ≤ intOfLua 0xc000)
  have hmake : request env m .makeRam [.string "sram", int 0xc000] =
      .ok (noResult (Lua.makeRam "sram" 0xc000)) := by
    change Except.ok (noResult (Lua.makeRam (cstring "sram") 0xc000)) = _
    rw [cstring_sram]
  have hmap : request env (m.createBuffer "sram" 0xc000) .mapRom
      [.string "rom", int 0x00, int 0x40, int 0] =
      .ok (noResult (Lua.mapRom "rom" 0x00 0x40 0)) := by
    change (wantBuffer env _ _ _).map _ = _
    rw [wantBuffer_string cstring_rom hrom' rfl]
    rfl
  have hmapx : request env ((m.createBuffer "sram" 0xc000).mapRom rom 0x00 0x40 0) .mapXram
      [.string "sram", int 0x00, int 0xc0, int 0, int 0] =
      .ok (noResult (Lua.mapXram "sram" 0x00 0xc0 0 0)) := by
    change (wantBuffer env _ _ _).map _ = _
    rw [wantBuffer_string cstring_sram hsram' rfl]
    rfl
  have hexec : luaExec bus (.mapRom "rom" 0x00 0x40 0) (m.createBuffer "sram" 0xc000) =
      some ((), (m.createBuffer "sram" 0xc000).mapRom rom 0x00 0x40 0) := by
    rw [luaExec, hrom']
    rfl
  have hexecx : luaExec bus (.mapXram "sram" 0x00 0xc0 0 0)
      ((m.createBuffer "sram" 0xc000).mapRom rom 0x00 0x40 0) =
      some ((), ((m.createBuffer "sram" 0xc000).mapRom rom 0x00 0x40 0).mapXram m.nbuf 0x00 0xc0 0)
      := by
    rw [luaExec, hsram']
    rfl
  have hrun : mapMemory.run (luaExec bus) m = some ((),
      ((m.createBuffer "sram" 0xc000).mapRom rom 0x00 0x40 0).mapXram m.nbuf 0x00 0xc0 0) := by
    change (luaExec bus (.mapRom "rom" 0x00 0x40 0) (m.createBuffer "sram" 0xc000)).bind _ = _
    rw [hexec]
    change (luaExec bus (.mapXram "sram" 0x00 0xc0 0 0) _).bind _ = _
    rw [hexecx]
    rfl
  have hrun₁ : (noResult (φ := φ) (Lua.makeRam "sram" 0xc000)).run (luaExec bus) m =
    some ([], m.createBuffer "sram" 0xc000) := rfl
  have hrun₂ : (noResult (φ := φ) (Lua.mapRom "rom" 0x00 0x40 0)).run (luaExec bus)
      (m.createBuffer "sram" 0xc000) =
      some ([], (m.createBuffer "sram" 0xc000).mapRom rom 0x00 0x40 0) := by
    rw [noResult, Prog.run_bind, Lua.mapRom, Prog.run_op, hexec]
    rfl
  have hrun₃ : (noResult (φ := φ) (Lua.mapXram "sram" 0x00 0xc0 0 0)).run (luaExec bus)
      ((m.createBuffer "sram" 0xc000).mapRom rom 0x00 0x40 0) =
      some ([], ((m.createBuffer "sram" 0xc000).mapRom rom 0x00 0x40 0).mapXram m.nbuf 0x00 0xc0 0)
      := by
    rw [noResult, Prog.run_bind, Lua.mapXram, Prog.run_op, hexecx]
    rfl
  rw [rtlCalls, runCalls_cons (callC_makeRam bus fopen hsize) hmake, hrun₁, Option.bind_some,
    runCalls_cons (callC_mapRom bus fopen) hmap, hrun₂, Option.bind_some,
    runCalls_cons (callC_mapXram bus fopen) hmapx, hrun₃, Option.bind_some, hrun]
  rfl

/-- So with them `main` runs the CPU, from the state that `boot` gives. -/
theorem main_rtlCalls {script : Script (Globals ρ)} (hchunk : script.chunk = mapMemory)
    (fopen : String → Except String (List Byte)) (heap : ℕ → Buffer) (file : List Byte) :
    main script (scriptEnv script (busAt script script.ccalls)) fopen rtlCalls heap file =
      (boot script heap file).map .ok := by
  obtain ⟨m, hinit, -⟩ := mainInit_started script heap file
  have hrom : m.getBuffer "rom" = some 0 := by
    have heq : mainInit script heap file = some _ := rfl
    obtain rfl := Option.some.inj (heq.symm.trans hinit)
    rfl
  rw [main, boot_eq, hinit, Option.bind_some, Option.bind_some,
    runCalls_rtlCalls (busAt script (script.ccalls + 1)) hrom, runLua, hchunk]
  cases mapMemory.run (luaExec (busAt script (script.ccalls + 1))) m with
  | none => rfl
  | some y => rfl

end Rtl

/-! ## The scripts that are not -/

/-- The chips whose scripts are of the old form. -/
inductive OldChip where
  | nrf24 | nrf24le | tusb3200

/-- The calls of the script, which is named after the chip. -/
def OldChip.calls : OldChip → List (EmuCall φ)
  | nrf24 => nrf24Calls
  | nrf24le => nrf24leCalls
  | tusb3200 => tusb3200Calls

/-- The message `lua_init` prints for the script. Only `tusb3200.lua` loads a file before it maps
memory, and then the file decides whether it gets that far. -/
def OldChip.message (fopen : String → Except String (List Byte)) : OldChip → String
  | nrf24 | nrf24le => "nargs != 4"
  | tusb3200 =>
      match fopen "tusb3200.bootrom" with
      | .error msg => msg
      | .ok file => if 4096 ≤ file.length then "nargs != 4" else "file is too short!"

/-- A call that returns is followed by the others. -/
lemma runCalls_of_ok {c : EmuCall φ} {cs : List (EmuCall φ)} {results : List (LuaValue φ)}
    {m' : Machine σ} (h : callC (emuLib env fopen c.fn) c.args m = some (.ok results, m')) :
    runCalls env fopen (c :: cs) m = runCalls env fopen cs m' := by
  change (callC (emuLib env fopen c.fn) c.args m).bind _ = _
  rw [h]
  rfl

/-- A call that raises an error is the last one. -/
lemma runCalls_of_error {c : EmuCall φ} {cs : List (EmuCall φ)} {v : LuaValue φ} {m' : Machine σ}
    (h : callC (emuLib env fopen c.fn) c.args m = some (.error v, m')) :
    runCalls env fopen (c :: cs) m = some (.error v, m') := by
  change (callC (emuLib env fopen c.fn) c.args m).bind _ = _
  rw [h]
  rfl

/-- `make_ram` with a name and a size creates the buffer, and then come the other calls. -/
lemma runCalls_makeRam (name : String) {size : LuaInt} (h : 0 ≤ intOfLua size)
    (cs : List (EmuCall φ)) : runCalls env fopen (⟨.makeRam, [.string name, int size]⟩ :: cs) m =
      runCalls env fopen cs (m.createBuffer (cstring name) (intOfLua size).toNat) := by
  have hsize : ∀ n ∈ [LuaValue.string name, int size][1]?, 0 ≤ intOfLua (luaArg env n) := by
    rintro _ ⟨⟩
    exact h
  have hcall : callC (emuLib env fopen .makeRam) [.string name, int size] m =
      some (.ok [], m.createBuffer (cstring name) (intOfLua size).toNat) :=
    (callC_lMakeRam env _ m hsize).trans rfl
  exact runCalls_of_ok hcall

/-- `map_rom` with a name, a page and a number of pages, as it was called before it took an offset,
is an error. -/
lemma runCalls_mapRom_old {args : List (LuaValue φ)} (h : args.length = 3)
    (cs : List (EmuCall φ)) : runCalls env fopen (⟨.mapRom, args⟩ :: cs) m =
      some (.error (.string "nargs != 4"), m) :=
  runCalls_of_error (callC_ofBuffer_nargs env _ _ m (by rw [h]; decide))

/-- `load_rom` with a name and a size ends in one of three ways. -/
lemma callC_loadRom_int (name : String) {size : LuaInt} (h : 0 ≤ intOfLua size) :
    callC (emuLib env fopen .loadRom) [.string name, int size] m =
      match fopen (cstring name) with
      | .error msg => some (.error (.string msg), m)
      | .ok file => some (if (intOfLua size).toNat ≤ file.length then .ok []
          else .error (.string "file is too short!"),
          loaded (cstring name) (intOfLua size).toNat file m) := by
  have hargs : loadArgs env ⟨[int size, .string name], m⟩ = some (cstring name, size) := rfl
  obtain ⟨stack, hrun⟩ := run_lLoadRom_of_some fopen hargs
  change ((lLoadRom env fopen).run ⟨[int size, .string name], m⟩).map _ = _
  rw [hrun]
  cases fopen (cstring name) with
  | error msg => rfl
  | ok file =>
    dsimp only
    rw [run_loadOpened, if_neg (Int.not_lt.2 h)]
    split_ifs
    · rfl
    · rfl

/-- The calls of a script of the old form end in an error, from any state. -/
lemma OldChip.runCalls_error (c : OldChip) (env : LuaEnv φ (Machine σ))
    (fopen : String → Except String (List Byte)) (m : Machine σ) : ∃ m',
      runCalls env fopen c.calls m = some (.error (.string (c.message fopen)), m') := by
  have hram : 0 ≤ intOfLua 2048 := by decide
  cases c with
  | nrf24 =>
    rw [OldChip.calls, nrf24Calls, runCalls_makeRam "sram" hram, runCalls_makeRam "usbram" hram,
      runCalls_mapRom_old rfl]
    exact ⟨_, rfl⟩
  | nrf24le =>
    rw [OldChip.calls, nrf24leCalls, runCalls_makeRam "sram" (by decide), runCalls_mapRom_old rfl]
    exact ⟨_, rfl⟩
  | tusb3200 =>
    have hload : callC (emuLib env fopen .loadRom) [.string "tusb3200.bootrom", int 4096] m = _ :=
      callC_loadRom_int "tusb3200.bootrom" (by decide)
    have hname : cstring "tusb3200.bootrom" = "tusb3200.bootrom" := by decide
    have hsize : (intOfLua 4096).toNat = 4096 := by decide
    rw [hname, hsize] at hload
    unfold OldChip.message
    cases hopen : fopen "tusb3200.bootrom" with
    | error msg =>
      rw [hopen] at hload
      exact ⟨_, runCalls_of_error hload⟩
    | ok file =>
      rw [hopen] at hload
      dsimp only at hload ⊢
      split_ifs at hload ⊢
      · rw [OldChip.calls, tusb3200Calls, runCalls_of_ok hload, runCalls_makeRam "usbram" hram,
          runCalls_mapRom_old rfl]
        exact ⟨_, rfl⟩
      · exact ⟨_, runCalls_of_error hload⟩

/-- With a chip script of the old form `main` always returns 1, whatever the code is and whatever
files there are: `lua_init` fails with the message of the script, and the CPU is never run. -/
theorem OldChip.main_fails (c : OldChip) (env : LuaEnv φ (Machine σ)) (script : Script σ)
    (fopen : String → Except String (List Byte)) (heap : ℕ → Buffer) (file : List Byte) :
    main script env fopen c.calls heap file = some (.error (.string (c.message fopen))) := by
  obtain ⟨m, hinit, -⟩ := mainInit_started script heap file
  obtain ⟨m', hcalls⟩ := c.runCalls_error env fopen m
  rw [main, hinit, Option.bind_some, hcalls]
  rfl

end OnStack

end Emu51

import Emu51.Library.Program
import Emu51.Machine.Memory

/-!
# The Lua side

A chip script is a table `ramd_hooks` of functions, one for each special function register it
models, over some Lua globals. A hook is a program whose operations are the functions of `emu_lib`
in `main.c` and access to the globals; what it prints is left out. The second value a hook returns
is its result, the first (a name) only feeds the trace printout.
-/

namespace Emu51

/-- A Lua 5.3 integer. -/
abbrev LuaInt := BitVec 64

/-- The library functions of `emu_lib` that touch the emulator, access to the Lua globals `σ`, and
raising a Lua error. -/
inductive LuaOp (σ : Type) where
  | peekSfr (addr : LuaInt)
  | pokeSfr (addr v : LuaInt)
  | peekXram (addr : LuaInt)
  | pokeXram (addr v : LuaInt)
  | peekRom (addr : LuaInt)
  | pokePcx (v : LuaInt)
  | makeRam (name : String) (size : LuaInt)
  | mapRom (name : String) (start len ofs : LuaInt)
  | mapXram (name : String) (start len ofs readonly : LuaInt)
  | get
  | set (g : σ)
  | error

/-- What the operations return. -/
@[reducible] def LuaOp.Res {σ : Type} : LuaOp σ → Type
  | .peekSfr _ => LuaInt
  | .pokeSfr _ _ => Unit
  | .peekXram _ => LuaInt
  | .pokeXram _ _ => Unit
  | .peekRom _ => LuaInt
  | .pokePcx _ => Unit
  | .makeRam _ _ => Unit
  | .mapRom _ _ _ _ => Unit
  | .mapXram _ _ _ _ _ => Unit
  | .get => σ
  | .set _ => Unit
  | .error => Empty

/-- Lua code that returns an `α`. -/
abbrev LuaProg (σ α : Type) := Prog (LuaOp σ) LuaOp.Res α

/-- A hook of `ramd_hooks`: from the flag `write` and the byte `data` to its result. -/
abbrev Hook (σ : Type) := Bool → LuaInt → LuaProg σ LuaInt

/-- A chip script: its table of hooks, which may depend on the globals, the values it gives its
globals and the calls it makes when it is loaded. `ccalls` bounds how deep hooks may be nested in
one another (Lua's limit on nested C calls, past which it aborts). -/
structure Script (σ : Type) where
  ramdHooks : σ → Byte → Option (Hook σ)
  globals : σ
  chunk : LuaProg σ Unit
  ccalls : ℕ

namespace Lua

variable {σ : Type}

def peekSfr (addr : LuaInt) : LuaProg σ LuaInt := .node (.peekSfr addr) .done

def pokeSfr (addr v : LuaInt) : LuaProg σ Unit := .node (.pokeSfr addr v) .done

def peekXram (addr : LuaInt) : LuaProg σ LuaInt := .node (.peekXram addr) .done

def pokeXram (addr v : LuaInt) : LuaProg σ Unit := .node (.pokeXram addr v) .done

def peekRom (addr : LuaInt) : LuaProg σ LuaInt := .node (.peekRom addr) .done

def pokePcx (v : LuaInt) : LuaProg σ Unit := .node (.pokePcx v) .done

def makeRam (name : String) (size : LuaInt) : LuaProg σ Unit := .node (.makeRam name size) .done

def mapRom (name : String) (start len ofs : LuaInt) : LuaProg σ Unit :=
  .node (.mapRom name start len ofs) .done

def mapXram (name : String) (start len ofs readonly : LuaInt) : LuaProg σ Unit :=
  .node (.mapXram name start len ofs readonly) .done

def getGlobals : LuaProg σ σ := .node .get .done

def setGlobals (g : σ) : LuaProg σ Unit := .node (.set g) .done

/-- Raise a Lua error; nothing runs after it. -/
def error {α : Type} : LuaProg σ α := .node .error fun e => nomatch e

end Lua

/-- A byte passed to Lua, as `lua_pushinteger` does. -/
def luaOfByte (b : Byte) : LuaInt := b.setWidth 64

/-- A Lua integer stored into a byte, as `*data = lua_tointeger(L, -1)` does. -/
def byteOfLua (x : LuaInt) : Byte := x.setWidth 8

/-- A Lua integer converted to a C `int`. -/
def intOfLua (x : LuaInt) : ℤ := (x.setWidth 32).toInt

@[simp] lemma byteOfLua_luaOfByte (b : Byte) : byteOfLua (luaOfByte b) = b := by
  simp [byteOfLua, luaOfByte]

end Emu51

import Mathlib.Data.Int.Notation
import Mathlib.Data.List.Basic
import Mathlib.Tactic.Common

/-!
# The stack of the Lua C API

A C function exchanges values with Lua over a stack. The functions of the API that are modelled here
are steps on this stack, beside a world `W` that the C program and the Lua code share. Tables,
functions and other objects are references, and what is behind them, as well as how Lua converts
between numbers and strings, is a parameter (`LuaEnv`). A step fails where the API leaves its
behaviour undefined, and a call where the called function does not return. Two things are left out:
metatables, and the limit on the height of the stack.
-/

/-! ## Values -/

/-- A number is an integer or a float. -/
abbrev LuaNumber (φ : Type) := BitVec 64 ⊕ φ

/-- A value, where `φ` are the floats. -/
inductive LuaValue (φ : Type) where
  | nil
  | boolean (b : Bool)
  | number (x : LuaNumber φ)
  | string (s : String)
  | table (ref : ℕ)
  | function (ref : ℕ)
  | userdata (ref : ℕ)
  | thread (ref : ℕ)
  deriving Inhabited

/-- The types of values. -/
inductive LuaType where
  | nil
  | boolean
  | number
  | string
  | table
  | function
  | userdata
  | thread
  deriving DecidableEq

/-- What the API gets from elsewhere: the conversions of numbers, the global variables, the entries
of tables and what functions do when they are called. Looking a value up changes nothing. -/
structure LuaEnv (φ W : Type) where
  /-- The integer that equals a float. -/
  floatToInteger : φ → Option (BitVec 64)
  /-- The number a string spells. -/
  stringToNumber : String → Option (LuaNumber φ)
  numberToString : LuaNumber φ → String
  global : W → String → LuaValue φ
  field : W → LuaValue φ → LuaValue φ → LuaValue φ
  call : LuaValue φ → List (LuaValue φ) → W → Option (List (LuaValue φ) × W)
  deriving Inhabited

variable {φ W : Type}

namespace LuaValue

/-- `lua_type`. -/
def type : LuaValue φ → LuaType
  | nil => .nil
  | boolean _ => .boolean
  | number _ => .number
  | string _ => .string
  | table _ => .table
  | function _ => .function
  | userdata _ => .userdata
  | thread _ => .thread

/-- The number a value is or spells. -/
def asNumber (env : LuaEnv φ W) : LuaValue φ → Option (LuaNumber φ)
  | number x => some x
  | string s => env.stringToNumber s
  | _ => none

/-- The string a value is or is written as. -/
def asString (env : LuaEnv φ W) : LuaValue φ → Option String
  | string s => some s
  | number x => some (env.numberToString x)
  | _ => none

/-- The value as a string, if it is a number. -/
def convert (env : LuaEnv φ W) : LuaValue φ → LuaValue φ
  | number x => string (env.numberToString x)
  | v => v

/-- The integer a value is, spells or equals. -/
def asInteger (env : LuaEnv φ W) (v : LuaValue φ) : Option (BitVec 64) :=
  (v.asNumber env).bind (Sum.elim some env.floatToInteger)

end LuaValue

/-! ## The API -/

/-- The values on the stack, the top first, and the world. -/
structure LuaFrame (φ W : Type) where
  stack : List (LuaValue φ)
  world : W

/-- Code that uses the API. -/
abbrev LuaApi (φ W α : Type) := StateT (LuaFrame φ W) Option α

/-- How a C function that is called from Lua ends: it returns a number of results, or it raises an
error. -/
abbrev LuaResult (φ : Type) := Except (LuaValue φ) ℕ

namespace LuaApi

/-- How far below the top of a stack of `n` values an index is: a positive index counts from the
bottom, a negative one from the top. -/
def position (n : ℕ) (i : ℤ) : Option ℕ :=
  if 0 < i ∧ i ≤ n then some (n - i.toNat)
  else if i < 0 ∧ -n ≤ i then some ((-i).toNat - 1)
  else none

/-- The value at an index. -/
def valueAt (s : List (LuaValue φ)) (i : ℤ) : Option (LuaValue φ) :=
  (position s.length i).bind fun p => s[p]?

/-- `lua_gettop`. -/
def gettop : LuaApi φ W ℕ := fun f => some (f.stack.length, f)

/-- `lua_isstring`. -/
def isstring (env : LuaEnv φ W) (i : ℤ) : LuaApi φ W Bool := fun f =>
  some ((valueAt f.stack i).any fun v => (v.asString env).isSome, f)

/-- `lua_isnumber`. -/
def isnumber (env : LuaEnv φ W) (i : ℤ) : LuaApi φ W Bool := fun f =>
  some ((valueAt f.stack i).any fun v => (v.asNumber env).isSome, f)

/-- `lua_tostring`, which converts a number on the stack to a string. -/
def tostring (env : LuaEnv φ W) (i : ℤ) : LuaApi φ W (Option String) := fun f =>
  some ((valueAt f.stack i).bind (LuaValue.asString env),
    match position f.stack.length i with
    | none => f
    | some p => { f with stack := f.stack.modify p (LuaValue.convert env) })

/-- `lua_tointeger`, which is 0 for a value that is no integer. -/
def tointeger (env : LuaEnv φ W) (i : ℤ) : LuaApi φ W (BitVec 64) := fun f =>
  some (((valueAt f.stack i).bind (LuaValue.asInteger env)).getD 0, f)

/-- Push a value. -/
def push (v : LuaValue φ) : LuaApi φ W Unit := fun f => some ((), { f with stack := v :: f.stack })

/-- `lua_pushstring` and `lua_pushliteral`. -/
def pushstring (s : String) : LuaApi φ W Unit := push (.string s)

/-- `lua_pushinteger`. -/
def pushinteger (n : BitVec 64) : LuaApi φ W Unit := push (.number (.inl n))

/-- `lua_pushboolean`. -/
def pushboolean (b : Bool) : LuaApi φ W Unit := push (.boolean b)

/-- `lua_pop`. -/
def pop (n : ℕ) : LuaApi φ W Unit := fun f =>
  if n ≤ f.stack.length then some ((), { f with stack := f.stack.drop n }) else none

/-- `lua_remove`. -/
def remove (i : ℤ) : LuaApi φ W Unit := fun f =>
  (position f.stack.length i).map fun p => ((), { f with stack := f.stack.eraseIdx p })

/-- `lua_getglobal`, which returns the type of what it pushes. -/
def getglobal (env : LuaEnv φ W) (name : String) : LuaApi φ W LuaType := fun f =>
  let v := env.global f.world name
  some (v.type, { f with stack := v :: f.stack })

/-- `lua_gettable`: the key on top is replaced by the entry of the table at the index. -/
def gettable (env : LuaEnv φ W) (i : ℤ) : LuaApi φ W LuaType := fun f =>
  match valueAt f.stack i, f.stack with
  | some t, k :: s =>
      let v := env.field f.world t k
      some (v.type, { f with stack := v :: s })
  | _, _ => none

/-- As many results as are asked for. -/
def adjust (n : ℕ) (results : List (LuaValue φ)) : List (LuaValue φ) :=
  (results ++ List.replicate n LuaValue.nil).take n

/-- `lua_call`: the function and its arguments are replaced by as many results as are asked for. -/
def call (env : LuaEnv φ W) (nargs nresults : ℕ) : LuaApi φ W Unit := fun f =>
  match f.stack.drop nargs with
  | [] => none
  | fn :: s => (env.call fn (f.stack.take nargs).reverse f.world).map fun y =>
      ((), ⟨(adjust nresults y.1).reverse ++ s, y.2⟩)

/-- `lua_error`: the value on top is the error. -/
def error : LuaApi φ W (LuaResult φ) := fun f =>
  match f.stack with
  | [] => none
  | v :: s => some (.error v, { f with stack := s })

/-- Work on the world. -/
def modifyWorld (g : W → W) : LuaApi φ W Unit := fun f => some ((), { f with world := g f.world })

/-- Look at the world. -/
def getWorld : LuaApi φ W W := fun f => some (f.world, f)

/-- A call of a C function: the arguments are what is on its stack, and the results are what it
leaves on top. -/
def callC (fn : LuaApi φ W (LuaResult φ)) (args : List (LuaValue φ)) (w : W) :
    Option (Except (LuaValue φ) (List (LuaValue φ)) × W) :=
  (fn.run ⟨args.reverse, w⟩).map fun y =>
    (y.1.map fun n => (y.2.stack.take n).reverse, y.2.world)

/-! ## Steps -/

section Steps

variable {env : LuaEnv φ W} {f : LuaFrame φ W} {s : List (LuaValue φ)} {u v w : LuaValue φ} {x : W}

/-- A negative index counts from the top of the stack, which is -1. -/
lemma position_neg {n k : ℕ} (h : k < n) : position n (-(k + 1)) = some k := by
  rw [position, if_neg (by omega), if_pos (by omega)]
  exact congrArg some (by omega)

@[simp] lemma valueAt_top : valueAt (v :: s) (-1) = some v := by
  rw [valueAt, show (-1 : ℤ) = -((0 : ℕ) + 1) from rfl, position_neg (k := 0) (by simp)]
  rfl

@[simp] lemma valueAt_second : valueAt (u :: v :: s) (-2) = some v := by
  rw [valueAt, show (-2 : ℤ) = -((1 : ℕ) + 1) from rfl, position_neg (k := 1) (by simp)]
  rfl

/-- The arguments of a call are numbered from 1. -/
lemma valueAt_reverse (args : List (LuaValue φ)) (i : ℕ) :
    valueAt args.reverse (i + 1) = args[i]? := by
  rw [valueAt, position, List.length_reverse]
  by_cases hi : i < args.length
  · rw [if_pos (by omega), Option.bind_some, List.getElem?_reverse (by omega)]
    exact congrArg (args[·]?) (by omega)
  · rw [if_neg (by omega), if_neg (by omega), Option.bind_none, List.getElem?_eq_none (by omega)]

@[simp] lemma length_adjust (n : ℕ) (l : List (LuaValue φ)) : (adjust n l).length = n := by
  simp [adjust]

@[simp] lemma run_gettop : (gettop : LuaApi φ W ℕ).run f = some (f.stack.length, f) := rfl

@[simp] lemma run_isstring (i : ℤ) : (isstring env i).run f =
    some ((valueAt f.stack i).any fun v => (v.asString env).isSome, f) := rfl

@[simp] lemma run_isnumber (i : ℤ) : (isnumber env i).run f =
    some ((valueAt f.stack i).any fun v => (v.asNumber env).isSome, f) := rfl

@[simp] lemma run_tointeger (i : ℤ) : (tointeger env i).run f =
    some (((valueAt f.stack i).bind (LuaValue.asInteger env)).getD 0, f) := rfl

@[simp] lemma run_tostring_second : (tostring env (-2)).run ⟨u :: v :: s, x⟩ =
    some (v.asString env, ⟨u :: v.convert env :: s, x⟩) := by
  change some (_, _) = _
  rw [valueAt_second, show (-2 : ℤ) = -((1 : ℕ) + 1) from rfl, position_neg (by simp)]
  rfl

@[simp] lemma run_push (v : LuaValue φ) :
    (push v).run f = some ((), { f with stack := v :: f.stack }) := rfl

@[simp] lemma run_pushstring (s : String) :
    (pushstring s).run f = some ((), { f with stack := .string s :: f.stack }) := rfl

@[simp] lemma run_pushinteger (n : BitVec 64) :
    (pushinteger n).run f = some ((), { f with stack := .number (.inl n) :: f.stack }) := rfl

@[simp] lemma run_pushboolean (b : Bool) :
    (pushboolean b).run f = some ((), { f with stack := .boolean b :: f.stack }) := rfl

@[simp] lemma run_pop_two : (pop 2).run (⟨u :: v :: s, x⟩ : LuaFrame φ W) =
    some ((), ⟨s, x⟩) := by
  change (if 2 ≤ (u :: v :: s).length then some ((), LuaFrame.mk s x) else none) = _
  rw [if_pos (by simp)]

@[simp] lemma run_remove_second : (remove (-2)).run (⟨u :: v :: s, x⟩ : LuaFrame φ W) =
    some ((), ⟨u :: s, x⟩) := by
  change (position (u :: v :: s).length (-((1 : ℕ) + 1))).map _ = _
  rw [position_neg (by simp)]
  rfl

@[simp] lemma run_getglobal (name : String) : (getglobal env name).run f =
    some ((env.global f.world name).type,
      { f with stack := env.global f.world name :: f.stack }) := rfl

@[simp] lemma run_gettable_second : (gettable env (-2)).run ⟨u :: v :: s, x⟩ =
    some ((env.field x v u).type, ⟨env.field x v u :: v :: s, x⟩) := by
  change (match valueAt (u :: v :: s) (-2), u :: v :: s with | some t, k :: s => _ | _, _ => _) = _
  rw [valueAt_second]

@[simp] lemma run_call_two (fn : LuaValue φ) : (call env 2 2).run ⟨v :: u :: fn :: s, x⟩ =
    (env.call fn [u, v] x).map fun y => ((), ⟨(adjust 2 y.1).reverse ++ s, y.2⟩) := rfl

@[simp] lemma run_error : (error : LuaApi φ W (LuaResult φ)).run ⟨v :: s, x⟩ =
    some (.error v, ⟨s, x⟩) := rfl

@[simp] lemma run_getWorld : (getWorld : LuaApi φ W W).run f = some (f.world, f) := rfl

@[simp] lemma run_modifyWorld (g : W → W) :
    (modifyWorld g).run f = some ((), { f with world := g f.world }) := rfl

end Steps

end LuaApi

import Emu51.Machine.HookCall
import Emu51.Machine.LoadRom

/-!
# The library `emu`

The functions that a chip script calls check their arguments on the Lua stack, one after the other,
and raise an error at the first check that fails. What is left of a call is a program over the
operations of `LuaOp` (`request`), and a call does what this program does (`callC_emuLib`).
-/

namespace Emu51

open LuaApi Machine

/-- The functions of `emu_lib`. -/
inductive EmuFn where
  | hello
  | makeRam
  | loadRom
  | mapRom
  | mapXram
  | mapIrq
  | peekXram
  | peekSfr
  | peekRom
  | pokeXram
  | pokeSfr
  | pokePcx
  deriving DecidableEq

namespace OnStack

variable {φ σ : Type}

/-! ## The functions -/

section Functions

variable (env : LuaEnv φ (Machine σ))

/-- A function of one number: the checks, and then the body. -/
def ofNumber (nargsMsg argMsg : String) (body : LuaInt → LuaApi φ (Machine σ) (LuaResult φ)) :
    LuaApi φ (Machine σ) (LuaResult φ) := do
  let nargs ← gettop
  if nargs ≠ 1 then raise nargsMsg
  else do
    let isNum ← isnumber env 1
    if !isNum then raise argMsg
    else do
      let arg1 ← tointeger env 1
      body arg1

/-- A function of two numbers. -/
def ofNumbers (body : LuaInt → LuaInt → LuaApi φ (Machine σ) (LuaResult φ)) :
    LuaApi φ (Machine σ) (LuaResult φ) := do
  let nargs ← gettop
  if nargs ≠ 2 then raise "nargs != 2"
  else do
    let isNum ← isnumber env 1
    if !isNum then raise "arg1 want number"
    else do
      let isNum ← isnumber env 2
      if !isNum then raise "arg2 want number"
      else do
        let arg1 ← tointeger env 1
        let arg2 ← tointeger env 2
        body arg1 arg2

/-- A function of the name of a buffer and of numbers, of which the first three are checked. The
buffer is looked up before they are. -/
def ofBuffer (n : ℕ) (nargsMsg : String) (body : ℕ → LuaApi φ (Machine σ) (LuaResult φ)) :
    LuaApi φ (Machine σ) (LuaResult φ) := do
  let nargs ← gettop
  if nargs ≠ n then raise nargsMsg
  else do
    let isName ← isstring env 1
    if !isName then raise "arg1 want string"
    else do
      let some arg1 ← tostring env 1 | failure
      let m ← getWorld
      match m.getBuffer (cstring arg1) with
      | none => raise "named buffer not found"
      | some buf => do
          let isNum2 ← isnumber env 2
          let isNum3 ← isnumber env 3
          let isNum4 ← isnumber env 4
          if !isNum2 || !isNum3 || !isNum4 then raise "arg2+ want number"
          else body buf

/-- `l_hello`, without what it prints. -/
def lHello : LuaApi φ (Machine σ) (LuaResult φ) := pure (.ok 0)

/-- `l_make_ram`. -/
def lMakeRam : LuaApi φ (Machine σ) (LuaResult φ) := do
  let nargs ← gettop
  if nargs ≠ 2 then raise "make_ram: not enough arguments"
  else do
    let isName ← isstring env 1
    if !isName then raise "arg1 want string"
    else do
      let isSize ← isnumber env 2
      if !isSize then raise "arg2 want number"
      else do
        let some arg1 ← tostring env 1 | failure
        let name := cstring arg1
        let arg2 ← tointeger env 2
        createBufferInt name (intOfLua arg2)
        pure (.ok 0)

/-- `l_map_rom`. -/
def lMapRom : LuaApi φ (Machine σ) (LuaResult φ) :=
  ofBuffer env 4 "nargs != 4" fun buf => do
    let start ← tointeger env 2
    let len ← tointeger env 3
    let ofs ← tointeger env 4
    modifyWorld fun m => m.mapRom buf (intOfLua start) (intOfLua len) (intOfLua ofs)
    pure (.ok 0)

/-- `l_map_xram`, which does not check that the last argument is a number. -/
def lMapXram : LuaApi φ (Machine σ) (LuaResult φ) :=
  ofBuffer env 5 "map_xram: nargs != 5" fun buf => do
    let n1 ← tointeger env 2
    let n2 ← tointeger env 3
    let ofs ← tointeger env 4
    let readonly ← tointeger env 5
    modifyWorld fun m =>
      if intOfLua readonly ≠ 0 then m.mapXramRo buf (intOfLua n1) (intOfLua n2) (intOfLua ofs)
      else m.mapXram buf (intOfLua n1) (intOfLua n2) (intOfLua ofs)
    pure (.ok 0)

/-- `l_map_irq`. -/
def lMapIrq : LuaApi φ (Machine σ) (LuaResult φ) := raise "not implemented"

/-- `l_peek_sfr`. -/
def lPeekSfr : LuaApi φ (Machine σ) (LuaResult φ) :=
  ofNumber env "nargs != 1" "arg1 want number" fun addr => do
    let v ← readd env (byteOfLua addr)
    pushinteger (luaOfByte v)
    pure (.ok 1)

/-- `l_peek_xram`. -/
def lPeekXram : LuaApi φ (Machine σ) (LuaResult φ) :=
  ofNumber env "nargs != 1" "arg1 want number" fun addr => do
    let m ← getWorld
    pushinteger (luaOfByte (m.readx (addr.setWidth 16)))
    pure (.ok 1)

/-- `l_poke_xram`. -/
def lPokeXram : LuaApi φ (Machine σ) (LuaResult φ) :=
  ofNumbers env fun addr v => do
    modifyWorld fun m => m.writex (addr.setWidth 16) (byteOfLua v)
    pure (.ok 0)

/-- `l_poke_sfr`. -/
def lPokeSfr : LuaApi φ (Machine σ) (LuaResult φ) :=
  ofNumbers env fun addr v => do
    writed env (byteOfLua addr) (byteOfLua v)
    pure (.ok 0)

/-- `l_peek_rom`, which has no meaning without the buffer. -/
def lPeekRom : LuaApi φ (Machine σ) (LuaResult φ) :=
  ofNumber env "nargs != 1" "arg1 want number" fun addr => do
    let m ← getWorld
    match m.getBuffer "rom" with
    | none => failure
    | some rom => do
        pushinteger (luaOfByte ((m.heap rom).mem (intOfLua addr)))
        pure (.ok 1)

/-- `l_poke_pcx`. -/
def lPokePcx : LuaApi φ (Machine σ) (LuaResult φ) :=
  ofNumber env "poke_pcx: nargs != 1" "poke_pcx: arg1 want number" fun v => do
    modifyWorld fun m => m.setPcx (byteOfLua v)
    pure (.ok 0)

/-- The table `emu_lib`. -/
def emuLib (fopen : String → Except String (List Byte)) :
    EmuFn → LuaApi φ (Machine σ) (LuaResult φ)
  | .hello => lHello
  | .makeRam => lMakeRam env
  | .loadRom => lLoadRom env fopen
  | .mapRom => lMapRom env
  | .mapXram => lMapXram env
  | .mapIrq => lMapIrq
  | .peekXram => lPeekXram env
  | .peekSfr => lPeekSfr env
  | .peekRom => lPeekRom env
  | .pokeXram => lPokeXram env
  | .pokeSfr => lPokeSfr env
  | .pokePcx => lPokePcx env

end Functions

/-! ## What a call asks for -/

section Requests

variable (env : LuaEnv φ (Machine σ))

/-- A value as an integer, which is 0 for a value that is none. -/
def luaArg (v : LuaValue φ) : LuaInt := (v.asInteger env).getD 0

/-- The argument of a function of one number, or the text of the error. -/
def wantNumber (nargsMsg argMsg : String) : List (LuaValue φ) → Except String LuaInt
  | [a] => if (a.asNumber env).isSome then .ok (luaArg env a) else .error argMsg
  | _ => .error nargsMsg

/-- The arguments of a function of two numbers. -/
def wantNumbers : List (LuaValue φ) → Except String (LuaInt × LuaInt)
  | [a, b] =>
      if (a.asNumber env).isNone then .error "arg1 want number"
      else if (b.asNumber env).isNone then .error "arg2 want number"
      else .ok (luaArg env a, luaArg env b)
  | _ => .error "nargs != 2"

/-- The arguments of `make_ram`. -/
def wantRam : List (LuaValue φ) → Except String (String × LuaInt)
  | [a, b] =>
      match a.asString env with
      | none => .error "arg1 want string"
      | some name =>
          if (b.asNumber env).isNone then .error "arg2 want number"
          else .ok (cstring name, luaArg env b)
  | _ => .error "make_ram: not enough arguments"

/-- The name of a buffer that is there, if numbers come after it. -/
def wantBuffer (m : Machine σ) (a : LuaValue φ) (numbers : List (LuaValue φ)) :
    Except String String :=
  match a.asString env with
  | none => .error "arg1 want string"
  | some name =>
      if (m.getBuffer (cstring name)).isNone then .error "named buffer not found"
      else if numbers.any fun n => (n.asNumber env).isNone then .error "arg2+ want number"
      else .ok (cstring name)

/-- A program with one number as its result. -/
def numberResult (p : LuaProg σ LuaInt) : LuaProg σ (List (LuaValue φ)) := do
  let v ← p
  pure [.number (.inl v)]

/-- A program without a result. -/
def noResult (p : LuaProg σ Unit) : LuaProg σ (List (LuaValue φ)) := do
  p
  pure []

/-- What a call asks for: a program that gives its results, or the text of an error. -/
def request (m : Machine σ) :
    EmuFn → List (LuaValue φ) → Except String (LuaProg σ (List (LuaValue φ)))
  | .hello, _ => .ok (pure [])
  | .makeRam, args => (wantRam env args).map fun y => noResult (Lua.makeRam y.1 y.2)
  | .loadRom, _ => .error ""
  | .mapRom, [a, start, len, ofs] =>
      (wantBuffer env m a [start, len, ofs]).map fun name =>
        noResult (Lua.mapRom name (luaArg env start) (luaArg env len) (luaArg env ofs))
  | .mapRom, _ => .error "nargs != 4"
  | .mapXram, [a, start, len, ofs, readonly] =>
      (wantBuffer env m a [start, len, ofs]).map fun name =>
        noResult (Lua.mapXram name (luaArg env start) (luaArg env len) (luaArg env ofs)
          (luaArg env readonly))
  | .mapXram, _ => .error "map_xram: nargs != 5"
  | .mapIrq, _ => .error "not implemented"
  | .peekXram, args =>
      (wantNumber env "nargs != 1" "arg1 want number" args).map fun a =>
        numberResult (Lua.peekXram a)
  | .peekSfr, args =>
      (wantNumber env "nargs != 1" "arg1 want number" args).map fun a =>
        numberResult (Lua.peekSfr a)
  | .peekRom, args =>
      (wantNumber env "nargs != 1" "arg1 want number" args).map fun a =>
        numberResult (Lua.peekRom a)
  | .pokeXram, args => (wantNumbers env args).map fun y => noResult (Lua.pokeXram y.1 y.2)
  | .pokeSfr, args => (wantNumbers env args).map fun y => noResult (Lua.pokeSfr y.1 y.2)
  | .pokePcx, args =>
      (wantNumber env "poke_pcx: nargs != 1" "poke_pcx: arg1 want number" args).map fun v =>
        noResult (Lua.pokePcx v)

end Requests

/-- The accessors over the stack are those of a bus. What they leave on the stack does not
matter. -/
structure Serves (env : LuaEnv φ (Machine σ)) (bus : Bus σ) : Prop where
  get : ∀ a f, ((readd env a).run f).map (fun y => (y.1, y.2.world)) = bus.get a f.world
  put : ∀ a v f, ((writed env a v).run f).map (fun y => y.2.world) = bus.put a v f.world

/-- With the accessors of one more level of nesting, the environment of a script is served. -/
lemma serves_scriptEnv (script : Script σ) (n : ℕ) :
    Serves (scriptEnv script (busAt script n)) (busAt script (n + 1)) where
  get a f := by
    rw [run_readd_scriptEnv, Option.map_map]
    exact Option.map_id'
  put a v f := by
    rw [run_writed_scriptEnv, Option.map_map]
    exact Option.map_id'

/-! ## What a call does -/

variable {env : LuaEnv φ (Machine σ)} {bus : Bus σ} {m : Machine σ} {args : List (LuaValue φ)}
  {fopen : String → Except String (List Byte)}

/-- Raise the error, or go on. -/
def orRaise {α : Type} (y : Except String α) (m : Machine σ)
    (k : α → Option (Except (LuaValue φ) (List (LuaValue φ)) × Machine σ)) :
    Option (Except (LuaValue φ) (List (LuaValue φ)) × Machine σ) :=
  match y with
  | .error msg => some (.error (.string msg), m)
  | .ok x => k x

/-- A function of one number checks its argument, and then its body runs with the number. -/
lemma callC_ofNumber (env : LuaEnv φ (Machine σ)) (n t : String)
    (body : LuaInt → LuaApi φ (Machine σ) (LuaResult φ)) (args : List (LuaValue φ))
    (m : Machine σ) : callC (ofNumber env n t body) args m =
      orRaise (wantNumber env n t args) m fun x => callC (body x) args m := by
  by_cases hlen : args.length = 1
  · obtain ⟨a, rfl⟩ := List.length_eq_one_iff.1 hlen
    have hfirst : valueAt [a] 1 = some a := rfl
    cases ha : a.asNumber env with
    | none => simp [callC, ofNumber, hfirst, ha, wantNumber, orRaise, Except.map]
    | some x => simp [callC, ofNumber, hfirst, ha, wantNumber, orRaise, luaArg]
  · have hwant : wantNumber env n t args = .error n := by
      unfold wantNumber
      split
      · exact absurd rfl hlen
      · rfl
    simp [callC, ofNumber, hlen, hwant, orRaise, Except.map]

/-- A function of two numbers checks its arguments, and then its body runs with both. -/
lemma callC_ofNumbers (env : LuaEnv φ (Machine σ))
    (body : LuaInt → LuaInt → LuaApi φ (Machine σ) (LuaResult φ)) (args : List (LuaValue φ))
    (m : Machine σ) : callC (ofNumbers env body) args m =
      orRaise (wantNumbers env args) m fun y => callC (body y.1 y.2) args m := by
  by_cases hlen : args.length = 2
  · obtain ⟨a, b, rfl⟩ := List.length_eq_two.1 hlen
    have hfirst : valueAt [b, a] 1 = some a := rfl
    have hsecond : valueAt [b, a] 2 = some b := rfl
    cases ha : a.asNumber env with
    | none => simp [callC, ofNumbers, hfirst, ha, wantNumbers, orRaise, Except.map]
    | some x =>
      cases hb : b.asNumber env with
      | none => simp [callC, ofNumbers, hfirst, hsecond, ha, hb, wantNumbers, orRaise, Except.map]
      | some y => simp [callC, ofNumbers, hfirst, hsecond, ha, hb, wantNumbers, orRaise, luaArg]
  · have hwant : wantNumbers env args = .error "nargs != 2" := by
      unfold wantNumbers
      split
      · exact absurd rfl hlen
      · rfl
    simp [callC, ofNumbers, hlen, hwant, orRaise, Except.map]

/-- The arguments after the name has been read as a string. -/
lemma run_tostring_name (env : LuaEnv φ (Machine σ)) (a : LuaValue φ) (args : List (LuaValue φ))
    (m : Machine σ) : (tostring env 1).run ⟨(a :: args).reverse, m⟩ =
      some (a.asString env, ⟨(a.convert env :: args).reverse, m⟩) := by
  have hpos : position (a :: args).reverse.length 1 = some args.length := by
    rw [position, List.length_reverse, List.length_cons, if_pos (by omega)]
    rfl
  have hvalue : valueAt (a :: args).reverse 1 = some a := valueAt_reverse (a :: args) 0
  change some (_, match position _ 1 with | none => _ | some p => _) = _
  have hmodify : (args.reverse ++ [a]).modify args.length (LuaValue.convert env) =
      args.reverse ++ [a.convert env] := by
    have hadd := List.modifyTailIdx_add (List.modifyHead (LuaValue.convert env)) 0 args.reverse [a]
    rwa [List.length_reverse] at hadd
  rw [hvalue, hpos, List.reverse_cons, List.reverse_cons]
  exact congrArg (fun s => some (a.asString env, (⟨s, m⟩ : LuaFrame φ (Machine σ)))) hmodify

/-- The checks on a stack on which the values are known. -/
lemma run_ofBuffer {s s' : List (LuaValue φ)} {n : ℕ} {t : String}
    {body : ℕ → LuaApi φ (Machine σ) (LuaResult φ)} {a start len ofs : LuaValue φ}
    (hlen : s.length = n) (hname : valueAt s 1 = some a)
    (hconvert : (tostring env 1).run ⟨s, m⟩ = some (a.asString env, ⟨s', m⟩))
    (hstart : valueAt s' 2 = some start) (hlength : valueAt s' 3 = some len)
    (hofs : valueAt s' 4 = some ofs) : ∃ s'', (ofBuffer env n t body).run ⟨s, m⟩ =
      match wantBuffer env m a [start, len, ofs] with
      | .error msg => some (.error (.string msg), ⟨s'', m⟩)
      | .ok name => (m.getBuffer name).bind fun buf => (body buf).run ⟨s', m⟩ := by
  cases ha : a.asString env with
  | none => exact ⟨s, by simp [ofBuffer, wantBuffer, hlen, hname, ha]⟩
  | some name =>
    rw [ha] at hconvert
    refine ⟨s', ?_⟩
    cases hbuf : m.getBuffer (cstring name) with
    | none => simp [ofBuffer, wantBuffer, hlen, hname, hconvert, ha, hbuf]
    | some buf =>
      have hany : (!(start.asNumber env).isSome || !(len.asNumber env).isSome ||
          !(ofs.asNumber env).isSome) =
          [start, len, ofs].any fun n => (n.asNumber env).isNone := by
        simp [Option.not_isSome, Bool.or_assoc]
      simp only [ofBuffer, wantBuffer, hlen, hname, hconvert, ha, hbuf, hstart, hlength, hofs, hany,
        StateT.run_bind, run_gettop, run_isstring, run_isnumber, run_getWorld, Option.bind_eq_bind,
        Option.bind_some, Option.any_some, Option.isSome_some, Option.isNone_some, ne_eq, not_true,
        if_false, Bool.not_true, Bool.false_eq_true]
      cases [start, len, ofs].any fun n => (n.asNumber env).isNone with
      | true => rfl
      | false =>
        change (body buf).run _ = (m.getBuffer (cstring name)).bind _
        rw [hbuf, Option.bind_some]

/-- A function that maps a buffer checks the arguments all such functions have, and then its body
runs. -/
lemma callC_ofBuffer (env : LuaEnv φ (Machine σ)) {n : ℕ} (t : String)
    (body : ℕ → LuaApi φ (Machine σ) (LuaResult φ)) (a start len ofs : LuaValue φ)
    (args : List (LuaValue φ)) (m : Machine σ) (hn : args.length + 4 = n) :
    callC (ofBuffer env n t body) (a :: start :: len :: ofs :: args) m =
      orRaise (wantBuffer env m a [start, len, ofs]) m fun name =>
        (m.getBuffer name).bind fun buf =>
          callC (body buf) (a.convert env :: start :: len :: ofs :: args) m := by
  have hrest : ∀ i : ℕ, valueAt (a.convert env :: start :: len :: ofs :: args).reverse (i + 1) =
    (a.convert env :: start :: len :: ofs :: args)[i]? := valueAt_reverse _
  have hlen : (a :: start :: len :: ofs :: args).reverse.length = n := by
    rw [List.length_reverse]
    exact hn
  obtain ⟨s'', hrun⟩ := run_ofBuffer hlen
    (valueAt_reverse (a :: start :: len :: ofs :: args) 0)
    (run_tostring_name env a (start :: len :: ofs :: args) m) (hrest 1) (hrest 2) (hrest 3)
  unfold callC
  rw [hrun]
  cases wantBuffer env m a [start, len, ofs] with
  | error msg => rfl
  | ok name =>
    change Option.map _ ((m.getBuffer name).bind _) = (m.getBuffer name).bind _
    rw [Option.map_bind]
    rfl

/-- With the wrong number of arguments it raises an error and does nothing. -/
lemma callC_ofBuffer_nargs (env : LuaEnv φ (Machine σ)) {n : ℕ} (t : String)
    (body : ℕ → LuaApi φ (Machine σ) (LuaResult φ)) {args : List (LuaValue φ)}
    (m : Machine σ) (hn : args.length ≠ n) :
    callC (ofBuffer env n t body) args m = some (.error (.string t), m) := by
  simp [callC, ofBuffer, hn, Except.map]

/-- A buffer of a size that is not negative is created with that size. -/
lemma run_createBufferInt {size : ℤ} (h : 0 ≤ size) (name : String)
    (f : LuaFrame φ (Machine σ)) : (createBufferInt name size).run f =
      some ((), { f with world := f.world.createBuffer name size.toNat }) := by
  rw [createBufferInt, if_neg (Int.not_lt.2 h)]
  rfl

/-- `l_make_ram` creates a buffer, if its arguments are a name and a size. -/
lemma callC_lMakeRam (env : LuaEnv φ (Machine σ)) (args : List (LuaValue φ)) (m : Machine σ)
    (hsize : ∀ n ∈ args[1]?, 0 ≤ intOfLua (luaArg env n)) :
    callC (lMakeRam env) args m = orRaise (wantRam env args) m fun y =>
      some (.ok [], m.createBuffer y.1 (intOfLua y.2).toNat) := by
  by_cases hlen : args.length = 2
  · obtain ⟨a, b, rfl⟩ := List.length_eq_two.1 hlen
    have hfirst : valueAt [b, a] 1 = some a := rfl
    have hsecond : ∀ a, valueAt [b, a] 2 = some b := fun _ => rfl
    have hname := run_tostring_name env a [b] m
    change (tostring env 1).run ⟨[b, a], m⟩ = some (_, ⟨[b, a.convert env], m⟩) at hname
    have hcreate := run_createBufferInt (φ := φ) (σ := σ) (hsize b rfl)
    have hint : (tointeger env 2).run ⟨[b, a.convert env], m⟩ =
        some (luaArg env b, ⟨[b, a.convert env], m⟩) := rfl
    cases ha : a.asString env with
    | none => simp [callC, lMakeRam, wantRam, orRaise, hfirst, ha, Except.map]
    | some name =>
      cases hb : b.asNumber env with
      | none => simp [callC, lMakeRam, wantRam, orRaise, hfirst, hsecond, ha, hb, Except.map]
      | some x =>
        have hnargs : ¬[b, a].length ≠ 2 := not_not_intro rfl
        simp only [callC, lMakeRam, wantRam, orRaise, hfirst, hsecond, hname, ha, hb, hint, hcreate,
          StateT.run_bind, run_gettop, run_isstring, run_isnumber, Option.bind_eq_bind,
          Option.bind_some, Option.any_some, Option.isSome_some, Option.isNone_some,
          List.reverse_cons, List.reverse_nil, List.nil_append, List.cons_append, if_neg hnargs,
          Bool.not_true, Bool.false_eq_true, if_false]
        rfl
  · have hwant : wantRam env args = .error "make_ram: not enough arguments" := by
      unfold wantRam
      split
      · exact absurd rfl hlen
      · rfl
    simp [callC, lMakeRam, hlen, hwant, orRaise, Except.map]

/-- What the program that is left does, once the checks of the arguments are through. -/
lemma orRaise_eq {α : Type} {y : Except String α} {p : α → LuaProg σ (List (LuaValue φ))}
    {k : α → Option (Except (LuaValue φ) (List (LuaValue φ)) × Machine σ)}
    (h : ∀ x, y = .ok x → k x = ((p x).run (luaExec bus) m).map fun z => (.ok z.1, z.2)) :
    orRaise y m k = orRaise (y.map p) m fun p =>
      (p.run (luaExec bus) m).map fun z => (.ok z.1, z.2) := by
  cases y with
  | error msg => rfl
  | ok x => exact h x rfl

section Mapping

variable (bus fopen)

/-- `emu.make_ram` is the program for the request its arguments make. -/
lemma callC_makeRam (hsize : ∀ n ∈ args[1]?, 0 ≤ intOfLua (luaArg env n)) :
    callC (emuLib env fopen .makeRam) args m = orRaise (request env m .makeRam args) m fun p =>
      (p.run (luaExec bus) m).map fun y => (.ok y.1, y.2) :=
  (callC_lMakeRam env args m hsize).trans (orRaise_eq fun _ _ => rfl)

/-- `emu.map_rom` is the program for the request its arguments make. -/
lemma callC_mapRom : callC (emuLib env fopen .mapRom) args m =
    orRaise (request env m .mapRom args) m fun p =>
      (p.run (luaExec bus) m).map fun y => (.ok y.1, y.2) := by
  rcases args with _ | ⟨a, _ | ⟨start, _ | ⟨len, _ | ⟨ofs, _ | ⟨b, args⟩⟩⟩⟩⟩
  case cons.cons.cons.cons.nil =>
    refine (callC_ofBuffer env _ _ a start len ofs [] m rfl).trans (orRaise_eq fun name _ => ?_)
    change _ = (((m.getBuffer name).map _).bind _).map _
    cases m.getBuffer name with
    | none => rfl
    | some buf => rfl
  all_goals exact callC_ofBuffer_nargs env _ _ m (by simp)

/-- `emu.map_xram` is the program for the request its arguments make. -/
lemma callC_mapXram : callC (emuLib env fopen .mapXram) args m =
    orRaise (request env m .mapXram args) m fun p =>
      (p.run (luaExec bus) m).map fun y => (.ok y.1, y.2) := by
  rcases args with _ | ⟨a, _ | ⟨start, _ | ⟨len, _ | ⟨ofs, _ | ⟨readonly, _ | ⟨b, args⟩⟩⟩⟩⟩⟩
  case cons.cons.cons.cons.cons.nil =>
    refine (callC_ofBuffer env _ _ a start len ofs [readonly] m rfl).trans
      (orRaise_eq fun name _ => ?_)
    change _ = (((m.getBuffer name).map _).bind _).map _
    cases m.getBuffer name with
    | none => rfl
    | some buf =>
      rw [Option.map_some, ← apply_ite (Prod.mk ())]
      rfl
  all_goals exact callC_ofBuffer_nargs env _ _ m (by simp)

end Mapping

/-- A call of a function of the library raises the error of the first check that fails, and nothing
has happened then, or it does what it was asked for. -/
theorem callC_emuLib (hserves : Serves env bus) {fn : EmuFn} (hfn : fn ≠ .loadRom)
    (hsize : fn = .makeRam → ∀ n ∈ args[1]?, 0 ≤ intOfLua (luaArg env n)) :
    callC (emuLib env fopen fn) args m = orRaise (request env m fn args) m fun p =>
      (p.run (luaExec bus) m).map fun y => (.ok y.1, y.2) := by
  cases fn with
  | hello => rfl
  | loadRom => exact absurd rfl hfn
  | mapIrq => rfl
  | makeRam => exact callC_makeRam bus fopen (hsize rfl)
  | peekXram => exact (callC_ofNumber env _ _ _ args m).trans (orRaise_eq fun x _ => rfl)
  | peekSfr =>
    refine (callC_ofNumber env _ _ _ args m).trans (orRaise_eq fun x _ => ?_)
    change callC _ args m =
      (((bus.get (byteOfLua x) m).map fun y => (luaOfByte y.1, y.2)).bind _).map _
    rw [← hserves.get (byteOfLua x) ⟨args.reverse, m⟩, callC, StateT.run_bind]
    cases (readd env (byteOfLua x)).run ⟨args.reverse, m⟩ with
    | none => rfl
    | some y => rfl
  | peekRom =>
    refine (callC_ofNumber env _ _ _ args m).trans (orRaise_eq fun x _ => ?_)
    change callC _ args m = (((m.getBuffer "rom").map _).bind _).map _
    rw [callC, StateT.run_bind, run_getWorld, Option.bind_eq_bind, Option.bind_some]
    cases m.getBuffer "rom" with
    | none => rfl
    | some rom => rfl
  | pokePcx => exact (callC_ofNumber env _ _ _ args m).trans (orRaise_eq fun x _ => rfl)
  | pokeXram => exact (callC_ofNumbers env _ args m).trans (orRaise_eq fun x _ => rfl)
  | pokeSfr =>
    refine (callC_ofNumbers env _ args m).trans (orRaise_eq fun x _ => ?_)
    change callC _ args m =
      (((bus.put (byteOfLua x.1) (byteOfLua x.2) m).map fun m' => ((), m')).bind _).map _
    rw [← hserves.put (byteOfLua x.1) (byteOfLua x.2) ⟨args.reverse, m⟩, callC, StateT.run_bind]
    cases (writed env (byteOfLua x.1) (byteOfLua x.2)).run ⟨args.reverse, m⟩ with
    | none => rfl
    | some y => rfl
  | mapRom => exact callC_mapRom bus fopen
  | mapXram => exact callC_mapXram bus fopen

/-- The theorem at `emu.peek_sfr`, called for a register that is read. -/
theorem callC_emuLib_peekSfr :
    callC (emuLib (scriptEnv noHooks (busAt noHooks 0)) (fun _ => .error "") .peekSfr)
      [.number (.inl 0x81)] ((running []).setSfr SP 7) =
        some (.ok [.number (.inl 7)], (running []).setSfr SP 7) := by
  rw [callC_emuLib (serves_scriptEnv noHooks 0) (by simp) (by simp)]
  rfl

end OnStack

end Emu51

import Emu51.Library.LuaStack
import Emu51.Library.Transition
import Emu51.Machine.System

/-!
# Calling a hook over the Lua stack

`ramd_hook` looks up the global `ramd_hooks` and calls the hook of a register over the stack of the
Lua state. All its exits but one take off what they have put on: where the global is no table, it
stays. So the stack grows by one value with each such access (`run_height`). What a hook does on the
stack while it is called is its own affair.

For a chip script, whose global is a table, the accesses over the stack are those of `Machine`
(`run_readd_scriptEnv`, `run_writed_scriptEnv`).
-/

namespace Emu51

open LuaApi Machine

namespace OnStack

variable {φ σ : Type}

/-! ## The accesses -/

/-- `ram[addr]`. -/
def loadSfr (addr : Byte) : LuaApi φ (Machine σ) Byte := do
  let m ← getWorld
  pure (m.sfr addr)

/-- `ram[addr] = val`. -/
def storeSfr (addr val : Byte) : LuaApi φ (Machine σ) Unit := modifyWorld fun m => m.setSfr addr val

variable (env : LuaEnv φ (Machine σ))

/-- `ramd_hook`, with `data` pointing at `ramsfr[addr]`. The check of the stack at its end only
prints something. -/
def ramdHook (write : Bool) (addr : Byte) : LuaApi φ (Machine σ) Bool := do
  let ret ← getglobal env "ramd_hooks"
  if ret ≠ .table then pure false
  else do
    pushinteger (luaOfByte addr)
    let ret ← gettable env (-2)
    if ret ≠ .function then do
      pop 2
      pure false
    else do
      -- remove the table from the stack
      remove (-2)
      pushboolean write
      let data ← loadSfr addr
      pushinteger (luaOfByte data)
      call env 2 2
      let _ ← tostring env (-2)
      let data ← tointeger env (-1)
      storeSfr addr (byteOfLua data)
      pop 2
      pure true

/-- `ramd_get`. -/
def ramdGet (addr : Byte) : LuaApi φ (Machine σ) Byte :=
  if addr = SCON then loadSfr SCON
  else if addr = SBUF then loadSfr SBUF
  else do
    let _ ← ramdHook env false addr
    loadSfr addr

/-- `default_ramd_get`. -/
def defaultRamdGet (addr : Byte) : LuaApi φ (Machine σ) Byte := do
  modifyWorld fun m => if addr = PSW then refreshPsw m else m
  ramdGet env addr

/-- `readd`. -/
def readd (addr : Byte) : LuaApi φ (Machine σ) Byte := do
  let m ← getWorld
  if m.ramsfrtrap addr then defaultRamdGet env addr else loadSfr addr

/-- `ramd_put`. -/
def ramdPut (addr val : Byte) : LuaApi φ (Machine σ) Unit :=
  if addr = DPS then modifyWorld fun m =>
    let m := m.setSfr DPS (val &&& 1)
    if val &&& 1 ≠ 0 then m.mapDptr ⟨DPL1, isDpl1⟩ ⟨DPH1, isDph1⟩
    else m.mapDptr ⟨DPL0, isDpl0⟩ ⟨DPH0, isDph0⟩
  else if addr = SCON then storeSfr SCON val
  else if addr = SBUF then modifyWorld fun m =>
    let m := (m.transmit val).setSfr SBUF val
    pokeScon (m.sfr SCON ||| SCON_TI) m
  else do
    storeSfr addr val
    let _ ← ramdHook env true addr
    pure ()

/-- `writed`, with `default_ramd_put` in it. -/
def writed (addr val : Byte) : LuaApi φ (Machine σ) Unit := do
  let m ← getWorld
  if m.ramsfrtrap addr then do
    ramdPut env addr val
    modifyWorld (afterRamdPut addr)
  else storeSfr addr val

end OnStack

/-- An access to a special function register. -/
inductive SfrAccess where
  | read (addr : Byte)
  | write (addr val : Byte)

namespace OnStack

variable {φ σ : Type} {env : LuaEnv φ (Machine σ)} {f f' : LuaFrame φ (Machine σ)} {m : Machine σ}

/-- Perform an access. -/
def perform (env : LuaEnv φ (Machine σ)) : SfrAccess → LuaApi φ (Machine σ) Unit
  | .read addr => do
      let _ ← readd env addr
      pure ()
  | .write addr val => writed env addr val

/-- The accesses as steps. -/
def Performs (env : LuaEnv φ (Machine σ)) (f : LuaFrame φ (Machine σ)) (x : SfrAccess)
    (f' : LuaFrame φ (Machine σ)) : Prop := (perform env x).run f = some ((), f')

/-- The state in which the access calls `ramd_hook`, if it does. -/
def hookState (m : Machine σ) : SfrAccess → Option (Machine σ)
  | .read addr =>
      if m.ramsfrtrap addr ∧ addr ≠ SCON ∧ addr ≠ SBUF then
        some (if addr = PSW then refreshPsw m else m)
      else none
  | .write addr val =>
      if m.ramsfrtrap addr ∧ addr ≠ DPS ∧ addr ≠ SCON ∧ addr ≠ SBUF then some (m.setSfr addr val)
      else none

/-- The access calls `ramd_hook` while `ramd_hooks` is no table. -/
def leaks (env : LuaEnv φ (Machine σ)) (m : Machine σ) (x : SfrAccess) : Bool :=
  (hookState m x).any fun m' => (env.global m' "ramd_hooks").type ≠ .table

/-! ## `ramd_hook` -/

@[simp] lemma run_loadSfr (addr : Byte) : (loadSfr addr).run f = some (f.world.sfr addr, f) := rfl

@[simp] lemma run_storeSfr (addr val : Byte) :
    (storeSfr addr val).run f = some ((), { f with world := f.world.setSfr addr val }) := rfl

/-- Without a table the global stays on the stack. -/
lemma run_ramdHook_of_not_table {w : Bool} {a : Byte}
    (h : (env.global f.world "ramd_hooks").type ≠ .table) : (ramdHook env w a).run f =
      some (false, { f with stack := env.global f.world "ramd_hooks" :: f.stack }) := by
  simp [ramdHook, h]

/-- The value `ramd_hooks` has for a register. -/
def entry (env : LuaEnv φ (Machine σ)) (m : Machine σ) (a : Byte) : LuaValue φ :=
  env.field m (env.global m "ramd_hooks") (.number (.inl (luaOfByte a)))

/-- The byte that is stored for the results of a function. -/
def resultByte (env : LuaEnv φ (Machine σ)) (results : List (LuaValue φ)) : Byte :=
  byteOfLua ((((adjust 2 results).getD 1 .nil).asInteger env).getD 0)

/-- Where the table has no function, the stack is as it was and nothing has been called. -/
lemma run_ramdHook_of_not_function {w : Bool} {a : Byte}
    (ht : (env.global f.world "ramd_hooks").type = .table)
    (hf : (entry env f.world a).type ≠ .function) :
    (ramdHook env w a).run f = some (false, f) := by
  rw [entry] at hf
  simp [ramdHook, ht, hf]

/-- Otherwise the function is called and its second result is stored. -/
lemma run_ramdHook_of_function {w : Bool} {a : Byte}
    (ht : (env.global f.world "ramd_hooks").type = .table)
    (hf : (entry env f.world a).type = .function) :
    (ramdHook env w a).run f = (env.call (entry env f.world a)
      [.boolean w, .number (.inl (luaOfByte (f.world.sfr a)))] f.world).map fun y =>
        (true, { f with world := y.2.setSfr a (resultByte env y.1) }) := by
  rw [entry] at hf
  cases hcall : env.call (entry env f.world a)
    [.boolean w, .number (.inl (luaOfByte (f.world.sfr a)))] f.world with
  | none =>
    simp only [entry, sfr] at hcall
    simp [ramdHook, ht, hf, hcall]
  | some y =>
    obtain ⟨u, v, huv⟩ := List.length_eq_two.1 (length_adjust 2 y.1)
    simp only [entry, sfr] at hcall
    simp [ramdHook, resultByte, ht, hf, hcall, huv]

/-- The ways through the function: each leaves on the stack what it found there, the one without a
table the global as well, and only a call of a function changes the emulator. -/
lemma ramdHook_cases {w r : Bool} {a : Byte} (h : (ramdHook env w a).run f = some (r, f')) :
    ((env.global f.world "ramd_hooks").type ≠ .table ∧ r = false ∧
      f' = { f with stack := env.global f.world "ramd_hooks" :: f.stack }) ∨
    ((env.global f.world "ramd_hooks").type = .table ∧ r = false ∧ f' = f) ∨
    ((env.global f.world "ramd_hooks").type = .table ∧ r = true ∧
      ∃ m, f' = { f with world := m }) := by
  by_cases ht : (env.global f.world "ramd_hooks").type = .table
  · by_cases hf : (entry env f.world a).type = .function
    · rw [run_ramdHook_of_function ht hf] at h
      obtain ⟨y, -, hy⟩ := Option.map_eq_some_iff.1 h
      obtain ⟨rfl, rfl⟩ := Prod.mk.inj hy
      exact .inr (.inr ⟨ht, rfl, _, rfl⟩)
    · rw [run_ramdHook_of_not_function ht hf] at h
      obtain ⟨rfl, rfl⟩ := Prod.mk.inj (Option.some.inj h)
      exact .inr (.inl ⟨ht, rfl, rfl⟩)
  · rw [run_ramdHook_of_not_table ht] at h
    obtain ⟨rfl, rfl⟩ := Prod.mk.inj (Option.some.inj h)
    exact .inl ⟨ht, rfl, rfl⟩

/-- A call that fails has done nothing to the emulator. -/
lemma ramdHook_failed {w : Bool} {a : Byte} (h : (ramdHook env w a).run f = some (false, f')) :
    f'.world = f.world := by
  obtain ⟨-, -, rfl⟩ | ⟨-, -, rfl⟩ | ⟨-, hr, -⟩ := ramdHook_cases h
  · rfl
  · rfl
  · exact absurd hr Bool.false_ne_true

/-- What a call leaves on the stack: one value without a table, and nothing otherwise. -/
lemma ramdHook_stack {w r : Bool} {a : Byte} (h : (ramdHook env w a).run f = some (r, f')) :
    f'.stack.length =
      f.stack.length + if (env.global f.world "ramd_hooks").type ≠ .table then 1 else 0 := by
  obtain ⟨ht, -, rfl⟩ | ⟨ht, -, rfl⟩ | ⟨ht, -, m, rfl⟩ := ramdHook_cases h
  · rw [if_pos ht]
    rfl
  · rw [if_neg (not_not_intro ht)]
    rfl
  · rw [if_neg (not_not_intro ht)]
    rfl

/-! ## Accesses -/

section Runs

variable {a v : Byte}

/-- `SCON` and `SBUF` are read without a hook, and the stack is left alone. -/
lemma run_ramdGet_of_plain (h : a = SCON ∨ a = SBUF) :
    (ramdGet env a).run f = some (f.world.sfr a, f) := by
  unfold ramdGet
  split_ifs with hscon hsbuf
  · rw [hscon, run_loadSfr]
  · rw [hsbuf, run_loadSfr]
  · exact absurd h (not_or.2 ⟨hscon, hsbuf⟩)

/-- Any other register is read from its cell after `ramd_hook` has run. -/
lemma run_ramdGet_of_hook (h₁ : a ≠ SCON) (h₂ : a ≠ SBUF) : (ramdGet env a).run f =
    ((ramdHook env false a).run f).map fun y => (y.2.world.sfr a, y.2) := by
  rw [ramdGet, if_neg h₁, if_neg h₂, StateT.run_bind]
  cases (ramdHook env false a).run f with
  | none => rfl
  | some y => rfl

/-- A trapped register is read through `ramd_get`, with the parity brought up to date for `PSW`. -/
lemma run_readd_of_trap (h : f.world.ramsfrtrap a = true) : (readd env a).run f =
    (ramdGet env a).run { f with world := if a = PSW then refreshPsw f.world else f.world } := by
  rw [readd, StateT.run_bind, run_getWorld, Option.bind_eq_bind, Option.bind_some, if_pos h]
  rfl

/-- A register that is not trapped is read from its cell. -/
lemma run_readd_of_untrapped (h : f.world.ramsfrtrap a = false) :
    (readd env a).run f = some (f.world.sfr a, f) := by
  rw [readd, StateT.run_bind, run_getWorld, Option.bind_eq_bind, Option.bind_some,
    if_neg (by rw [h]; exact Bool.false_ne_true), run_loadSfr]

/-- `DPS`, `SCON` and `SBUF` are written without a hook, as over the model without a stack. -/
lemma run_ramdPut_of_plain (env : LuaEnv φ (Machine σ)) (f : LuaFrame φ (Machine σ)) (v : Byte)
    (h : a = DPS ∨ a = SCON ∨ a = SBUF) :
    ∃ m, (ramdPut env a v).run f = some ((), { f with world := m }) ∧
      ∀ (script : Script σ) (bus : Bus σ), Machine.ramdPut script bus a v f.world = some m := by
  rcases h with rfl | rfl | rfl
  · refine ⟨_, rfl, fun script bus => ?_⟩
    unfold Machine.ramdPut
    rw [if_pos rfl]
    dsimp only
    split_ifs
    · rfl
    · rfl
  · exact ⟨_, rfl, fun _ _ => rfl⟩
  · exact ⟨_, rfl, fun _ _ => rfl⟩

/-- Any other register is written to its cell, and then `ramd_hook` runs. -/
lemma run_ramdPut_of_hook (h₁ : a ≠ DPS) (h₂ : a ≠ SCON) (h₃ : a ≠ SBUF) :
    (ramdPut env a v).run f =
      ((ramdHook env true a).run { f with world := f.world.setSfr a v }).map fun y =>
        ((), y.2) := by
  rw [ramdPut, if_neg h₁, if_neg h₂, if_neg h₃, StateT.run_bind, run_storeSfr, Option.bind_eq_bind,
    Option.bind_some, StateT.run_bind]
  cases (ramdHook env true a).run { f with world := f.world.setSfr a v } with
  | none => rfl
  | some y => rfl

/-- A trapped register is written through `ramd_put`, and then the window and the listeners follow.
-/
lemma run_writed_of_trap (h : f.world.ramsfrtrap a = true) : (writed env a v).run f =
    ((ramdPut env a v).run f).map fun y =>
      ((), { y.2 with world := afterRamdPut a y.2.world }) := by
  rw [writed, StateT.run_bind, run_getWorld, Option.bind_eq_bind, Option.bind_some, if_pos h,
    StateT.run_bind]
  cases (ramdPut env a v).run f with
  | none => rfl
  | some y => rfl

/-- A register that is not trapped is written to its cell. -/
lemma run_writed_of_untrapped (h : f.world.ramsfrtrap a = false) :
    (writed env a v).run f = some ((), { f with world := f.world.setSfr a v }) := by
  rw [writed, StateT.run_bind, run_getWorld, Option.bind_eq_bind, Option.bind_some,
    if_neg (by rw [h]; exact Bool.false_ne_true), run_storeSfr]

/-- An access that calls no hook leaves the stack alone. -/
lemma run_perform_of_none (env : LuaEnv φ (Machine σ)) {x : SfrAccess}
    (h : hookState f.world x = none) :
    ∃ m, (perform env x).run f = some ((), { f with world := m }) := by
  cases x with
  | read a =>
    have hread : ∃ m b, (readd env a).run f = some (b, { f with world := m }) := by
      cases htrap : f.world.ramsfrtrap a with
      | false => exact ⟨_, _, run_readd_of_untrapped htrap⟩
      | true =>
        have hplain : a = SCON ∨ a = SBUF := by
          by_contra hno
          rw [hookState, if_pos ⟨htrap, not_or.1 hno⟩] at h
          exact Option.some_ne_none _ h
        exact ⟨_, _, (run_readd_of_trap htrap).trans (run_ramdGet_of_plain hplain)⟩
    obtain ⟨m, b, hrun⟩ := hread
    refine ⟨m, ?_⟩
    rw [perform, StateT.run_bind, hrun]
    rfl
  | write a v =>
    cases htrap : f.world.ramsfrtrap a with
    | false => exact ⟨_, run_writed_of_untrapped htrap⟩
    | true =>
      have hplain : a = DPS ∨ a = SCON ∨ a = SBUF := by
        by_contra hno
        rw [not_or, not_or] at hno
        rw [hookState, if_pos ⟨htrap, hno⟩] at h
        exact Option.some_ne_none _ h
      obtain ⟨m, hm, -⟩ := run_ramdPut_of_plain env f v hplain
      refine ⟨afterRamdPut a m, ?_⟩
      rw [perform, run_writed_of_trap htrap, hm]
      rfl

/-- Otherwise the hook is called, and what comes after it does not touch the stack. -/
lemma run_perform_of_some (env : LuaEnv φ (Machine σ)) {x : SfrAccess}
    (h : hookState f.world x = some m) :
    ∃ (w : Bool) (a : Byte) (g : Machine σ → Machine σ), (perform env x).run f =
      ((ramdHook env w a).run { f with world := m }).map fun y =>
        ((), { y.2 with world := g y.2.world }) := by
  cases x with
  | read a =>
    by_cases hcall : f.world.ramsfrtrap a = true ∧ a ≠ SCON ∧ a ≠ SBUF
    · rw [hookState, if_pos hcall] at h
      obtain rfl := Option.some.inj h
      refine ⟨false, a, id, ?_⟩
      rw [perform, StateT.run_bind, run_readd_of_trap hcall.1,
        run_ramdGet_of_hook hcall.2.1 hcall.2.2]
      cases (ramdHook env false a).run
        { f with world := if a = PSW then refreshPsw f.world else f.world } with
      | none => rfl
      | some y => rfl
    · rw [hookState, if_neg hcall] at h
      exact absurd h.symm (Option.some_ne_none m)
  | write a v =>
    by_cases hcall : f.world.ramsfrtrap a = true ∧ a ≠ DPS ∧ a ≠ SCON ∧ a ≠ SBUF
    · rw [hookState, if_pos hcall] at h
      obtain rfl := Option.some.inj h
      refine ⟨true, a, afterRamdPut a, ?_⟩
      rw [perform, run_writed_of_trap hcall.1,
        run_ramdPut_of_hook hcall.2.1 hcall.2.2.1 hcall.2.2.2, Option.map_map]
      rfl
    · rw [hookState, if_neg hcall] at h
      exact absurd h.symm (Option.some_ne_none m)

/-- One access leaves at most one value on the stack. -/
lemma perform_height {x : SfrAccess} (h : Performs env f x f') :
    f'.stack.length = f.stack.length + if leaks env f.world x then 1 else 0 := by
  rw [Performs] at h
  cases hstate : hookState f.world x with
  | none =>
    obtain ⟨m, hrun⟩ := run_perform_of_none env hstate
    obtain ⟨-, rfl⟩ := Prod.mk.inj (Option.some.inj (hrun.symm.trans h))
    rw [leaks, hstate]
    rfl
  | some m =>
    obtain ⟨w, a, g, hrun⟩ := run_perform_of_some env hstate
    rw [hrun] at h
    obtain ⟨⟨r, f₁⟩, hhook, heq⟩ := Option.map_eq_some_iff.1 h
    obtain ⟨-, rfl⟩ := Prod.mk.inj heq
    simp only [leaks, hstate, Option.any_some, decide_eq_true_eq]
    exact ramdHook_stack hhook

/-- If the functions of the script return, so does the call of a hook. -/
lemma exists_ramdHook (hcall : ∀ fn args m, fn.type = .function → ∃ y, env.call fn args m = some y)
    (f : LuaFrame φ (Machine σ)) (w : Bool) (a : Byte) :
    ∃ y, (ramdHook env w a).run f = some y := by
  by_cases ht : (env.global f.world "ramd_hooks").type = .table
  · by_cases hf : (entry env f.world a).type = .function
    · obtain ⟨y, hy⟩ := hcall _ [.boolean w, .number (.inl (luaOfByte (f.world.sfr a)))] f.world hf
      rw [run_ramdHook_of_function ht hf, hy]
      exact ⟨_, rfl⟩
    · exact ⟨_, run_ramdHook_of_not_function ht hf⟩
  · exact ⟨_, run_ramdHook_of_not_table ht⟩

/-- If the functions of the script return, every access can be performed. -/
lemma exists_performs (hcall : ∀ fn args m, fn.type = .function → ∃ y, env.call fn args m = some y)
    (f : LuaFrame φ (Machine σ)) (x : SfrAccess) : ∃ f', Performs env f x f' := by
  cases hstate : hookState f.world x with
  | none =>
    obtain ⟨m, hrun⟩ := run_perform_of_none env hstate
    exact ⟨_, hrun⟩
  | some m =>
    obtain ⟨w, a, g, hrun⟩ := run_perform_of_some env hstate
    obtain ⟨y, hy⟩ := exists_ramdHook hcall { f with world := m } w a
    rw [hy] at hrun
    exact ⟨_, hrun⟩

end Runs

/-! ## Chip scripts -/

section Scripts

variable (script : Script σ) (bus : Bus σ)

/-- A chip script as the Lua side of the stack: the functions in its table are numbered by their
registers. Of the two results of a hook, the name is left out here too. -/
def scriptEnv : LuaEnv Empty (Machine σ) where
  floatToInteger := Empty.elim
  stringToNumber _ := none
  numberToString _ := ""
  global _ name := if name = "ramd_hooks" then .table 0 else .nil
  field m _ key :=
    match key with
    | .number (.inl n) =>
        if luaOfByte (byteOfLua n) = n ∧ (script.ramdHooks m.lua (byteOfLua n)).isSome then
          .function (byteOfLua n).toNat
        else .nil
    | _ => .nil
  call fn args m :=
    match fn, args with
    | .function ref, [.boolean write, .number (.inl data)] =>
        (script.ramdHooks m.lua (BitVec.ofNat 8 ref)).bind fun hook =>
          ((hook write data).run (luaExec bus) m).map fun y => ([.nil, .number (.inl y.1)], y.2)
    | _, _ => none

/-- The table of a script has a function where the script has a hook, and `nil` elsewhere. -/
lemma entry_scriptEnv (m : Machine σ) (a : Byte) : entry (scriptEnv script bus) m a =
    if (script.ramdHooks m.lua a).isSome then .function a.toNat else .nil := by
  change (if luaOfByte (byteOfLua (luaOfByte a)) = luaOfByte a ∧
    (script.ramdHooks m.lua (byteOfLua (luaOfByte a))).isSome then _ else _) = _
  simp only [byteOfLua_luaOfByte, true_and]

variable {script bus} {f : LuaFrame Empty (Machine σ)}

/-- Over the stack `ramd_hook` does what it does without it, and tells whether there is a hook. -/
theorem run_ramdHook_scriptEnv (w : Bool) (a : Byte) :
    (ramdHook (scriptEnv script bus) w a).run f =
      (Machine.ramdHook script bus w a f.world).map fun m =>
        ((script.ramdHooks f.world.lua a).isSome, { f with world := m }) := by
  have ht : ((scriptEnv script bus).global f.world "ramd_hooks").type = .table := rfl
  have hentry := entry_scriptEnv script bus f.world a
  unfold Machine.ramdHook
  cases hhook : script.ramdHooks f.world.lua a with
  | none =>
    rw [hhook, Option.isSome_none, if_neg Bool.false_ne_true] at hentry
    rw [run_ramdHook_of_not_function ht (by rw [hentry]; exact LuaType.noConfusion)]
    rfl
  | some hook =>
    rw [hhook, Option.isSome_some, if_pos rfl] at hentry
    rw [run_ramdHook_of_function ht (by rw [hentry]; rfl), hentry]
    change Option.map _ ((script.ramdHooks f.world.lua (BitVec.ofNat 8 a.toNat)).bind _) = _
    rw [BitVec.ofNat_toNat, BitVec.setWidth_eq, hhook, Option.bind_some, Option.map_map,
      Option.map_map]
    rfl

/-- Over the stack `ramd_get` does what it does without it. -/
lemma run_ramdGet_scriptEnv (a : Byte) : (ramdGet (scriptEnv script bus) a).run f =
    (Machine.ramdGet script bus a f.world).map fun y => (y.1, { f with world := y.2 }) := by
  unfold Machine.ramdGet
  split_ifs with hscon hsbuf
  · rw [run_ramdGet_of_plain (.inl hscon), hscon]
    rfl
  · rw [run_ramdGet_of_plain (.inr hsbuf), hsbuf]
    rfl
  · rw [run_ramdGet_of_hook hscon hsbuf, run_ramdHook_scriptEnv, Option.map_map, Option.map_map]
    rfl

/-- Over the stack `ramd_put` does what it does without it. -/
lemma run_ramdPut_scriptEnv (a v : Byte) : (ramdPut (scriptEnv script bus) a v).run f =
    (Machine.ramdPut script bus a v f.world).map fun m => ((), { f with world := m }) := by
  by_cases hplain : a = DPS ∨ a = SCON ∨ a = SBUF
  · obtain ⟨m, hrun, hm⟩ := run_ramdPut_of_plain (scriptEnv script bus) f v hplain
    rw [hrun, hm script bus]
    rfl
  · obtain ⟨hdps, hscon, hsbuf⟩ : a ≠ DPS ∧ a ≠ SCON ∧ a ≠ SBUF := by
      rwa [not_or, not_or] at hplain
    rw [run_ramdPut_of_hook hdps hscon hsbuf, run_ramdHook_scriptEnv, Option.map_map,
      Machine.ramdPut, if_neg hdps, if_neg hscon, if_neg hsbuf]
    rfl

/-- A read over the stack is a read, and leaves nothing on the stack. -/
theorem run_readd_scriptEnv (a : Byte) : (readd (scriptEnv script bus) a).run f =
    (readdVia script bus a f.world).map fun y => (y.1, { f with world := y.2 }) := by
  cases htrap : f.world.ramsfrtrap a with
  | false =>
    rw [run_readd_of_untrapped htrap, readdVia_of_untrapped htrap]
    rfl
  | true =>
    rw [run_readd_of_trap htrap, run_ramdGet_scriptEnv, readdVia, if_pos htrap,
      Machine.defaultRamdGet]

/-- So it is with writes: the machine changes as it does without the stack. -/
theorem run_writed_scriptEnv (a v : Byte) : (writed (scriptEnv script bus) a v).run f =
    (writedVia script bus a v f.world).map fun m => ((), { f with world := m }) := by
  cases htrap : f.world.ramsfrtrap a with
  | false =>
    rw [run_writed_of_untrapped htrap, writedVia_of_untrapped htrap]
    rfl
  | true =>
    rw [run_writed_of_trap htrap, run_ramdPut_scriptEnv, writedVia, if_pos htrap,
      Machine.defaultRamdPut, Option.map_map, Option.map_map]
    rfl

/-- The accesses of a chip script leave nothing on the stack. -/
lemma leaks_scriptEnv (m : Machine σ) (x : SfrAccess) :
    leaks (scriptEnv script bus) m x = false := by
  unfold leaks
  cases hookState m x with
  | none => rfl
  | some m' => rfl

end Scripts

/-! ## Runs -/

section Balance

variable {f₀ : LuaFrame φ (Machine σ)} {tr : List (LuaFrame φ (Machine σ) × SfrAccess)}

/-- The stack grows by one value with each access that calls `ramd_hook` without a table. -/
theorem run_height (hrun : Run (Performs env) f₀ tr f) : f.stack.length =
    f₀.stack.length + tr.countP fun e => leaks env e.1.world e.2 := by
  induction hrun with
  | refl f => rfl
  | head hstep _ ih =>
    rw [ih, perform_height hstep, List.countP_cons, Nat.add_assoc, Nat.add_comm (ite ..)]

/-- If the functions return, every sequence of accesses can be performed. -/
lemma exists_run (hcall : ∀ fn args m, fn.type = .function → ∃ y, env.call fn args m = some y)
    (xs : List SfrAccess) (f₀ : LuaFrame φ (Machine σ)) :
    ∃ tr f, tr.map Prod.snd = xs ∧ Run (Performs env) f₀ tr f := by
  induction xs generalizing f₀ with
  | nil => exact ⟨[], f₀, rfl, .refl f₀⟩
  | cons x xs ih =>
    obtain ⟨f₁, hstep⟩ := exists_performs hcall f₀ x
    obtain ⟨tr, f, rfl, hrun⟩ := ih f₁
    exact ⟨_, f, rfl, .head hstep hrun⟩

/-- The accesses of a run leave the stack as high as it was, and a call of `ramd_hook` that fails
leaves the register alone, exactly when no access of the run calls `ramd_hook` without a table. -/
theorem run_balanced_iff (hrun : Run (Performs env) f₀ tr f) :
    (f.stack.length = f₀.stack.length ∧ ∀ (w : Bool) (a : Byte) (g g' : LuaFrame φ (Machine σ)),
      (ramdHook env w a).run g = some (false, g') → g'.world.sfr a = g.world.sfr a) ↔
    ∀ e ∈ tr, leaks env e.1.world e.2 = false := by
  have hkept : ∀ (w : Bool) (a : Byte) (g g' : LuaFrame φ (Machine σ)),
      (ramdHook env w a).run g = some (false, g') → g'.world.sfr a = g.world.sfr a := by
    intro w a g g' h
    rw [ramdHook_failed h]
  rw [run_height hrun, and_iff_left hkept, Nat.add_eq_left, List.countP_eq_zero]
  simp only [Bool.not_eq_true]

/-- A script whose only hook is of `0x80`: it answers every read and write of that register with 7
and calls nothing. -/
def hookScript : Script Unit where
  ramdHooks _ a := if a = 0x80 then some fun _ _ => .done 7 else none
  globals := ()
  chunk := .done ()
  ccalls := 0

/-- A machine as the C program lays it out, with the trap array as `sfr_init` fills it: the register
`0x80` traps. -/
def trapMachine : Machine Unit :=
  { static () fun _ => default with ramsfrtrap := sfrInitTrap }

/-- A hook of `0x80` answers a read and a write with 7, and the stack is empty afterwards. -/
theorem run_balanced_iff_hooked : ∃ (tr : List (LuaFrame Empty (Machine Unit) × SfrAccess))
    (f : LuaFrame Empty (Machine Unit)), tr.map Prod.snd = [.read 0x80, .write 0x80 3] ∧
      Run (Performs (scriptEnv hookScript (busAt hookScript 0))) ⟨[], trapMachine⟩ tr f ∧
      f.stack.length = 0 ∧ f.world.sfr 0x80 = 7 := by
  have hread : Performs (scriptEnv hookScript (busAt hookScript 0)) ⟨[], trapMachine⟩ (.read 0x80)
    ⟨[], trapMachine.setSfr 0x80 7⟩ := rfl
  have hwrite : Performs (scriptEnv hookScript (busAt hookScript 0))
    ⟨[], trapMachine.setSfr 0x80 7⟩ (.write 0x80 3)
    ⟨[], afterRamdPut 0x80 (((trapMachine.setSfr 0x80 7).setSfr 0x80 3).setSfr 0x80 7)⟩ := rfl
  have hrun := Run.head hread (.head hwrite (.refl _))
  exact ⟨_, _, rfl, hrun,
    ((run_balanced_iff hrun).2 fun e _ => leaks_scriptEnv e.1.world e.2).1, by decide⟩

/-- Without the global, one read of a trapped register leaves a value on the stack. -/
theorem absent_hooks_unbalanced : ¬∀ (φ σ : Type) (env : LuaEnv φ (Machine σ))
    (f₀ f : LuaFrame φ (Machine σ)) (tr : List (LuaFrame φ (Machine σ) × SfrAccess)),
    Run (Performs env) f₀ tr f → f.stack.length = f₀.stack.length ∧
      ∀ (w : Bool) (a : Byte) (g g' : LuaFrame φ (Machine σ)),
        (ramdHook env w a).run g = some (false, g') → g'.world.sfr a = g.world.sfr a := by
  intro hall
  have hstep : Performs (default : LuaEnv Empty (Machine Unit)) ⟨[], trapMachine⟩ (.read 0x80)
    ⟨[.nil], trapMachine⟩ := rfl
  exact absurd (hall Empty Unit default _ _ _ (.head hstep (.refl _))).1 (by decide)

end Balance

end OnStack

end Emu51

import Emu51.Library.CString
import Emu51.Library.LuaStack
import Emu51.Machine.System

/-!
# Loading a file into a buffer

`load_rom` registers the new buffer before it reads the file. All other errors are raised before
anything has been changed, but a file that is too short is noticed when the buffer is there already:
the name stands for a buffer of which only the first bytes are the file's, and what it stood for
before is out of reach.
-/

namespace Emu51

open LuaApi

/-- A Lua string as C sees it: it ends at the first null. -/
def cstring (s : String) : String := String.ofList (s.toList.takeWhile (· ≠ CString.nul))

namespace Machine

variable {φ σ : Type}

/-! ## Buffers by name -/

/-- The name stands for the same buffer, or for none, and the buffer has the same contents. -/
def SameBuffer (m m' : Machine σ) (name : String) : Prop :=
  m'.getBuffer name = m.getBuffer name ∧ ∀ b, m.getBuffer name = some b → m'.heap b = m.heap b

/-- The name stands for a buffer of `n` bytes, which are the first ones of the file. -/
def HoldsFile (m : Machine σ) (name : String) (n : ℕ) (file : List Byte) : Prop :=
  ∃ b, m.getBuffer name = some b ∧ (m.heap b).size = n ∧
    ∀ i < n, file[i]? = some ((m.heap b).mem i)

/-- There is one buffer more, of the given name. -/
structure Registers (m m' : Machine σ) (name : String) : Prop where
  nbuf : m'.nbuf = m.nbuf + 1
  name : (m'.heap m.nbuf).name = name
  heap : ∀ b < m.nbuf, m'.heap b = m.heap b

/-- A buffer is the same as itself. -/
lemma SameBuffer.refl (m : Machine σ) (name : String) : SameBuffer m m name :=
  ⟨rfl, fun _ _ => rfl⟩

/-- A buffer that is found is one of those there are. -/
lemma findBuffer_lt {heap : ℕ → Buffer} {name : String} {n b : ℕ}
    (h : findBuffer heap name n = some b) : b < n := by
  induction n with
  | zero => exact nomatch h
  | succ n ih =>
    rw [findBuffer] at h
    split_ifs at h with hname
    · obtain rfl := Option.some.inj h
      exact Nat.lt_succ_self _
    · exact Nat.lt_succ_of_lt (ih h)

/-- Only the buffers that exist matter when a name is looked up. -/
lemma findBuffer_congr {heap heap' : ℕ → Buffer} (name : String) {n : ℕ}
    (h : ∀ b < n, heap' b = heap b) : findBuffer heap' name n = findBuffer heap name n := by
  induction n with
  | zero => rfl
  | succ n ih =>
    rw [findBuffer, findBuffer, h n (Nat.lt_succ_self n), ih fun b hb => h b (Nat.lt_succ_of_lt hb)]

variable {m m' : Machine σ} {name other : String}

/-- The new buffer shadows those of the same name. -/
lemma Registers.getBuffer_self (h : Registers m m' name) : m'.getBuffer name = some m.nbuf := by
  rw [getBuffer, h.nbuf, findBuffer, if_pos h.name]

/-- Names other than the new buffer's stand for what they did. -/
lemma Registers.sameBuffer (h : Registers m m' name) (hne : other ≠ name) :
    SameBuffer m m' other := by
  refine ⟨?_, fun b hb => h.heap b (findBuffer_lt hb)⟩
  rw [getBuffer, h.nbuf, findBuffer, if_neg (by rw [h.name]; exact hne.symm)]
  exact findBuffer_congr other h.heap

/-- So under this name something has changed, as the new buffer is found now. -/
lemma Registers.not_sameBuffer (h : Registers m m' name) : ¬SameBuffer m m' name := by
  intro hsame
  have hlt := findBuffer_lt (hsame.1.symm.trans h.getBuffer_self)
  exact absurd hlt (Nat.lt_irrefl _)

/-- A new buffer is registered under its name, and the others are as they were. -/
lemma registers_createBuffer (m : Machine σ) (name : String) (size : ℕ) :
    Registers m (m.createBuffer name size) name where
  nbuf := rfl
  name := by rw [createBuffer_heap, Function.update_self]
  heap b hb := by rw [createBuffer_heap, Function.update_of_ne (Nat.ne_of_lt hb)]

/-! ## Reading the file -/

/-- `fread(buf, 1, size, f)` at the start of the file: how many bytes are read, and the buffer with
them. -/
def fread (buf size : ℕ) (file : List Byte) (m : Machine σ) : ℕ × Machine σ :=
  let nr := min size file.length
  (nr, { m with
    heap := Function.update m.heap buf
      { m.heap buf with
        mem := fun i => if 0 ≤ i ∧ i < nr then file.getD i.toNat 0 else (m.heap buf).mem i } })

/-- The buffer with what could be read of the file. -/
def loaded (name : String) (size : ℕ) (file : List Byte) (m : Machine σ) : Machine σ :=
  (fread m.nbuf size file (m.createBuffer name size)).2

/-- What the new buffer holds is the file, and the other buffers are as they were. -/
lemma heap_loaded (name : String) (size : ℕ) (file : List Byte) (m : Machine σ) :
    (loaded name size file m).heap = Function.update m.heap m.nbuf
      { name := name
        size := size
        mem := fun i => if 0 ≤ i ∧ i < (min size file.length : ℕ) then file.getD i.toNat 0
          else if 0 ≤ i ∧ i < size then 0 else (m.heap m.nbuf).mem i } := by
  simp only [loaded, fread, createBuffer, Function.update_self, Function.update_idem]

/-- So is one that a file is loaded into. -/
lemma registers_loaded (name : String) (size : ℕ) (file : List Byte) (m : Machine σ) :
    Registers m (loaded name size file m) name where
  nbuf := rfl
  name := by rw [heap_loaded, Function.update_self]
  heap b hb := by rw [heap_loaded, Function.update_of_ne (Nat.ne_of_lt hb)]

/-- If the file is long enough, the buffer holds it. -/
lemma holdsFile_loaded (name : String) {size : ℕ} {file : List Byte} (h : size ≤ file.length)
    (m : Machine σ) : HoldsFile (loaded name size file m) name size file := by
  refine ⟨m.nbuf, (registers_loaded name size file m).getBuffer_self, ?_, fun i hi => ?_⟩
  · rw [heap_loaded, Function.update_self]
  · have hfile : i < file.length := Nat.lt_of_lt_of_le hi h
    have hread : (0 : ℤ) ≤ i ∧ (i : ℤ) < (min size file.length : ℕ) :=
      ⟨Int.natCast_nonneg i, Int.ofNat_lt.2 (Nat.lt_min.2 ⟨hi, hfile⟩)⟩
    rw [heap_loaded, Function.update_self, List.getElem?_eq_getElem hfile]
    dsimp only
    rw [if_pos hread, Int.toNat_natCast, List.getD_eq_getElem?_getD,
      List.getElem?_eq_getElem hfile, Option.getD_some]

/-! ## `load_rom` -/

/-- Raise an error with a text. -/
def raise (msg : String) : LuaApi φ (Machine σ) (LuaResult φ) := do
  pushstring msg
  error

/-- `create_buffer` for an `int`. A negative size has no meaning. -/
def createBufferInt (name : String) (size : ℤ) : LuaApi φ (Machine σ) Unit :=
  if size < 0 then failure else modifyWorld fun m => m.createBuffer name size.toNat

/-- `fread` into the buffer of a name. -/
def freadBuffer (name : String) (size : ℤ) (file : List Byte) : LuaApi φ (Machine σ) ℕ := do
  let m ← getWorld
  match m.getBuffer name with
  | none => failure
  | some buf => do
      modifyWorld fun m => (fread buf size.toNat file m).2
      pure (fread buf size.toNat file m).1

/-- `l_load_rom` after the file has been opened. -/
def loadOpened (name : String) (size : ℤ) (file : List Byte) :
    LuaApi φ (Machine σ) (LuaResult φ) := do
  createBufferInt name size
  let nr ← freadBuffer name size file
  if (nr : ℤ) ≠ size then raise "file is too short!"
  else pure (.ok 0)

/-- `l_load_rom`, where `fopen` gives the contents of a file or the text of the error. -/
def lLoadRom (env : LuaEnv φ (Machine σ)) (fopen : String → Except String (List Byte)) :
    LuaApi φ (Machine σ) (LuaResult φ) := do
  let nargs ← gettop
  if nargs ≠ 2 then raise "load_rom: not enough arguments"
  else do
    let isName ← isstring env 1
    if !isName then raise "arg1 want string"
    else do
      let isSize ← isnumber env 2
      if !isSize then raise "arg2 want number"
      else do
        let some arg1 ← tostring env 1 | failure
        let name := cstring arg1
        let arg2 ← tointeger env 2
        let size := intOfLua arg2
        match fopen name with
        | .error msg => raise msg
        | .ok file => loadOpened name size file

/-! ## What a call does -/

/-- The name and the size that are asked for, if the arguments are good. -/
def loadArgs (env : LuaEnv φ (Machine σ)) (f : LuaFrame φ (Machine σ)) : Option (String × LuaInt) :=
  match f.stack with
  | [arg2, arg1] =>
      if (arg2.asNumber env).isSome then
        (arg1.asString env).map fun s => (cstring s, (arg2.asInteger env).getD 0)
      else none
  | _ => none

variable {env : LuaEnv φ (Machine σ)} {fopen : String → Except String (List Byte)}
  {f : LuaFrame φ (Machine σ)} {x : LuaInt} {file : List Byte}

@[simp] lemma run_raise (msg : String) : (raise msg : LuaApi φ (Machine σ) (LuaResult φ)).run f =
    some (.error (.string msg), f) := rfl

/-- Bad arguments are an error, and nothing has happened. -/
lemma run_lLoadRom_of_none (fopen : String → Except String (List Byte))
    (h : loadArgs env f = none) :
    ∃ msg, (lLoadRom env fopen).run f = some (.error (.string msg), f) := by
  obtain ⟨stack, m⟩ := f
  by_cases hlen : stack.length = 2
  · obtain ⟨b, a, rfl⟩ := List.length_eq_two.1 hlen
    have hfirst : valueAt [b, a] 1 = some a := rfl
    have hsecond : valueAt [b, a] 2 = some b := rfl
    cases ha : a.asString env with
    | none => exact ⟨"arg1 want string", by simp [lLoadRom, hfirst, ha]⟩
    | some s =>
      cases hb : b.asNumber env with
      | none => exact ⟨"arg2 want number", by simp [lLoadRom, hfirst, hsecond, ha, hb]⟩
      | some n => exact absurd h (by simp [loadArgs, ha, hb])
  · exact ⟨"load_rom: not enough arguments", by simp [lLoadRom, hlen]⟩

/-- The arguments are a name and a size: a string below a number, and nothing else on the stack. -/
lemma loadArgs_eq_some {name : String} (h : loadArgs env f = some (name, x)) : ∃ arg2 arg1 s,
    f.stack = [arg2, arg1] ∧ (arg2.asNumber env).isSome = true ∧ arg1.asString env = some s ∧
      cstring s = name ∧ (arg2.asInteger env).getD 0 = x := by
  unfold loadArgs at h
  split at h
  · next arg2 arg1 hstack =>
    split_ifs at h with hnumber
    obtain ⟨s, hs, heq⟩ := Option.map_eq_some_iff.1 h
    obtain ⟨hname, hsize⟩ := Prod.mk.inj heq
    exact ⟨arg2, arg1, s, hstack, hnumber, hs, hname, hsize⟩
  · exact nomatch h

/-- The file is read into the buffer that has just been created. -/
lemma run_freadBuffer (m : Machine σ) (stack : List (LuaValue φ)) (name : String) (size : ℤ) :
    (freadBuffer name size file).run ⟨stack, m.createBuffer name size.toNat⟩ =
      some (min size.toNat file.length, ⟨stack, loaded name size.toNat file m⟩) := by
  have hbuf := (registers_createBuffer m name size.toNat).getBuffer_self
  simp only [freadBuffer, StateT.run_bind, run_getWorld, Option.bind_eq_bind, Option.bind_some,
    hbuf, run_modifyWorld]
  rfl

/-- The buffer stays, whether the file was long enough or not. -/
lemma run_loadOpened (name : String) (size : ℤ) :
    (loadOpened name size file).run f =
      if size < 0 then none
      else some (if size.toNat ≤ file.length then .ok 0
        else .error (.string "file is too short!"),
        { f with world := loaded name size.toNat file f.world }) := by
  unfold loadOpened createBufferInt
  by_cases hneg : size < 0
  · rw [if_pos hneg, if_pos hneg]
    rfl
  · rw [if_neg hneg, if_neg hneg, StateT.run_bind, run_modifyWorld, Option.bind_eq_bind,
      Option.bind_some, StateT.run_bind, run_freadBuffer, Option.bind_eq_bind, Option.bind_some]
    have hread : ((min size.toNat file.length : ℕ) : ℤ) = size ↔ size.toNat ≤ file.length := by
      omega
    dsimp only
    by_cases hlen : size.toNat ≤ file.length
    · rw [if_neg (not_not_intro (hread.2 hlen)), if_pos hlen]
      rfl
    · rw [if_pos (mt hread.1 hlen), if_neg hlen]
      rfl

/-- Good arguments: the file is opened and what follows is done. -/
lemma run_lLoadRom_of_some (fopen : String → Except String (List Byte)) {name : String}
    (h : loadArgs env f = some (name, x)) :
    ∃ stack, (lLoadRom env fopen).run f = match fopen name with
      | .error msg => some (.error (.string msg), ⟨stack, f.world⟩)
      | .ok file => (loadOpened name (intOfLua x) file).run ⟨stack, f.world⟩ := by
  obtain ⟨arg2, arg1, s, hstack, hnumber, hs, rfl, rfl⟩ := loadArgs_eq_some h
  obtain ⟨stack, m⟩ := f
  obtain rfl : stack = [arg2, arg1] := hstack
  have hfirst : valueAt [arg2, arg1] 1 = some arg1 := rfl
  have hsecond : ∀ arg1, valueAt [arg2, arg1] 2 = some arg2 := fun _ => rfl
  have hname : (tostring env 1).run ⟨[arg2, arg1], m⟩ =
      some (some s, ⟨[arg2, arg1.convert env], m⟩) := by
    rw [← hs]
    rfl
  refine ⟨[arg2, arg1.convert env], ?_⟩
  cases hopen : fopen (cstring s) with
  | error msg => simp [lLoadRom, hfirst, hsecond, hs, hnumber, hname, hopen]
  | ok file => simp [lLoadRom, hfirst, hsecond, hs, hnumber, hname, hopen]

/-! ## When the call keeps its promise -/

/-- A call that raises an error leaves all names as they were. A call that succeeds gives the name
it was called with the bytes it was asked for, and leaves all others as they were. -/
def LoadsOrKeeps (env : LuaEnv φ (Machine σ)) (fopen : String → Except String (List Byte))
    (f : LuaFrame φ (Machine σ)) : Prop :=
  ∃ r f', (lLoadRom env fopen).run f = some (r, f') ∧
    match r with
    | .error _ => ∀ name, SameBuffer f.world f'.world name
    | .ok _ => ∃ name x file, loadArgs env f = some (name, x) ∧ fopen name = .ok file ∧
        HoldsFile f'.world name x.toNat file ∧
          ∀ other, other ≠ name → SameBuffer f.world f'.world other

/-- A Lua integer below `0x80000000` is the same as a C integer. -/
lemma intOfLua_of_lt (h : x.toNat < 0x80000000) : intOfLua x = x.toNat := by
  rw [intOfLua, BitVec.toInt_eq_toNat_of_lt, BitVec.toNat_setWidth, Nat.mod_eq_of_lt (by omega)]
  rw [BitVec.toNat_setWidth]
  omega

/-- A size taken from Lua is below `0x80000000`. -/
lemma toNat_intOfLua_lt (x : LuaInt) : (intOfLua x).toNat < 0x80000000 := by
  have hlt := (x.setWidth 32).toInt_lt
  change (x.setWidth 32).toInt.toNat < 0x80000000
  omega

/-- Once the file has been opened, the call keeps its promise exactly if the size fits an `int` that
is not negative and the file is that long. -/
lemma loadsOrKeeps_opened {name : String} (hargs : loadArgs env f = some (name, x))
    (hopen : fopen name = .ok file) :
    LoadsOrKeeps env fopen f ↔ x.toNat < 0x80000000 ∧ x.toNat ≤ file.length := by
  obtain ⟨stack, hrun⟩ := run_lLoadRom_of_some fopen hargs
  rw [hopen] at hrun
  dsimp only at hrun
  rw [run_loadOpened] at hrun
  constructor
  · rintro ⟨r, f', hr, hkept⟩
    rw [hr] at hrun
    split_ifs at hrun with hneg hlen
    · obtain ⟨rfl, rfl⟩ := Prod.mk.inj (Option.some.inj hrun)
      obtain ⟨name', x', file', hargs', hopen', ⟨b, hb, hsize, -⟩, -⟩ := hkept
      obtain ⟨rfl, rfl⟩ := Prod.mk.inj (Option.some.inj (hargs'.symm.trans hargs))
      obtain rfl := Option.some.inj (hb.symm.trans (registers_loaded _ _ _ _).getBuffer_self)
      rw [heap_loaded, Function.update_self] at hsize
      have hlt := toNat_intOfLua_lt x'
      rw [← hsize]
      exact ⟨hlt, hlen⟩
    · obtain ⟨rfl, rfl⟩ := Prod.mk.inj (Option.some.inj hrun)
      exact absurd (hkept name) (registers_loaded _ _ _ _).not_sameBuffer
  · rintro ⟨hlt, hlen⟩
    rw [intOfLua_of_lt hlt, if_neg (by omega), Int.toNat_natCast, if_pos hlen] at hrun
    exact ⟨_, _, hrun, name, x, file, hargs, hopen, holdsFile_loaded name hlen _,
      fun other hne => (registers_loaded _ _ _ _).sameBuffer hne⟩

/-- The call keeps its promise exactly if its arguments are bad, the file cannot be opened, or the
size fits an `int` that is not negative and the file is that long. -/
theorem loadsOrKeeps_iff (env : LuaEnv φ (Machine σ))
    (fopen : String → Except String (List Byte)) (f : LuaFrame φ (Machine σ)) :
    LoadsOrKeeps env fopen f ↔ ∀ name x file, loadArgs env f = some (name, x) →
      fopen name = .ok file → x.toNat < 0x80000000 ∧ x.toNat ≤ file.length := by
  cases hargs : loadArgs env f with
  | none =>
    refine iff_of_true ?_ fun name x file h => nomatch h
    obtain ⟨msg, hrun⟩ := run_lLoadRom_of_none fopen hargs
    exact ⟨_, _, hrun, fun name => .refl f.world name⟩
  | some y =>
    obtain ⟨name, x⟩ := y
    cases hopen : fopen name with
    | error msg =>
      obtain ⟨stack, hrun⟩ := run_lLoadRom_of_some fopen hargs
      rw [hopen] at hrun
      refine iff_of_true ⟨_, _, hrun, fun name => .refl f.world name⟩ ?_
      intro name' x' file h hfile
      obtain ⟨rfl, rfl⟩ := Prod.mk.inj (Option.some.inj h)
      exact nomatch hopen.symm.trans hfile
    | ok file =>
      rw [loadsOrKeeps_opened hargs hopen]
      constructor
      · intro hfits name' x' file' h hfile
        obtain ⟨rfl, rfl⟩ := Prod.mk.inj (Option.some.inj h)
        obtain rfl := Except.ok.inj (hopen.symm.trans hfile)
        exact hfits
      · intro hall
        exact hall name x file rfl hopen

/-- Two bytes of a file of one byte are asked for, under a name that is in use. The error is raised,
and the name stands for the new buffer. -/
theorem load_rom_short_file : ¬∀ (φ σ : Type) (env : LuaEnv φ (Machine σ))
    (fopen : String → Except String (List Byte)) (f : LuaFrame φ (Machine σ)),
    (∀ name x, loadArgs env f = some (name, x) → 0 ≤ x.toInt) → LoadsOrKeeps env fopen f := by
  intro hall
  let m := (static () fun _ => default).createBuffer "rom" 256
  let f : LuaFrame Empty (Machine Unit) := ⟨[.number (.inl 2), .string "rom"], m⟩
  have hargs : loadArgs default f = some ("rom", 2) := by decide +kernel
  have hkept := hall Empty Unit default (fun _ => .ok [0xaa]) f fun name x h => by
    obtain ⟨-, rfl⟩ := Prod.mk.inj (Option.some.inj (hargs.symm.trans h))
    decide
  exact absurd ((loadsOrKeeps_opened hargs rfl).1 hkept).2 (by decide)

end Machine

end Emu51

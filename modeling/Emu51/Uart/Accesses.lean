import Emu51.Machine.System

/-!
# Register accesses in single steps

`ramd_get` and `ramd_put` hold the UART's mutex for one access to `SCON` or `SBUF` at a time, and
the write to `SBUF` reads `SCON` without it. Between two such accesses the listener can run. This
file takes `readd` and `writed` apart into these accesses, hooks included, and shows that without a
listener in between nothing has changed.
-/

namespace Emu51

variable {σ : Type}

/-! ## Accesses -/

/-- What is done in one step: an access to a cell, or code that has nothing to do with the
listener. -/
inductive Access (σ : Type) where
  | cpu (o : CpuOp)
  | lua (o : LuaOp σ)
  | trapped (a : Byte)
  | load (a : Byte)
  | store (a v : Byte)
  | transmit (v : Byte)
  | refreshPsw
  | window
  | mapDptr (l : DplPtr) (h : DphPtr)
  | notify (a : Byte)
  | fail

/-- What the steps return. -/
@[reducible] def Access.Res : Access σ → Type
  | .cpu o => o.Res
  | .lua o => o.Res
  | .trapped _ => Bool
  | .load _ => Byte
  | .store _ _ => Unit
  | .transmit _ => Unit
  | .refreshPsw => Unit
  | .window => Unit
  | .mapDptr _ _ => Unit
  | .notify _ => Unit
  | .fail => Empty

/-- Code that is executed access by access. -/
abbrev Accesses (σ α : Type) := Prog (Access σ) Access.Res α

namespace Machine

/-- What the steps do. Nothing in a step of Lua is an access to a register. -/
def accessExec (script : Script σ) : Prog.Handler (Access σ) Access.Res (Machine σ)
  | .cpu o, m => cpuExec script o m
  | .lua o, m => luaExec (busAt script 0) o m
  | .trapped a, m => some (m.ramsfrtrap a, m)
  | .load a, m => some (m.sfr a, m)
  | .store a v, m => some ((), m.setSfr a v)
  | .transmit v, m => some ((), m.transmit v)
  | .refreshPsw, m => some ((), m.refreshPsw)
  | .window, m => some ((), m.setReg (regBase (m.sfr PSW)))
  | .mapDptr l h, m => some ((), m.mapDptr l h)
  | .notify a, m => some ((), m.sfrNotify a)
  | .fail, _ => none

end Machine

namespace Accesses

def lua (o : LuaOp σ) : Accesses σ o.Res := .node (.lua o) .done

def trapped (a : Byte) : Accesses σ Bool := .node (.trapped a) .done

def load (a : Byte) : Accesses σ Byte := .node (.load a) .done

def store (a v : Byte) : Accesses σ Unit := .node (.store a v) .done

def transmit (v : Byte) : Accesses σ Unit := .node (.transmit v) .done

def refreshPsw : Accesses σ Unit := .node .refreshPsw .done

def window : Accesses σ Unit := .node .window .done

def mapDptr (l : DplPtr) (h : DphPtr) : Accesses σ Unit := .node (.mapDptr l h) .done

def notify (a : Byte) : Accesses σ Unit := .node (.notify a) .done

def fail {α : Type} : Accesses σ α := .node .fail fun e => nomatch e

section Rules

variable {script : Script σ} {m : Machine σ}

open Machine

@[simp] lemma run_lua (o : LuaOp σ) :
    (lua o).run (accessExec script) m = luaExec (busAt script 0) o m := Prog.run_op _ _

@[simp] lemma run_trapped (a : Byte) :
    (trapped a).run (accessExec script) m = some (m.ramsfrtrap a, m) := rfl

@[simp] lemma run_load (a : Byte) :
    (load a).run (accessExec script) m = some (m.sfr a, m) := rfl

@[simp] lemma run_store (a v : Byte) :
    (store a v).run (accessExec script) m = some ((), m.setSfr a v) := rfl

@[simp] lemma run_transmit (v : Byte) :
    (transmit v).run (accessExec script) m = some ((), m.transmit v) := rfl

@[simp] lemma run_refreshPsw :
    refreshPsw.run (accessExec script) m = some ((), m.refreshPsw) := rfl

@[simp] lemma run_window :
    window.run (accessExec script) m = some ((), m.setReg (regBase (m.sfr PSW))) := rfl

@[simp] lemma run_mapDptr (l : DplPtr) (h : DphPtr) :
    (mapDptr l h).run (accessExec script) m = some ((), m.mapDptr l h) := rfl

@[simp] lemma run_notify (a : Byte) :
    (notify a).run (accessExec script) m = some ((), m.sfrNotify a) := rfl

end Rules

end Accesses

/-- The accessors hooks see, taken apart. -/
structure AccessBus (σ : Type) where
  get : Byte → Accesses σ Byte
  put : Byte → Byte → Accesses σ Unit

open Accesses

/-! ## Functions taken apart -/

/-- The functions of `emu_lib`. -/
def luaSteps (bus : AccessBus σ) : (o : LuaOp σ) → Accesses σ o.Res
  | .peekSfr addr => bus.get (byteOfLua addr) >>= fun v => .done (luaOfByte v)
  | .pokeSfr addr v => bus.put (byteOfLua addr) (byteOfLua v)
  | .peekXram addr => lua (.peekXram addr)
  | .pokeXram addr v => lua (.pokeXram addr v)
  | .peekRom addr => lua (.peekRom addr)
  | .pokePcx v => lua (.pokePcx v)
  | .makeRam name size => lua (.makeRam name size)
  | .mapRom name start len ofs => lua (.mapRom name start len ofs)
  | .mapXram name start len ofs readonly => lua (.mapXram name start len ofs readonly)
  | .get => lua .get
  | .set g => lua (.set g)
  | .error => lua .error

/-- `ramd_hook`. -/
def hookSteps (script : Script σ) (bus : AccessBus σ) (write : Bool) (a : Byte) :
    Accesses σ Unit := do
  let g ← lua .get
  match script.ramdHooks g a with
  | none => .done ()
  | some hook =>
      let data ← load a
      let result ← (hook write (luaOfByte data)).expand (luaSteps bus)
      store a (byteOfLua result)

/-- `ramd_get`. -/
def ramdGetSteps (script : Script σ) (bus : AccessBus σ) (a : Byte) : Accesses σ Byte :=
  if a = SCON ∨ a = SBUF then load a
  else do
    hookSteps script bus false a
    load a

/-- `default_ramd_get`. -/
def defaultRamdGetSteps (script : Script σ) (bus : AccessBus σ) (a : Byte) : Accesses σ Byte :=
  (if a = PSW then refreshPsw else .done ()) >>= fun _ => ramdGetSteps script bus a

/-- `readd`. -/
def readdSteps (script : Script σ) (bus : AccessBus σ) (a : Byte) : Accesses σ Byte := do
  let trap ← trapped a
  if trap then defaultRamdGetSteps script bus a else load a

/-- `writed` on `SCON`. -/
def pokeSconSteps (v : Byte) : Accesses σ Unit := do
  let trap ← trapped SCON
  store SCON v
  if trap then notify SCON else .done ()

/-- `ramd_put`. -/
def ramdPutSteps (script : Script σ) (bus : AccessBus σ) (a v : Byte) : Accesses σ Unit :=
  if a = DPS then do
    store DPS (v &&& 1)
    if v &&& 1 ≠ 0 then mapDptr ⟨DPL1, isDpl1⟩ ⟨DPH1, isDph1⟩
    else mapDptr ⟨DPL0, isDpl0⟩ ⟨DPH0, isDph0⟩
  else if a = SCON then store SCON v
  else if a = SBUF then do
    transmit v
    store SBUF v
    let scon ← load SCON
    pokeSconSteps (scon ||| SCON_TI)
  else do
    store a v
    hookSteps script bus true a

/-- The part of `default_ramd_put` after `ramd_put`. -/
def afterRamdPutSteps (a : Byte) : Accesses σ Unit :=
  (if a = PSW then window else .done ()) >>= fun _ => notify a

/-- `writed`. -/
def writedSteps (script : Script σ) (bus : AccessBus σ) (a v : Byte) : Accesses σ Unit := do
  let trap ← trapped a
  if trap then do
    ramdPutSteps script bus a v
    afterRamdPutSteps a
  else store a v

/-- The accessors available to a hook when `n` more levels of nesting are left. -/
def accessBusAt (script : Script σ) : ℕ → AccessBus σ
  | 0 => { get := fun _ => fail, put := fun _ _ => fail }
  | n + 1 =>
      { get := readdSteps script (accessBusAt script n)
        put := writedSteps script (accessBusAt script n) }

/-- The operations of instructions. -/
def cpuSteps (script : Script σ) : (o : CpuOp) → Accesses σ o.Res
  | .readd a => readdSteps script (accessBusAt script script.ccalls) a
  | .writed a v => writedSteps script (accessBusAt script script.ccalls) a v
  | .fetch ofs => .node (.cpu (.fetch ofs)) .done
  | .readc addr => .node (.cpu (.readc addr)) .done
  | .readx addr => .node (.cpu (.readx addr)) .done
  | .writex addr v => .node (.cpu (.writex addr v)) .done
  | .xramP2addr => .node (.cpu .xramP2addr) .done
  | .readi addr => .node (.cpu (.readi addr)) .done
  | .writei addr v => .node (.cpu (.writei addr v)) .done
  | .getRx n => .node (.cpu (.getRx n)) .done
  | .setRx n v => .node (.cpu (.setRx n v)) .done
  | .get r => .node (.cpu (.get r)) .done
  | .set r v => .node (.cpu (.set r v)) .done
  | .getDptr => .node (.cpu .getDptr) .done
  | .setDph v => .node (.cpu (.setDph v)) .done
  | .setDpl v => .node (.cpu (.setDpl v)) .done
  | .getPc => .node (.cpu .getPc) .done
  | .setPc w => .node (.cpu (.setPc w)) .done
  | .irqlevelReti => .node (.cpu .irqlevelReti) .done
  | .setBreakpoint mask val => .node (.cpu (.setBreakpoint mask val)) .done

/-- The code behind an opcode, access by access. -/
def insnSteps (script : Script σ) (op : Byte) : Accesses σ Unit :=
  (insn op).expand (cpuSteps script)

/-! ## Without a listener nothing has changed -/

namespace Machine

variable {script : Script σ} {bus : Bus σ} {steps : AccessBus σ}

/-- The two kinds of accessors do the same. -/
structure SameBus (script : Script σ) (steps : AccessBus σ) (bus : Bus σ) : Prop where
  get : ∀ a m, (steps.get a).run (accessExec script) m = bus.get a m
  put : ∀ a v m, (steps.put a v).run (accessExec script) m =
    (bus.put a v m).map fun m' => ((), m')

/-- The accesses of a step of a hook, one after the other, do what the step does. -/
lemma run_luaSteps (h : SameBus script steps bus) (o : LuaOp σ) (m : Machine σ) :
    (luaSteps steps o).run (accessExec script) m = luaExec bus o m := by
  cases o with
  | peekSfr addr =>
    have hget := h.get (byteOfLua addr) m
    rw [luaSteps, Prog.run_bind, hget, luaExec]
    cases bus.get (byteOfLua addr) m with
    | none => rfl
    | some y => rfl
  | pokeSfr addr v => exact h.put _ _ m
  | _ => exact run_lua _

/-- The accesses of a hook do what the hook does. -/
lemma run_hookSteps (h : SameBus script steps bus) (write : Bool) (a : Byte) (m : Machine σ) :
    (hookSteps script steps write a).run (accessExec script) m =
      (ramdHook script bus write a m).map fun m' => ((), m') := by
  unfold hookSteps ramdHook
  rw [Prog.run_bind, run_lua, luaExec, Option.bind_some]
  cases script.ramdHooks m.lua a with
  | none => rfl
  | some hook =>
    have hrun := Prog.run_expand (run_luaSteps h) (hook write (luaOfByte (m.sfr a))) m
    simp only [Prog.run_bind, run_load, Option.bind_some, hrun]
    cases (hook write (luaOfByte (m.sfr a))).run (luaExec bus) m with
    | none => rfl
    | some y => rfl

/-- The accesses of `ramd_get` do what `ramd_get` does. -/
lemma run_ramdGetSteps (h : SameBus script steps bus) (a : Byte) (m : Machine σ) :
    (ramdGetSteps script steps a).run (accessExec script) m = ramdGet script bus a m := by
  unfold ramdGetSteps ramdGet
  by_cases hscon : a = SCON
  · subst hscon
    rfl
  · by_cases hsbuf : a = SBUF
    · subst hsbuf
      rfl
    · rw [if_neg (not_or.2 ⟨hscon, hsbuf⟩), if_neg hscon, if_neg hsbuf, Prog.run_bind,
        run_hookSteps h]
      cases ramdHook script bus false a m with
      | none => rfl
      | some m' => rfl

/-- The accesses of `readd` do what `readd` does. -/
lemma run_readdSteps (h : SameBus script steps bus) (a : Byte) (m : Machine σ) :
    (readdSteps script steps a).run (accessExec script) m = readdVia script bus a m := by
  unfold readdSteps readdVia
  rw [Prog.run_bind, run_trapped, Option.bind_some]
  dsimp only
  split_ifs
  · unfold defaultRamdGetSteps defaultRamdGet
    rw [Prog.run_bind]
    split_ifs
    · rw [run_refreshPsw, Option.bind_some, run_ramdGetSteps h]
    · rw [Prog.run_done, Option.bind_some, run_ramdGetSteps h]
  · rfl

/-- The accesses of `poke_sfr` on `SCON` do what it does. -/
lemma run_pokeSconSteps (v : Byte) (m : Machine σ) :
    (pokeSconSteps v).run (accessExec script) m = some ((), pokeScon v m) := by
  unfold pokeSconSteps pokeScon
  rw [Prog.run_bind, run_trapped, Option.bind_some]
  by_cases htrap : m.ramsfrtrap SCON = true
  · rw [htrap, if_pos rfl]
    rfl
  · rw [Bool.not_eq_true] at htrap
    rw [htrap, if_neg Bool.false_ne_true]
    rfl

/-- The accesses of `ramd_put` do what `ramd_put` does. -/
lemma run_ramdPutSteps (h : SameBus script steps bus) (a v : Byte) (m : Machine σ) :
    (ramdPutSteps script steps a v).run (accessExec script) m =
      (ramdPut script bus a v m).map fun m' => ((), m') := by
  unfold ramdPutSteps ramdPut
  dsimp only
  split_ifs
  · rfl
  · rfl
  · rfl
  · simp only [Prog.run_bind, run_transmit, run_store, run_load, Option.bind_some,
      run_pokeSconSteps, Option.map_some]
  · rw [Prog.run_bind, run_store, Option.bind_some, run_hookSteps h]

/-- The accesses that follow `ramd_put` do what `default_ramd_put` does then. -/
lemma run_afterRamdPutSteps (a : Byte) (m : Machine σ) :
    (afterRamdPutSteps a).run (accessExec script) m = some ((), afterRamdPut a m) := by
  unfold afterRamdPutSteps afterRamdPut
  split_ifs
  · rfl
  · rfl

/-- The accesses of `writed` do what `writed` does. -/
lemma run_writedSteps (h : SameBus script steps bus) (a v : Byte) (m : Machine σ) :
    (writedSteps script steps a v).run (accessExec script) m =
      (writedVia script bus a v m).map fun m' => ((), m') := by
  unfold writedSteps writedVia
  rw [Prog.run_bind, run_trapped, Option.bind_some]
  dsimp only
  split_ifs
  · rw [Prog.run_bind, run_ramdPutSteps h, defaultRamdPut]
    cases ramdPut script bus a v m with
    | none => rfl
    | some m₁ => exact run_afterRamdPutSteps a m₁
  · rfl

/-- The accessors offered to hooks correspond at every depth, by induction over the nesting. -/
lemma accessBusAt_same (script : Script σ) (n : ℕ) :
    SameBus script (accessBusAt script n) (busAt script n) := by
  induction n with
  | zero => exact ⟨fun _ _ => rfl, fun _ _ _ => rfl⟩
  | succ n ih => exact ⟨run_readdSteps ih, run_writedSteps ih⟩

/-- So the accesses of every operation of the CPU do what the operation does. -/
lemma run_cpuSteps (o : CpuOp) (m : Machine σ) :
    (cpuSteps script o).run (accessExec script) m = cpuExec script o m := by
  cases o with
  | readd a => exact run_readdSteps (accessBusAt_same script _) a m
  | writed a v => exact run_writedSteps (accessBusAt_same script _) a v m
  | _ => rfl

/-- An instruction executed access by access does what it does in one step. -/
theorem run_insnSteps (script : Script σ) (op : Byte) (m : Machine σ) :
    (insnSteps script op).run (accessExec script) m = (insn op).run (cpuExec script) m :=
  Prog.run_expand run_cpuSteps (insn op) m

end Machine

end Emu51

import Emu51.Machine.Outside
import Emu51.Uart.Accesses

/-!
# Contracts of hooks

A hook may do the right thing only as long as the globals it reads are as the other hooks leave
them. So what a hook demands of the functions of `emu_lib` is a contract: as long as the answers
meet `R`, the calls meet `Q`. If all hooks that may be called meet it, then so does an access to a
register, taken apart into single steps, however hooks are nested in it.
-/

namespace Emu51

variable {σ : Type}

/-- The answers that may be relied on are those of `emu_lib`. -/
def Access.Rely (R : (o : LuaOp σ) → o.Res → Prop) : (o : Access σ) → o.Res → Prop
  | .lua o, r => R o r
  | _, _ => True

/-- The demand is one on the calls of `emu_lib`. No instruction is executed. -/
def Access.Demand (Q : LuaOp σ → Prop) : Access σ → Prop
  | .lua o => Q o
  | .cpu _ => False
  | _ => True

/-- The contract of a register access. -/
abbrev Accesses.Meets {α : Type} (R : (o : LuaOp σ) → o.Res → Prop) (Q : LuaOp σ → Prop)
    (p : Accesses σ α) : Prop :=
  p.Contract (Access.Rely R) (Access.Demand Q) fun _ => True

/-- The contract of the hooks, where `ok` says which registers may be written. Nothing is relied on
in the answers of the registers. -/
structure HookContract (script : Script σ) (ok : Byte → Prop) (R : (o : LuaOp σ) → o.Res → Prop)
    (Q : LuaOp σ → Prop) : Prop where
  get : Q .get
  peeked : ∀ addr v, R (.peekSfr addr) v
  poked : ∀ addr v u, R (.pokeSfr addr v) u
  hooks : ∀ g a hook, script.ramdHooks g a = some hook → ∀ w (v : Byte), (w = true → ok a) →
    (hook w (luaOfByte v)).Contract R (fun o => Q o ∧ o.PokesOnly fun a _ => ok a) fun _ => True

/-- The accessors offered to hooks meet the contract. -/
structure BusMeets (ok : Byte → Prop) (R : (o : LuaOp σ) → o.Res → Prop) (Q : LuaOp σ → Prop)
    (bus : AccessBus σ) : Prop where
  get : ∀ a, (bus.get a).Meets R Q
  put : ∀ a v, ok a → (bus.put a v).Meets R Q

variable {script : Script σ} {ok : Byte → Prop} {R : (o : LuaOp σ) → o.Res → Prop}
  {Q : LuaOp σ → Prop} {bus : AccessBus σ}

open Accesses

/-! ## Parts of an access -/

/-- A call of `emu_lib` that is allowed fulfils the contract, with the hooks it may cause. -/
lemma luaSteps_contract (hs : HookContract script ok R Q) (hbus : BusMeets ok R Q bus) (o : LuaOp σ)
    (ho : Q o ∧ o.PokesOnly fun a _ => ok a) :
    (luaSteps bus o).Contract (Access.Rely R) (Access.Demand Q) (R o) := by
  cases o with
  | peekSfr addr => exact (hbus.get _).bind fun v _ => hs.peeked addr (luaOfByte v)
  | pokeSfr addr v => exact (hbus.put _ _ ho.2).mono (fun _ h => h) fun u _ => hs.poked addr v u
  | _ => exact ⟨ho.1, fun _ hr => hr⟩

/-- The call of a hook fulfils a contract if the hooks of the register do. -/
lemma hookSteps_contract {D : LuaOp σ → Prop} {w : Bool} {a : Byte} (hget : Q .get)
    (hhook : ∀ g hook, script.ramdHooks g a = some hook → ∀ v : Byte,
      (hook w (luaOfByte v)).Contract R D fun _ => True)
    (hcalls : ∀ o, D o → (luaSteps bus o).Contract (Access.Rely R) (Access.Demand Q) (R o)) :
    (hookSteps script bus w a).Meets R Q := by
  unfold hookSteps
  refine Prog.Contract.bind (P := fun _ => True) ⟨hget, fun _ _ => trivial⟩ fun g _ => ?_
  cases hfound : script.ramdHooks g a with
  | none => trivial
  | some hook =>
    refine ⟨trivial, fun data _ => ?_⟩
    exact ((hhook g hook hfound data).expand hcalls).bind fun _ _ => ⟨trivial, fun _ _ => trivial⟩

/-- A write is a call of the hook, and steps that ask nothing of `emu_lib`. -/
lemma writedSteps_contract {a v : Byte} (hhook : (hookSteps script bus true a).Meets R Q) :
    (writedSteps script bus a v).Meets R Q := by
  have hscon : ∀ v, (pokeSconSteps v : Accesses σ Unit).Meets R Q := by
    intro v
    refine ⟨trivial, fun trap _ => ⟨trivial, fun _ _ =>
      Prog.contract_ite.2 ⟨fun _ => ?_, fun _ => ?_⟩⟩⟩
    · exact ⟨trivial, fun _ _ => trivial⟩
    · trivial
  have hput : (ramdPutSteps script bus a v).Meets R Q := by
    unfold ramdPutSteps
    split_ifs
    · exact ⟨trivial, fun _ _ => ⟨trivial, fun _ _ => trivial⟩⟩
    · exact ⟨trivial, fun _ _ => ⟨trivial, fun _ _ => trivial⟩⟩
    · exact ⟨trivial, fun _ _ => trivial⟩
    · exact ⟨trivial, fun _ _ => ⟨trivial, fun _ _ => ⟨trivial, fun _ _ => hscon _⟩⟩⟩
    · exact ⟨trivial, fun _ _ => hhook⟩
  have hafter : (afterRamdPutSteps a : Accesses σ Unit).Meets R Q := by
    unfold afterRamdPutSteps
    split_ifs
    · exact ⟨trivial, fun _ _ => ⟨trivial, fun _ _ => trivial⟩⟩
    · exact ⟨trivial, fun _ _ => trivial⟩
  refine ⟨trivial, fun trap _ => Prog.contract_ite.2 ⟨fun _ => ?_, fun _ => ?_⟩⟩
  · exact hput.bind fun _ _ => hafter
  · exact ⟨trivial, fun _ _ => trivial⟩

/-- And so does a read, whose only code besides the accesses is its hook. -/
lemma readdSteps_contract {a : Byte} (hhook : (hookSteps script bus false a).Meets R Q) :
    (readdSteps script bus a).Meets R Q := by
  have hload : (load a : Accesses σ Byte).Meets R Q := ⟨trivial, fun _ _ => trivial⟩
  have hget : (ramdGetSteps script bus a).Meets R Q := by
    unfold ramdGetSteps
    split_ifs
    · exact hload
    · exact hhook.bind fun _ _ => hload
  refine ⟨trivial, fun trap _ => Prog.contract_ite.2 ⟨fun _ => ?_, fun _ => hload⟩⟩
  unfold defaultRamdGetSteps
  split_ifs
  · exact ⟨trivial, fun _ _ => hget⟩
  · exact hget

/-! ## Whole accesses -/

/-- So do the accessors offered to hooks, by induction over the nesting. -/
theorem accessBusAt_contract (hs : HookContract script ok R Q) (n : ℕ) :
    BusMeets ok R Q (accessBusAt script n) := by
  induction n with
  | zero => exact ⟨fun _ => ⟨trivial, fun e => nomatch e⟩, fun _ _ _ =>
    ⟨trivial, fun e => nomatch e⟩⟩
  | succ n ih =>
    constructor
    · intro a
      refine readdSteps_contract (hookSteps_contract hs.get (fun g hook hk v => ?_)
        (luaSteps_contract hs ih))
      exact hs.hooks g a hook hk false v fun hw => absurd hw Bool.false_ne_true
    · intro a v ha
      refine writedSteps_contract (hookSteps_contract hs.get (fun g hook hk v => ?_)
        (luaSteps_contract hs ih))
      exact hs.hooks g a hook hk true v fun _ => ha

/-- A write to a register whose hook looks at no other. -/
lemma writedSteps_of_offSfr {a v : Byte} (hget : Q .get)
    (hhook : ∀ g hook, script.ramdHooks g a = some hook → ∀ v : Byte,
      (hook true (luaOfByte v)).Contract R (fun o => Q o ∧ o.OffSfr) fun _ => True) :
    (writedSteps script bus a v).Meets R Q := by
  refine writedSteps_contract (hookSteps_contract hget hhook fun o ho => ?_)
  cases o with
  | peekSfr addr => exact absurd ho.2 id
  | pokeSfr addr v => exact absurd ho.2 id
  | _ => exact ⟨ho.1, fun _ hr => hr⟩

namespace Machine

/-- An invariant of the globals and of what lies outside the CPU that the calls keep, and under
which their answers may be relied on. -/
lemma accessExec_contract {I : Machine σ → Prop}
    (hI : ∀ m m', SameOutside m m' → m'.lua = m.lua → I m → I m')
    (hlua : ∀ (o : LuaOp σ) m y, Q o → I m → luaExec (busAt script 0) o m = some y →
      R o y.1 ∧ I y.2)
    (o : Access σ) (m : Machine σ) (r : o.Res) (m' : Machine σ) (ho : Access.Demand Q o) (hm : I m)
    (h : accessExec script o m = some (r, m')) : Access.Rely R o r ∧ I m' := by
  cases o with
  | cpu o => exact absurd ho id
  | lua o => exact hlua o m (r, m') ho hm h
  | fail => exact absurd h (Option.some_ne_none _).symm
  | notify a =>
    obtain ⟨-, rfl⟩ := Prod.mk.inj (Option.some.inj h)
    obtain ⟨l0, l1, hl⟩ := m.sfrNotify_eq a
    refine ⟨trivial, hI m _ ?_ ?_ hm⟩
    · rw [hl]
      constructor <;> rfl
    · rw [hl]
      rfl
  | _ =>
    obtain ⟨-, rfl⟩ := Prod.mk.inj (Option.some.inj h)
    refine ⟨trivial, hI m _ ?_ rfl hm⟩
    constructor <;> rfl

end Machine

end Emu51

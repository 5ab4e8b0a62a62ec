import Emu51.Machine.Sfr

/-!
# Register accesses do not depend on `pc`

No hook and no register can see where the program is: `readd` and `writed` do the same thing
whatever `pc` is, and leave it as it was.
-/

namespace Emu51

namespace Machine

variable {σ : Type} {script : Script σ} {bus : Bus σ}

/-- The accessors do the same whatever `pc` is. -/
structure IgnoresPc (bus : Bus σ) : Prop where
  get : ∀ a m w, bus.get a (m.setPc w) = (bus.get a m).map fun y => (y.1, y.2.setPc w)
  put : ∀ a v m w, bus.put a v (m.setPc w) = (bus.put a v m).map fun m' => m'.setPc w

/-- A write to external data memory does not depend on `pc`. -/
lemma writex_setPc (m : Machine σ) (a : Word) (v : Byte) (w : Word) :
    (m.setPc w).writex a v = (m.writex a v).setPc w := by
  simp only [writex, setPc_xramfnwr, setPc_xrampage]
  split
  · rfl
  · split
    · rfl
    · rfl

/-- A step of a hook does not depend on `pc`. -/
lemma luaExec_setPc (hbus : IgnoresPc bus) (o : LuaOp σ) (m : Machine σ) (w : Word) :
    luaExec bus o (m.setPc w) = (luaExec bus o m).map fun y => (y.1, y.2.setPc w) := by
  cases o with
  | peekSfr a =>
    rw [luaExec, luaExec, hbus.get, Option.map_map, Option.map_map]
    rfl
  | pokeSfr a v =>
    rw [luaExec, luaExec, hbus.put, Option.map_map, Option.map_map]
    rfl
  | pokeXram a v => rw [luaExec, luaExec, writex_setPc, Option.map_some]
  | peekRom a =>
    rw [luaExec, luaExec, Option.map_map]
    rfl
  | mapRom name start len ofs =>
    rw [luaExec, luaExec, Option.map_map]
    rfl
  | mapXram name start len ofs readonly =>
    rw [luaExec, luaExec, Option.map_map]
    refine Option.map_congr fun b _ => ?_
    simp only [Function.comp_apply]
    split
    · rfl
    · rfl
  | peekXram a => rfl
  | pokePcx v => rfl
  | makeRam name size => rfl
  | get => rfl
  | set g => rfl
  | error => rfl

/-- A hook does not depend on `pc`. -/
lemma ramdHook_setPc (hbus : IgnoresPc bus) (write : Bool) (a : Byte) (m : Machine σ) (w : Word) :
    ramdHook script bus write a (m.setPc w) =
      (ramdHook script bus write a m).map fun m' => m'.setPc w := by
  unfold ramdHook
  rw [setPc_lua]
  cases script.ramdHooks m.lua a with
  | none => rfl
  | some hook =>
    dsimp only
    rw [show (m.setPc w).sfr a = m.sfr a from rfl,
      Prog.run_commute (f := fun m : Machine σ => m.setPc w) (fun o m => luaExec_setPc hbus o m w),
      Option.map_map, Option.map_map]
    rfl

/-- Updating the request of one interrupt does not depend on `pc`. -/
lemma sfrNotifyIrq_setPc (m : Machine σ) (idx : Fin 32) (w : Word) :
    (m.setPc w).sfrNotifyIrq idx = (m.sfrNotifyIrq idx).setPc w := by
  have hbit : ∀ b, (m.setPc w).sfrBitval b = m.sfrBitval b := by
    intro b
    cases b <;> rfl
  simp only [sfrNotifyIrq, hbit, setPc_irqs]
  split
  · split
    · rfl
    · rfl
  · rfl

/-- Calling the listeners of a register does not depend on `pc`. -/
lemma sfrNotify_setPc (m : Machine σ) (a : Byte) (w : Word) :
    (m.setPc w).sfrNotify a = (m.sfrNotify a).setPc w := by
  unfold sfrNotify
  rw [setPc_ramsfrnotifiers]
  generalize m.ramsfrnotifiers a = idxs
  induction idxs generalizing m with
  | nil => rfl
  | cons idx idxs ih => rw [List.foldl_cons, List.foldl_cons, sfrNotifyIrq_setPc, ih]

/-- What follows a write to a trapped register does not depend on `pc`. -/
lemma afterRamdPut_setPc (a : Byte) (m : Machine σ) (w : Word) :
    afterRamdPut a (m.setPc w) = (afterRamdPut a m).setPc w := by
  unfold afterRamdPut
  split
  · exact sfrNotify_setPc (m.setReg (regBase (m.sfr PSW))) a w
  · exact sfrNotify_setPc m a w

/-- `poke_sfr` on `SCON` does not depend on `pc`. -/
lemma pokeScon_setPc (v : Byte) (m : Machine σ) (w : Word) :
    pokeScon v (m.setPc w) = (pokeScon v m).setPc w := by
  unfold pokeScon
  rw [setPc_ramsfrtrap]
  split
  · exact afterRamdPut_setPc SCON (m.setSfr SCON v) w
  · rfl

/-- A read of a trapped register does not depend on `pc`. -/
lemma ramdGet_setPc (hbus : IgnoresPc bus) (a : Byte) (m : Machine σ) (w : Word) :
    ramdGet script bus a (m.setPc w) =
      (ramdGet script bus a m).map fun y => (y.1, y.2.setPc w) := by
  unfold ramdGet
  split
  · rfl
  · split
    · rfl
    · rw [ramdHook_setPc hbus, Option.map_map, Option.map_map]
      rfl

/-- A direct read does not depend on `pc`. -/
lemma readdVia_setPc (hbus : IgnoresPc bus) (a : Byte) (m : Machine σ) (w : Word) :
    readdVia script bus a (m.setPc w) =
      (readdVia script bus a m).map fun y => (y.1, y.2.setPc w) := by
  unfold readdVia defaultRamdGet
  rw [setPc_ramsfrtrap]
  split
  · split
    · exact ramdGet_setPc hbus a m.refreshPsw w
    · exact ramdGet_setPc hbus a m w
  · rfl

/-- A write to a trapped register does not depend on `pc`. -/
lemma ramdPut_setPc (hbus : IgnoresPc bus) (a v : Byte) (m : Machine σ) (w : Word) :
    ramdPut script bus a v (m.setPc w) =
      (ramdPut script bus a v m).map fun m' => m'.setPc w := by
  unfold ramdPut
  split
  · dsimp only
    split
    · rfl
    · rfl
  · split
    · rfl
    · split
      · exact congrArg some (pokeScon_setPc _ ((m.transmit v).setSfr SBUF v) w)
      · exact ramdHook_setPc hbus true a (m.setSfr a v) w

/-- A direct write does not depend on `pc`. -/
lemma writedVia_setPc (hbus : IgnoresPc bus) (a v : Byte) (m : Machine σ) (w : Word) :
    writedVia script bus a v (m.setPc w) =
      (writedVia script bus a v m).map fun m' => m'.setPc w := by
  unfold writedVia defaultRamdPut
  rw [setPc_ramsfrtrap]
  split
  · rw [ramdPut_setPc hbus, Option.map_map, Option.map_map]
    exact Option.map_congr fun m' _ => afterRamdPut_setPc a m' w
  · rfl

/-- The accessors offered to hooks do not depend on `pc` at any depth, by induction over the
nesting. -/
lemma busAt_ignoresPc (script : Script σ) (n : ℕ) : IgnoresPc (busAt script n) := by
  induction n with
  | zero => exact ⟨fun _ _ _ => rfl, fun _ _ _ _ => rfl⟩
  | succ n ih => exact ⟨readdVia_setPc ih, writedVia_setPc ih⟩

/-- `readd` does the same whatever `pc` is, and leaves it where it is. -/
theorem readd_setPc (a : Byte) (m : Machine σ) (w : Word) :
    readd script a (m.setPc w) = (readd script a m).map fun y => (y.1, y.2.setPc w) :=
  readdVia_setPc (busAt_ignoresPc script _) a m w

/-- `writed` does the same whatever `pc` is, and leaves it where it is. -/
theorem writed_setPc (a v : Byte) (m : Machine σ) (w : Word) :
    writed script a v (m.setPc w) = (writed script a v m).map fun m' => m'.setPc w :=
  writedVia_setPc (busAt_ignoresPc script _) a v m w

end Machine

end Emu51

import Emu51.Firmware.Assembly

/-!
# What code leaves alone

An instruction names the places it stores in: a direct address (`Insn.target`), or a register of the
window (`Insn.regTarget`). So what a piece of code leaves alone can be told from its text: without a
store to `SBUF` it does not print, and a register it does not name keeps its contents, whichever
way the code is run.
-/

namespace Emu51

variable {σ : Type}

/-! ## Stores -/

/-- The direct address an instruction stores at. -/
def Insn.target {L : Type} : Insn L → Option Byte
  | movDirA d | movDirImm d _ | movDirDir d _ | xch d | pop d => some d
  | clrBit bit | setBit bit => some (Cpu.bitaddr bit)
  | _ => none

/-- The register of the window an instruction stores in. -/
def Insn.regTarget {L : Type} : Insn L → Option (BitVec 3)
  | movRegA n | movRegImm n _ | movRegDir n _ | djnz n _ => some n
  | _ => none

/-- A store at the direct address `d` and one in the register `n` leave the rest alone. -/
structure Regs.Frame (dev : Device σ) (d : Option Byte) (n : Option (BitVec 3)) (s s' : Regs σ) :
    Prop where
  out : d ≠ some SBUF → s'.out = s.out
  r : ∀ j, n ≠ some j → s'.r j = s.r j
  lua : (∀ a ∈ d, ∀ {x g g'}, dev.write a x g = some g' → g' = g) → s'.lua = s.lua

namespace Regs

variable {e : Scope σ} {s s' t : Regs σ} {a x : Byte} {n : BitVec 3} {d : Option Byte}
  {r : Option (BitVec 3)}

/-- If only registers of the processor have changed, all the rest is as it was. -/
lemma Frame.of_core (hout : s'.out = s.out) (hr : s'.r = s.r) (hlua : s'.lua = s.lua) :
    Frame e.dev d r s s' :=
  ⟨fun _ => hout, fun _ _ => congrFun hr _, fun _ => hlua⟩

/-- A write to a register leaves all but this register as they are. -/
lemma write_frame (h : s.write e.dev a x = some s') : Frame e.dev (some a) r s s' := by
  unfold Regs.write at h
  split at h
  · obtain rfl := Option.some.inj h
    exact .of_core (setCore_out ..) (setCore_r ..) (setCore_lua ..)
  · split_ifs at h with hsbuf
    · obtain rfl := Option.some.inj h
      exact ⟨fun hne => absurd (congrArg some hsbuf) hne, fun _ _ => rfl, fun _ => rfl⟩
    · obtain ⟨g, hg, rfl⟩ := Option.map_eq_some_iff.1 h
      exact ⟨fun _ => rfl, fun _ _ => rfl, fun hsame => hsame a rfl hg⟩

/-- A write to one of `R0` to `R7` leaves all but this register as they are. -/
lemma setReg_frame (h : s.setReg e n x = some s') : Frame e.dev d (some n) s s' := by
  obtain ⟨-, heq⟩ := Option.ite_none_right_eq_some.1 h
  obtain rfl := Option.some.inj heq
  exact ⟨fun _ => rfl, fun j hj => Function.update_of_ne (fun hn => hj (congrArg some hn.symm)) ..,
    fun _ => rfl⟩

end Regs

/-- An instruction that leaves the stack alone changes no registers but its targets. -/
lemma Insn.eval_frame {e : Scope σ} {i : Insn ℕ} {p : ℕ} {s : Regs σ} {y : Regs σ × ℕ}
    (h : i.eval e p s = some y) : s.Frame e.dev i.target i.regTarget y.1 := by
  cases i with
  | movA _ | alu _ _ =>
    obtain ⟨x, -, rfl⟩ := Option.map_eq_some_iff.1 h
    exact .of_core rfl rfl rfl
  | movDirA _ | movDirImm _ _ =>
    obtain ⟨s', hs, rfl⟩ := Option.map_eq_some_iff.1 h
    exact Regs.write_frame hs
  | movDirDir _ _ | clrBit _ | setBit _ =>
    obtain ⟨x, -, hrest⟩ := Option.bind_eq_some_iff.1 h
    obtain ⟨s', hs, rfl⟩ := Option.map_eq_some_iff.1 hrest
    exact Regs.write_frame hs
  | xch _ =>
    obtain ⟨x, -, hrest⟩ := Option.bind_eq_some_iff.1 h
    obtain ⟨s', hs, rfl⟩ := Option.map_eq_some_iff.1 hrest
    have hframe := Regs.write_frame (r := none) hs
    exact ⟨hframe.out, hframe.r, hframe.lua⟩
  | movRegA _ | movRegImm _ _ | djnz _ _ =>
    obtain ⟨s', hs, rfl⟩ := Option.map_eq_some_iff.1 h
    exact Regs.setReg_frame hs
  | movRegDir _ _ =>
    obtain ⟨x, -, hrest⟩ := Option.bind_eq_some_iff.1 h
    obtain ⟨s', hs, rfl⟩ := Option.map_eq_some_iff.1 hrest
    exact Regs.setReg_frame hs
  | movDptr _ | incDptr | movcA | movxA | onA _ | rrcA | mulAB | clrC | sjmp _ | jc _ | jz _
  | jnz _ | cjneA _ _ =>
    obtain rfl := Option.some.inj h
    exact .of_core rfl rfl rfl
  | jb _ _ | jnb _ _ =>
    obtain ⟨x, -, rfl⟩ := Option.map_eq_some_iff.1 h
    exact .of_core rfl rfl rfl
  | push _ | pop _ | acall _ | lcall _ | ret => exact absurd h.symm (Option.some_ne_none _)

namespace Config

variable {e : Scope σ} {code : List (Insn ℕ)} {c c' : Config σ}

/-- An instruction changes no registers but its targets, the device aside. -/
lemma exec_frame {i : Insn ℕ} {p : ℕ} (h : c.exec e p i = some c') :
    c.regs.Frame e.dev i.target i.regTarget c'.regs := by
  have hcall : ∀ l, c.call l p = some c' → c'.regs = c.regs := by
    intro l hl
    unfold call at hl
    split at hl
    · obtain rfl := Option.some.inj hl
      rfl
    · exact absurd hl.symm (Option.some_ne_none _)
  unfold exec at h
  split at h
  case h_1 a =>
    split at h
    · obtain ⟨x, -, rfl⟩ := Option.map_eq_some_iff.1 h
      exact .of_core rfl rfl rfl
    · exact absurd h.symm (Option.some_ne_none _)
  case h_2 a =>
    split at h
    · obtain ⟨s', hs, rfl⟩ := Option.map_eq_some_iff.1 h
      exact Regs.write_frame hs
    · exact absurd h.symm (Option.some_ne_none _)
  case h_3 l =>
    rw [hcall l h]
    exact .of_core rfl rfl rfl
  case h_4 l =>
    rw [hcall l h]
    exact .of_core rfl rfl rfl
  case h_5 =>
    split at h
    · obtain rfl := Option.some.inj h
      exact .of_core rfl rfl rfl
    · exact absurd h.symm (Option.some_ne_none _)
  case h_6 =>
    obtain ⟨y, hy, rfl⟩ := Option.map_eq_some_iff.1 h
    exact Insn.eval_frame hy

/-- A step is one of the instructions of the code. -/
lemma step_frame (h : c.step e code = some c') :
    ∃ i ∈ code, c.regs.Frame e.dev i.target i.regTarget c'.regs := by
  unfold step at h
  split at h
  · exact absurd h.symm (Option.some_ne_none _)
  · split at h
    · exact absurd h.symm (Option.some_ne_none _)
    · next i hi => exact ⟨i, List.mem_of_getElem? hi, exec_frame h⟩

end Config

/-! ## Runs -/

section Runs

variable {e : Scope σ} {code : List (Insn ℕ)} {c c' : Config σ}

/-- Code that does not name `SBUF` does not print. -/
theorem Leads.out_eq (hcode : ∀ i ∈ code, i.target ≠ some SBUF)
    (h : Leads (Config.step e code) c c') : c'.regs.out = c.regs.out :=
  Leads.keeps (v := fun c : Config σ => c.regs.out) (fun hstep =>
    let ⟨i, hi, hframe⟩ := Config.step_frame hstep
    hframe.out (hcode i hi)) h

/-- A register that is not named keeps its contents. -/
theorem Leads.r_eq {j : BitVec 3} (hcode : ∀ i ∈ code, i.regTarget ≠ some j)
    (h : Leads (Config.step e code) c c') : c'.regs.r j = c.regs.r j :=
  Leads.keeps (v := fun c : Config σ => c.regs.r j) (fun hstep =>
    let ⟨i, hi, hframe⟩ := Config.step_frame hstep
    hframe.r j (hcode i hi)) h

/-- Without peripherals the globals of the chip script are not touched. -/
theorem Leads.lua_eq (hdev : e.dev = .none) (h : Leads (Config.step e code) c c') :
    c'.regs.lua = c.regs.lua := by
  refine Leads.keeps (v := fun c : Config σ => c.regs.lua) (fun {x y} hstep => ?_) h
  obtain ⟨i, -, hframe⟩ := Config.step_frame hstep
  refine hframe.lua fun a _ x g g' hwrite => ?_
  rw [hdev] at hwrite
  exact absurd hwrite.symm (Option.some_ne_none _)

end Runs

end Emu51

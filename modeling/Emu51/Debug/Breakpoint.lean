import Emu51.Library.Transition
import Emu51.Machine.Profile
import Emu51.Machine.Setup

/-!
# The breakpoint

One breakpoint can be set, as a mask and a value. When it is hit, `handle_breakpoint` moves it: from
the entry of a function of the firmware to the address that the function returns to, and from there
back to the entry. Nothing else moves it: no instruction, no hook and no script. `main` does not set
it, so that in the program as it is it is never hit.
-/

namespace Emu51

/-! ## Who sets it -/

/-- Only `set_breakpoint` changes the breakpoint. -/
def CpuOp.KeepsBreakpoint (o : CpuOp) : Prop := ∀ mask val, o ≠ .setBreakpoint mask val

/-- No record contains it: it is of a kind that no record may contain. -/
theorem record_keepsBreakpoint (l : Label) (op : Byte) :
    (l.record op).code.All CpuOp.KeepsBreakpoint := by
  refine (record_may l op).mono fun o ho mask val heq => ?_
  rw [heq] at ho
  exact absurd ho Bool.false_ne_true

/-- No instruction but `A5` has an operation that sets the breakpoint. -/
lemma insn_keepsBreakpoint (op : Byte) : (insn op).All CpuOp.KeepsBreakpoint := by
  refine (record_keepsBreakpoint (insnmap op) op).bind fun _ => ?_
  split
  · exact ⟨fun _ _ => CpuOp.noConfusion, fun _ => ⟨fun _ _ => CpuOp.noConfusion, fun _ => trivial⟩⟩
  · trivial

namespace Machine

variable {σ : Type} {script : Script σ} {m m' : Machine σ}

/-- The breakpoint is the same. -/
def SameBreakpoint (m m' : Machine σ) : Prop := m'.bpmask = m.bpmask ∧ m'.bpval = m.bpval

/-- An operation that does not set the breakpoint leaves it where it is. -/
lemma cpuExec_sameBreakpoint {o : CpuOp} (ho : o.KeepsBreakpoint) {r : o.Res}
    (h : cpuExec script o m = some (r, m')) : SameBreakpoint m m' := by
  cases o with
  | readd a =>
    have hfixed := (readd_effects (pokesOnly_true script) h).fixed
    exact ⟨hfixed.bpmask, hfixed.bpval⟩
  | writed a v =>
    obtain ⟨m₁, hm₁, heq⟩ := Option.map_eq_some_iff.1 h
    obtain ⟨-, rfl⟩ := Prod.mk.inj heq
    have hfixed := (writed_effects (pokesOnly_true script) trivial hm₁).fixed
    exact ⟨hfixed.bpmask, hfixed.bpval⟩
  | writex a v =>
    obtain ⟨-, rfl⟩ := Prod.mk.inj (Option.some.inj h)
    exact ⟨(m.sameCore_writex a v).bpmask, (m.sameCore_writex a v).bpval⟩
  | setBreakpoint mask val => exact absurd rfl (ho mask val)
  | _ =>
    obtain ⟨-, rfl⟩ := Prod.mk.inj (Option.some.inj h)
    exact ⟨rfl, rfl⟩

/-- An instruction leaves the breakpoint where it is. -/
lemma dispatch_sameBreakpoint {op : Byte} (h : dispatch script op m = some m') :
    SameBreakpoint m m' := by
  obtain ⟨⟨u, m₂⟩, hrun, rfl⟩ := Option.map_eq_some_iff.1 h
  refine (insn_keepsBreakpoint op).run_invariant (I := SameBreakpoint m) ?_ ⟨rfl, rfl⟩ hrun
  intro o s r s' ho hs he
  have hstep := cpuExec_sameBreakpoint ho he
  exact ⟨hstep.1.trans hs.1, hstep.2.trans hs.2⟩

/-- Accepting an interrupt leaves the breakpoint where it is. -/
lemma pollIrq_sameBreakpoint (m : Machine σ) : SameBreakpoint m m.pollIrq := by
  obtain ⟨l, hl | ⟨x, y, w, hl⟩⟩ := m.pollIrq_eq
  · rw [hl]
    exact ⟨rfl, rfl⟩
  · rw [hl]
    exact ⟨rfl, rfl⟩

/-- A received byte leaves the breakpoint where it is. -/
lemma uartListener_sameBreakpoint (d : Byte) (m : Machine σ) :
    SameBreakpoint m (m.uartListener d).2 := by
  unfold uartListener
  split_ifs
  · exact ⟨rfl, rfl⟩
  · exact ⟨rfl, rfl⟩

/-! ## The two places -/

/-- What `handle_breakpoint` does, exactly: it watches the entry, or, when that is reached, the
address that is returned to. -/
lemma run_handleBreakpoint_eq (hsp : m.ramsfrtrap SP = false) (hdpl : m.ramsfrtrap DPL0 = false)
    (fullPc : BitVec 32) : (handleBreakpoint fullPc).run (cpuExec script) m =
      some ((), if fullPc ≠ 0x261f5 then m.setBreakpoint 0xffffff 0x261f5
        else m.setBreakpoint 0xffff
          ((word (m.readi (m.sfr SP)) (m.readi (m.sfr SP - 1))).setWidth 32)) := by
  unfold handleBreakpoint
  split_ifs
  · exact Cpu.run_setBreakpoint _ _
  · simp only [Prog.run_bind, Cpu.run_readi, Option.bind_some, Cpu.run_readd,
      readd_of_untrapped hsp, readd_of_untrapped hdpl, Cpu.run_setBreakpoint]

end Machine

/-- What is watched for: nothing, the entry of the function, or the address that it returns to, in
any bank. -/
inductive Watch where
  | nothing
  | entry
  | return (addr : Word)
  deriving DecidableEq

namespace Watch

/-- The breakpoint that watches for it. -/
def mask : Watch → BitVec 32
  | nothing => 0
  | entry => 0xffffff
  | .return _ => 0xffff

/-- The breakpoint that watches for it. -/
def val : Watch → BitVec 32
  | nothing => 0xffffffff
  | entry => 0x261f5
  | .return addr => addr.setWidth 32

/-- The code reaches what is watched for. -/
def Reached (pcx : Byte) (pc : Word) : Watch → Prop
  | nothing => False
  | entry => pcx = 0x02 ∧ pc = 0x61f5
  | .return addr => pc = addr

instance (pcx : Byte) (pc : Word) (w : Watch) : Decidable (w.Reached pcx pc) :=
  match w with
  | nothing => inferInstanceAs (Decidable False)
  | entry => inferInstanceAs (Decidable (pcx = 0x02 ∧ pc = 0x61f5))
  | .return addr => inferInstanceAs (Decidable (pc = addr))

variable {σ : Type}

/-- What is watched for after the next instruction has been fetched. At the entry the return address
is on top of the stack. -/
def next (m : Machine σ) (w : Watch) : Watch :=
  if w.Reached m.pcx m.pc then
    if m.pcx = 0x02 ∧ m.pc = 0x61f5 then
      .return (word (m.readi (m.sfr SP)) (m.readi (m.sfr SP - 1)))
    else entry
  else w

/-- What is watched for after a run. -/
def after (w : Watch) : List (Machine σ × Event) → Watch
  | [] => w
  | (m, .insn) :: tr => (w.next m.pollIrq).after tr
  | _ :: tr => w.after tr

/-- Events are taken into account one after the other. -/
lemma after_cons (w : Watch) (e : Machine σ × Event) (tr : List (Machine σ × Event)) :
    w.after (e :: tr) = (w.after [e]).after tr := by
  obtain ⟨m, _ | _ | _⟩ := e <;> rfl

/-- Who watches for nothing goes on so, as only a hit moves the breakpoint. -/
lemma after_nothing (tr : List (Machine σ × Event)) : nothing.after tr = nothing := by
  induction tr with
  | nil => rfl
  | cons e tr ih =>
    obtain ⟨m, _ | _ | _⟩ := e <;> exact ih

end Watch

namespace Machine

variable {σ : Type} {script : Script σ} {m m' m₀ : Machine σ} {w : Watch}

/-- The breakpoint watches for this. -/
def Watches (w : Watch) (m : Machine σ) : Prop := m.bpmask = w.mask ∧ m.bpval = w.val

/-- As long as the breakpoint is where it was, the same address is watched. -/
lemma SameBreakpoint.watches (h : SameBreakpoint m m') (hm : Watches w m) : Watches w m' :=
  ⟨h.1.trans hm.1, h.2.trans hm.2⟩

/-- The full program counter has `pcx` above the 16 bits of `pc`. -/
lemma fullPc_toNat (m : Machine σ) : m.fullPc.toNat = m.pcx.toNat * 0x10000 + m.pc.toNat := by
  have hpcx := m.pcx.isLt
  have hpc := m.pc.isLt
  unfold fullPc
  rw [BitVec.toNat_add, BitVec.toNat_shiftLeft, BitVec.toNat_setWidth, BitVec.toNat_setWidth,
    Nat.shiftLeft_eq]
  omega

/-- The entry is known by its bank and by its address in the bank. -/
lemma fullPc_eq_entry (m : Machine σ) : m.fullPc = 0x261f5 ↔ m.pcx = 0x02 ∧ m.pc = 0x61f5 := by
  have hpc := m.pc.isLt
  rw [← BitVec.toNat_inj, ← BitVec.toNat_inj, ← BitVec.toNat_inj, fullPc_toNat]
  change _ = 0x261f5 ↔ _ = 0x02 ∧ _ = 0x61f5
  omega

/-- The breakpoint is hit exactly where it should be, at the address watched. -/
lemma Watches.hit_iff (h : Watches w m) :
    m.fullPc &&& m.bpmask = m.bpval ↔ w.Reached m.pcx m.pc := by
  have hpc := m.pc.isLt
  have hpcx := m.pcx.isLt
  have hfull := m.fullPc_toNat
  rw [h.1, h.2]
  cases w with
  | nothing =>
    refine iff_of_false ?_ not_false
    change ¬m.fullPc &&& 0#32 = 0xffffffff
    rw [BitVec.and_zero]
    decide
  | entry =>
    have hall : m.fullPc &&& Watch.entry.mask = m.fullPc := by
      refine BitVec.eq_of_toNat_eq ((Nat.and_two_pow_sub_one_eq_mod _ 24).trans ?_)
      rw [hfull]
      omega
    rw [hall]
    exact m.fullPc_eq_entry
  | «return» addr =>
    have hlow : (m.fullPc &&& (Watch.return addr).mask).toNat = m.pc.toNat := by
      refine (Nat.and_two_pow_sub_one_eq_mod _ 16).trans ?_
      rw [hfull]
      omega
    have haddr : (Watch.return addr).val.toNat = addr.toNat := by
      rw [Watch.val, BitVec.toNat_setWidth]
      exact Nat.mod_eq_of_lt (Nat.lt_trans addr.isLt (by decide))
    rw [← BitVec.toNat_inj, hlow, haddr, BitVec.toNat_inj]
    rfl

/-- The fetch of an opcode moves the breakpoint if it is hit. -/
lemma nextop_watches (script : Script σ) (ht : m.ramsfrtrap = sfrInitTrap) (hw : Watches w m) :
    ∃ m₁, nextop script m = some (m.pollIrq.fetch 0, m₁) ∧ Watches (w.next m.pollIrq) m₁ ∧
      (¬w.Reached m.pollIrq.pcx m.pollIrq.pc → m₁ = m.pollIrq) := by
  have htrap : m.pollIrq.ramsfrtrap = sfrInitTrap := m.pollIrq_setup.ramsfrtrap.trans ht
  have hsp : m.pollIrq.ramsfrtrap SP = false := (congrFun htrap SP).trans (by decide)
  have hdpl : m.pollIrq.ramsfrtrap DPL0 = false := (congrFun htrap DPL0).trans (by decide)
  have hpoll : Watches w m.pollIrq := m.pollIrq_sameBreakpoint.watches hw
  have hentry : m.pollIrq.fullPc ≠ 0x261f5 ↔ ¬(m.pollIrq.pcx = 0x02 ∧ m.pollIrq.pc = 0x61f5) :=
    not_congr m.pollIrq.fullPc_eq_entry
  unfold nextop fetchOp Watch.next
  rw [run_handleBreakpoint_eq hsp hdpl]
  by_cases hreached : w.Reached m.pollIrq.pcx m.pollIrq.pc
  · rw [if_pos hreached]
    dsimp only
    rw [if_pos (hpoll.hit_iff.2 hreached)]
    by_cases hplace : m.pollIrq.pcx = 0x02 ∧ m.pollIrq.pc = 0x61f5
    · rw [if_pos hplace, if_neg (fun h => hentry.1 h hplace)]
      exact ⟨_, rfl, ⟨rfl, rfl⟩, absurd hreached⟩
    · rw [if_neg hplace, if_pos (hentry.2 hplace)]
      exact ⟨_, rfl, ⟨rfl, rfl⟩, absurd hreached⟩
  · rw [if_neg hreached]
    dsimp only
    rw [if_neg fun h => hreached (hpoll.hit_iff.1 h)]
    exact ⟨_, rfl, hpoll, fun _ => rfl⟩

/-! ## Runs -/

/-- What an event does to the breakpoint is what it does to the address watched. -/
lemma happen_watches (ht : m.ramsfrtrap = sfrInitTrap) (hw : Watches w m) {e : Event}
    (h : happen script e m = some m') : Watches (w.after [(m, e)]) m' := by
  cases e with
  | insn =>
    obtain ⟨op, m₁, hnext, hexec⟩ := step_eq_some h
    obtain ⟨m₂, hfetch, hmoved, -⟩ := nextop_watches script ht hw
    obtain ⟨rfl, rfl⟩ := Prod.mk.inj (Option.some.inj (hfetch.symm.trans hnext))
    exact (dispatch_sameBreakpoint hexec).watches hmoved
  | poke addr v =>
    have hfixed := (writed_effects (pokesOnly_true script) trivial h).fixed
    exact ⟨hfixed.bpmask.trans hw.1, hfixed.bpval.trans hw.2⟩
  | uart d =>
    obtain rfl := Option.some.inj h
    exact (m.uartListener_sameBreakpoint d).watches hw

/-- In every run the address watched at the end is the one that was set last. -/
lemma watches_of_run {tr : List (Machine σ × Event)} (hrun : Run (Happens script) m₀ tr m)
    (ht : m₀.ramsfrtrap = sfrInitTrap) (hw : Watches w m₀) : Watches (w.after tr) m := by
  induction hrun generalizing w with
  | refl => exact hw
  | @head m m₁ m₂ e tr hstep _ ih =>
    rw [Watch.after_cons]
    exact ih ((happen_setup hstep).ramsfrtrap.trans ht) (happen_watches ht hw hstep)

/-- At the start nothing is watched. -/
lemma boot_watches {heap : ℕ → Buffer} {file : List Byte} (h : boot script heap file = some m₀) :
    Watches .nothing m₀ := by
  have hinit : ∃ m, mainInit script heap file = some m ∧ Watches .nothing m := ⟨_, rfl, rfl, rfl⟩
  obtain ⟨m, hm, hwatch⟩ := hinit
  rw [boot_eq, hm, Option.bind_some] at h
  obtain ⟨y, hload, heq⟩ := Option.bind_eq_some_iff.1 h
  obtain rfl := Option.some.inj heq
  have hfixed := (runLua_effects (pokesOnly_true script) (all_pokesOnly_true _) hload).fixed
  exact ⟨hfixed.bpmask.trans hwatch.1, hfixed.bpval.trans hwatch.2⟩

/-- Whatever the breakpoint is set to watch for at the start, it is always where it should be, and
the next fetch hits it exactly where the code reaches what is watched for then. -/
theorem run_watches {heap : ℕ → Buffer} {file : List Byte}
    (hboot : boot script heap file = some m₀) {tr : List (Machine σ × Event)}
    (hrun : Run (Happens script) (m₀.setBreakpoint w.mask w.val) tr m) :
    Watches (w.after tr) m ∧ (m.pollIrq.fullPc &&& m.pollIrq.bpmask = m.pollIrq.bpval ↔
      (w.after tr).Reached m.pollIrq.pcx m.pollIrq.pc) := by
  have hwatch : Watches (w.after tr) m := watches_of_run hrun (boot_setup hboot).1 ⟨rfl, rfl⟩
  exact ⟨hwatch, (m.pollIrq_sameBreakpoint.watches hwatch).hit_iff⟩

/-- The theorem where the return address is 1 and a second instruction follows. -/
theorem run_watches_return : ∃ m : Machine Unit, m.pc = 2 ∧ Watches .entry m := by
  have heval : ((boot mapsRom (fun _ => default) [0x00, 0x00]).bind fun m₀ =>
      (step mapsRom (m₀.setBreakpoint 0xffff 1)).bind fun m₁ => (step mapsRom m₁).map fun m =>
        ((Watch.return 1).after [(m₀.setBreakpoint 0xffff 1, .insn), (m₁, .insn)], m.pc)) =
      some (.entry, 2) := by
    decide +kernel
  obtain ⟨m₀, hboot, hrest⟩ := Option.bind_eq_some_iff.1 heval
  obtain ⟨m₁, hfirst, hrest⟩ := Option.bind_eq_some_iff.1 hrest
  obtain ⟨m, hsecond, hval⟩ := Option.map_eq_some_iff.1 hrest
  obtain ⟨hafter, hpc⟩ := Prod.mk.inj hval
  have hrun : Run (Happens mapsRom) (m₀.setBreakpoint 0xffff 1)
      [(m₀.setBreakpoint 0xffff 1, .insn), (m₁, .insn)] m :=
    .head (show Happens mapsRom _ .insn m₁ from hfirst)
      (.head (show Happens mapsRom m₁ .insn m from hsecond) (.refl m))
  have hwatch := (run_watches (w := .return 1) hboot hrun).1
  rw [hafter] at hwatch
  exact ⟨m, hpc, hwatch⟩

/-- As `main` starts it, the program never hits a breakpoint: the next fetch takes an interrupt, if
there is one, and does nothing else. -/
theorem run_unbroken {heap : ℕ → Buffer} {file : List Byte}
    (hboot : boot script heap file = some m₀) {tr : List (Machine σ × Event)}
    (hrun : Run (Happens script) m₀ tr m) :
    nextop script m = some (m.pollIrq.fetch 0, m.pollIrq) := by
  have ht : m.ramsfrtrap = sfrInitTrap :=
    (hrun.invariant (I := fun m => m.ramsfrtrap = sfrInitTrap)
      (fun _ _ _ hc he => (happen_setup he).ramsfrtrap.trans hc) (boot_setup hboot).1).2
  have hwatch : Watches .nothing m := by
    have hw := watches_of_run hrun (boot_setup hboot).1 (boot_watches hboot)
    rwa [Watch.after_nothing] at hw
  obtain ⟨m₁, hnext, -, hsame⟩ := nextop_watches script ht hwatch
  rw [hnext, hsame not_false]

/-- The theorem after one instruction of a machine that watches nothing. -/
theorem run_unbroken_nop : ∃ m : Machine Unit, m.pc = 1 ∧
    nextop mapsRom m = some (m.pollIrq.fetch 0, m.pollIrq) := by
  have heval : ((boot mapsRom (fun _ => default) [0x00]).bind fun m₀ =>
      (step mapsRom m₀).map fun m => m.pc) = some 1 := by decide +kernel
  obtain ⟨m₀, hboot, hrest⟩ := Option.bind_eq_some_iff.1 heval
  obtain ⟨m, hstep, hpc⟩ := Option.map_eq_some_iff.1 hrest
  have hrun : Run (Happens mapsRom) m₀ [(m₀, .insn)] m :=
    .head (show Happens mapsRom m₀ .insn m from hstep) (.refl m)
  exact ⟨m, hpc, run_unbroken hboot hrun⟩

end Machine

end Emu51

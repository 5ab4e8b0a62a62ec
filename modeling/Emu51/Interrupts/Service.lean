import Emu51.Library.Transition
import Emu51.Machine.Effects
import Emu51.Machine.Profile
import Emu51.Machine.System

/-!
# Interrupt levels in service

`irqlevel` is to have one bit for each level whose service routine has been entered and not yet
left. The levels in service form a stack, so this file runs the emulator with that stack beside it.
It turns out that `RETI` clears `irqlevel` altogether, which is right only when it returns from the
only level in service.
-/

namespace Emu51

variable {σ : Type}

/-! ## Levels -/

/-- The mask with a bit for each level of the stack. -/
def levelsMask (levels : List ℕ) : BitVec 32 := levels.foldr (fun l mask => mask ||| 1#32 <<< l) 0

/-- A stack of levels `0` and `1` in which inner levels are higher is one of four. -/
lemma levels_cases {levels : List ℕ} (hle : ∀ l ∈ levels, l ≤ 1) (hlt : levels.Pairwise (· > ·)) :
    levels = [] ∨ levels = [0] ∨ levels = [1] ∨ levels = [1, 0] := by
  match levels with
  | [] => exact .inl rfl
  | [l] =>
    have hl := hle l (List.mem_singleton_self l)
    have hcases : l = 0 ∨ l = 1 := by omega
    rcases hcases with rfl | rfl
    · exact .inr (.inl rfl)
    · exact .inr (.inr (.inl rfl))
  | l :: l' :: rest =>
    rw [List.pairwise_cons, List.pairwise_cons] at hlt
    obtain ⟨houter, hinner, -⟩ := hlt
    have hl := hle l (by simp)
    have hl' := houter l' (by simp)
    obtain rfl : l = 1 := by omega
    obtain rfl : l' = 0 := by omega
    cases rest with
    | nil => exact .inr (.inr (.inr rfl))
    | cons l'' rest => exact absurd (hinner l'' (by simp)) (Nat.not_lt_zero l'')

/-- A mask below the bit of a level has only lower levels. -/
lemma lt_of_levelsMask_lt {levels : List ℕ} (hle : ∀ l ∈ levels, l ≤ 1)
    (hnested : levels.Pairwise (· > ·)) {l l' : ℕ} (hl : l ≤ 1)
    (hlt : levelsMask levels < 1#32 <<< l) (hl' : l' ∈ levels) : l' < l := by
  have hcases : l = 0 ∨ l = 1 := by omega
  rcases levels_cases hle hnested with rfl | rfl | rfl | rfl
  · exact absurd hl' List.not_mem_nil
  · rw [List.mem_singleton] at hl'
    rcases hcases with rfl | rfl
    · exact absurd hlt (by decide)
    · omega
  · rcases hcases with rfl | rfl <;> exact absurd hlt (by decide)
  · rcases hcases with rfl | rfl <;> exact absurd hlt (by decide)

namespace Machine

/-! ## The emulator with the stack of levels -/

/-- The level `poll_irq` takes into service, if it accepts an interrupt. -/
def acceptedLevel (m : Machine σ) : Option ℕ :=
  if m.irqpend = true ∧ 0 < m.irqSelect.1 then some (if m.irqpendl1 ≠ 0 then 1 else 0) else none

end Machine

/-- What can happen next: the look at the interrupts, the instruction at `pc`, a call of `poke_sfr`,
one pass of the listener. -/
inductive Phase where
  | poll
  | insn
  | poke (addr v : Byte)
  | uart (d : Byte)
  deriving DecidableEq

namespace Machine

/-- One phase, with the levels accepted and not yet returned from, innermost first. The vectors of
interrupts that are taken are nonzero, and `RETI` is executed once for each interrupt accepted. -/
def serve (script : Script σ) (phase : Phase) (c : Machine σ × List ℕ) :
    Option (Machine σ × List ℕ) :=
  match phase with
  | .poll =>
      if c.1.irqpend = true ∧ c.1.irqSelect.1 = 0 then none
      else some (c.1.pollIrq, c.1.acceptedLevel.toList ++ c.2)
  | .insn =>
      let c' := ((fetchOp script c.1).bind fun y => dispatch script y.1 y.2)
      if insnmap (c.1.fetch 0) = .reti then
        match c.2 with
        | [] => none
        | _ :: levels => c'.map fun m => (m, levels)
      else c'.map fun m => (m, c.2)
  | .poke addr v => (c.1.writed script addr v).map fun m => (m, c.2)
  | .uart d => some ((c.1.uartListener d).2, c.2)

/-- The phases as a transition relation. -/
def Serves (script : Script σ) (c : Machine σ × List ℕ) (phase : Phase) (c' : Machine σ × List ℕ) :
    Prop :=
  serve script phase c = some c'

/-- `irqlevel` has exactly the levels in service, and these are nested: an inner one is higher. -/
def LevelsExact (c : Machine σ × List ℕ) : Prop :=
  c.1.irqlevel = levelsMask c.2 ∧ c.2.Pairwise (· > ·)

/-- The phase is the execution of `RETI`. -/
def IsReti (c : Machine σ × List ℕ) (phase : Phase) : Prop :=
  phase = .insn ∧ insnmap (c.1.fetch 0) = .reti

/-- If the instruction is `RETI`, at most one level is in service. -/
def RetiAlone (c : Machine σ × List ℕ) (phase : Phase) : Prop := IsReti c phase → c.2.length ≤ 1

/-! ## Acceptance -/

variable {script : Script σ} {m m' : Machine σ} {levels : List ℕ}

/-- A level is taken into service only if it is above all levels in service. -/
lemma irqVec_level {mask : BitVec 32} {level : ℕ} (h : 0 < (m.irqVec mask level).1) :
    m.irqlevel < 1#32 <<< level ∧
      (m.irqVec mask level).2.irqlevel = m.irqlevel ||| 1#32 <<< level := by
  unfold irqVec at h ⊢
  dsimp only at h ⊢
  split_ifs at h ⊢ with hmask hlevel
  · exact absurd (show (0 : ℤ) < -1 from h) (by decide)
  · exact absurd (show (0 : ℤ) < -1 from h) (by decide)
  · exact ⟨BitVec.not_le.1 hlevel, rfl⟩

/-- Where no level is taken into service, the levels stay what they are. -/
lemma irqVec_level_of_neg {mask : BitVec 32} {level : ℕ} (h : (m.irqVec mask level).1 < 0) :
    (m.irqVec mask level).2 = m := by
  unfold irqVec at h ⊢
  dsimp only at h ⊢
  split_ifs at h ⊢
  · rfl
  · rfl
  · exact absurd h (by simp)

/-- Accepting an interrupt sets the bit of its level, and without one pending nothing is set. -/
lemma pollIrq_irqlevel (m : Machine σ) :
    m.pollIrq.irqlevel = if m.irqpend then m.irqSelect.2.irqlevel else m.irqlevel := by
  unfold pollIrq handleIrq
  dsimp only
  split_ifs
  · rfl
  · rfl
  · rfl

/-- The look at the interrupts takes the accepted level into service, and only if it is above all
levels in service. -/
lemma poll_level (hvec : ¬(m.irqpend = true ∧ m.irqSelect.1 = 0)) :
    match m.acceptedLevel with
    | none => m.pollIrq.irqlevel = m.irqlevel
    | some l => l ≤ 1 ∧ m.irqlevel < 1#32 <<< l ∧
        m.pollIrq.irqlevel = m.irqlevel ||| 1#32 <<< l := by
  rw [pollIrq_irqlevel]
  unfold acceptedLevel
  by_cases hpend : m.irqpend = true
  · rw [if_pos hpend]
    by_cases hpos : 0 < m.irqSelect.1
    · rw [if_pos ⟨hpend, hpos⟩]
      unfold irqSelect at hpos ⊢
      by_cases h1 : m.irqpendl1 ≠ 0
      · rw [if_pos h1] at hpos ⊢
        rw [if_pos h1]
        exact ⟨Nat.le_refl 1, irqVec_level hpos⟩
      · rw [if_neg h1] at hpos ⊢
        rw [if_neg h1]
        by_cases h0 : m.irqpendl0 ≠ 0
        · rw [if_pos h0] at hpos ⊢
          exact ⟨Nat.zero_le 1, irqVec_level hpos⟩
        · rw [if_neg h0] at hpos
          exact absurd (show (0 : ℤ) < -1 from hpos) (by decide)
    · rw [if_neg fun h => hpos h.2]
      have hneg : m.irqSelect.1 < 0 := by
        have hne : m.irqSelect.1 ≠ 0 := fun h => hvec ⟨hpend, h⟩
        omega
      unfold irqSelect at hneg ⊢
      split_ifs at hneg ⊢
      · exact congrArg irqlevel (irqVec_level_of_neg hneg)
      · exact congrArg irqlevel (irqVec_level_of_neg hneg)
      · rfl
  · rw [if_neg hpend, if_neg fun h => hpend h.1]

/-! ## Return -/

/-- Control always reaches the assignment at `case 0`, from whatever case it starts. -/
lemma retiFrom_eq_zero (n : ℕ) (level : BitVec 32) : retiFrom n level = 0 := by
  induction n generalizing level with
  | zero => rfl
  | succ n ih => exact ih _

/-- Operations other than `irqlevel_reti` keep the levels in service. -/
lemma cpuExec_irqlevel {o : CpuOp} (ho : o ≠ .irqlevelReti) {r : o.Res}
    (h : cpuExec script o m = some (r, m')) : m'.irqlevel = m.irqlevel := by
  cases o with
  | readd a => exact (readd_effects (pokesOnly_true script) h).fixed.irqlevel
  | writed a v =>
    obtain ⟨m₁, hm₁, heq⟩ := Option.map_eq_some_iff.1 h
    obtain ⟨-, rfl⟩ := Prod.mk.inj heq
    exact (writed_effects (pokesOnly_true script) trivial hm₁).fixed.irqlevel
  | writex a v =>
    obtain ⟨-, rfl⟩ := Prod.mk.inj (Option.some.inj h)
    exact (m.sameCore_writex a v).irqlevel
  | irqlevelReti => exact absurd rfl ho
  | _ =>
    obtain ⟨-, rfl⟩ := Prod.mk.inj (Option.some.inj h)
    rfl

end Machine

/-- Among the records only that of `RETI` calls `irqlevel_reti`. -/
lemma record_no_reti {l : Label} (hl : l ≠ .reti) (op : Byte) :
    (l.record op).code.All (· ≠ .irqlevelReti) := by
  refine (record_may l op).mono fun o ho heq => ?_
  have hreti : l.may .reti = true := by rwa [heq] at ho
  exact hl (of_decide_eq_true hreti)

/-- So all other code behind an opcode leaves the levels in service alone. -/
lemma insn_no_reti {op : Byte} (h : insnmap op ≠ .reti) : (insn op).All (· ≠ .irqlevelReti) := by
  refine (record_no_reti h op).bind fun _ => ?_
  split
  · exact ⟨by simp, fun _ => ⟨by simp, fun _ => trivial⟩⟩
  · trivial

/-- The breakpoint's action does not leave an interrupt level. -/
lemma handleBreakpoint_no_reti (w : BitVec 32) : (handleBreakpoint w).All (· ≠ .irqlevelReti) :=
  handleBreakpoint_all (fun _ => CpuOp.noConfusion) (fun _ => CpuOp.noConfusion)
    (fun _ _ => CpuOp.noConfusion) w

namespace Machine

variable {script : Script σ} {m m' : Machine σ} {levels : List ℕ}

/-- Instructions other than `RETI` keep the levels in service. -/
lemma dispatch_irqlevel {op : Byte} (hop : insnmap op ≠ .reti)
    (h : dispatch script op m = some m') : m'.irqlevel = m.irqlevel := by
  obtain ⟨⟨u, m₂⟩, hy, rfl⟩ := Option.map_eq_some_iff.1 h
  exact (insn_no_reti hop).run_invariant (h := cpuExec script)
    (I := fun s => s.irqlevel = m.irqlevel)
    (fun o s r s' ho hs he => (cpuExec_irqlevel ho he).trans hs) rfl hy

/-- `RETI` clears the bits of all levels, as the cases of `irqlevel_reti` fall through. -/
lemma dispatch_reti {op : Byte} (hop : insnmap op = .reti) (h : dispatch script op m = some m') :
    m'.irqlevel = 0 := by
  have hreti : Ops.reti.code.wp (cpuExec script) (fun _ _ m' => m'.irqlevel = 0) m := by
    simp only [Ops.reti, Ops.popPc, Prog.wp_bind, Cpu.wp_irqlevelReti, Cpu.wp_pop, Cpu.wp_setPc]
    exact retiFrom_eq_zero _ _
  refine dispatch_of_wp (P := fun m' => m'.irqlevel = 0) ?_ h
  rw [insn, hop]
  exact OpRec.wp_emit (fun _ _ h => h) hreti

/-- An instruction, after the look at the interrupts, clears the levels or leaves them. -/
lemma insn_irqlevel
    (h : ((fetchOp script m).bind fun y => dispatch script y.1 y.2) = some m') :
    m'.irqlevel = if insnmap (m.fetch 0) = .reti then 0 else m.irqlevel := by
  obtain ⟨⟨op, m₁⟩, hfetch, hexec⟩ := Option.bind_eq_some_iff.1 h
  obtain ⟨rfl, hlevel⟩ := fetchOp_invariant (I := fun s => s.irqlevel = m.irqlevel)
    (fun o s r s' ho hs he => (cpuExec_irqlevel ho he).trans hs) handleBreakpoint_no_reti rfl hfetch
  split
  · next hop => exact dispatch_reti hop hexec
  · next hop => exact (dispatch_irqlevel hop hexec).trans hlevel

/-! ## Runs -/

/-- All levels are `0` or `1`. -/
def LevelsLe (c : Machine σ × List ℕ) : Prop := ∀ l ∈ c.2, l ≤ 1

/-- What a phase does to the levels. -/
inductive LevelStep (c : Machine σ × List ℕ) (phase : Phase) (c' : Machine σ × List ℕ) : Prop where
  | keep (hphase : ¬IsReti c phase) (hlevel : c'.1.irqlevel = c.1.irqlevel) (hstack : c'.2 = c.2)
  | accept (hphase : ¬IsReti c phase) (l : ℕ) (hle : l ≤ 1) (hlt : c.1.irqlevel < 1#32 <<< l)
      (hlevel : c'.1.irqlevel = c.1.irqlevel ||| 1#32 <<< l) (hstack : c'.2 = l :: c.2)
  | reti (hphase : IsReti c phase) (l : ℕ) (hlevel : c'.1.irqlevel = 0) (hstack : c.2 = l :: c'.2)

/-- Every phase keeps the levels, accepts one or, if it is `RETI`, clears them all. -/
lemma serve_levelStep {phase : Phase} {c c' : Machine σ × List ℕ} (h : Serves script c phase c') :
    LevelStep c phase c' := by
  obtain ⟨m, levels⟩ := c
  cases phase with
  | poll =>
    have hphase : ¬IsReti (m, levels) .poll := fun hreti => nomatch hreti.1
    unfold Serves serve at h
    dsimp only at h
    split_ifs at h with hvec
    obtain rfl := Option.some.inj h
    have hlevel := poll_level hvec
    cases haccept : m.acceptedLevel with
    | none =>
      rw [haccept] at hlevel
      exact .keep hphase hlevel rfl
    | some l =>
      rw [haccept] at hlevel
      exact .accept hphase l hlevel.1 hlevel.2.1 hlevel.2.2 rfl
  | insn =>
    unfold Serves serve at h
    dsimp only at h
    split_ifs at h with hop
    · cases levels with
      | nil => exact absurd h (Option.some_ne_none c').symm
      | cons l levels =>
        obtain ⟨m', hm', rfl⟩ := Option.map_eq_some_iff.1 h
        have hlevel := insn_irqlevel hm'
        rw [if_pos hop] at hlevel
        exact .reti ⟨rfl, hop⟩ l hlevel rfl
    · obtain ⟨m', hm', rfl⟩ := Option.map_eq_some_iff.1 h
      have hlevel := insn_irqlevel hm'
      rw [if_neg hop] at hlevel
      exact .keep (fun hreti => hop hreti.2) hlevel rfl
  | poke addr v =>
    obtain ⟨m', hm', rfl⟩ := Option.map_eq_some_iff.1 h
    have heffects := writed_effects (pokesOnly_true script) trivial hm'
    exact .keep (fun hreti => nomatch hreti.1) heffects.fixed.irqlevel rfl
  | uart d =>
    obtain rfl := Option.some.inj h
    refine .keep (fun hreti => nomatch hreti.1) ?_ rfl
    unfold uartListener
    split_ifs
    · rfl
    · rfl

/-- Only the levels `0` and `1` are ever accepted, so no other is in service. -/
lemma LevelStep.levelsLe {phase : Phase} {c c' : Machine σ × List ℕ} (h : LevelStep c phase c')
    (hle : LevelsLe c) : LevelsLe c' := by
  cases h with
  | keep _ _ hstack => exact fun l hl => hle l (hstack ▸ hl)
  | accept _ l hl _ _ hstack =>
    intro l' hl'
    rw [hstack, List.mem_cons] at hl'
    rcases hl' with rfl | hl'
    · exact hl
    · exact hle l' hl'
  | reti _ l _ hstack =>
    intro l' hl'
    exact hle l' (hstack ▸ List.mem_cons_of_mem l hl')

/-- A phase keeps the levels exact unless it is a `RETI` that should have left a level in
service. -/
lemma LevelStep.exact_iff {phase : Phase} {c c' : Machine σ × List ℕ} (h : LevelStep c phase c')
    (hle : LevelsLe c) (hexact : LevelsExact c) : LevelsExact c' ↔ RetiAlone c phase := by
  obtain ⟨hmask, hnested⟩ := hexact
  cases h with
  | keep hphase hlevel hstack =>
    refine iff_of_true ⟨?_, hstack ▸ hnested⟩ fun hreti => absurd hreti hphase
    rw [hlevel, hmask, hstack]
  | accept hphase l hl hlt hlevel hstack =>
    refine iff_of_true ⟨?_, ?_⟩ fun hreti => absurd hreti hphase
    · rw [hlevel, hmask, hstack]
      rfl
    · rw [hstack, List.pairwise_cons]
      exact ⟨fun l' hl' => lt_of_levelsMask_lt hle hnested hl (hmask ▸ hlt) hl', hnested⟩
  | reti hphase l hlevel hstack =>
    have hle' : ∀ l ∈ c'.2, l ≤ 1 := fun l' hl' => hle l' (hstack ▸ List.mem_cons_of_mem l hl')
    have hnested' : c'.2.Pairwise (· > ·) := (List.pairwise_cons.1 (hstack ▸ hnested)).2
    have hempty : LevelsExact c' ↔ c'.2 = [] := by
      unfold LevelsExact
      rw [hlevel]
      rcases levels_cases hle' hnested' with hc | hc | hc | hc <;> rw [hc] <;> decide
    have halone : RetiAlone c phase ↔ c'.2 = [] := by
      unfold RetiAlone
      rw [hstack, List.length_cons, Nat.succ_le_iff, Nat.lt_one_iff, List.length_eq_zero_iff]
      exact ⟨fun h => h hphase, fun h _ => h⟩
    rw [hempty, halone]

/-- The levels in service are tracked exactly throughout a run exactly if every `RETI` of the run is
executed while no more than one level is in service. -/
theorem run_levelsExact_iff {m₀ : Machine σ} (h₀ : m₀.irqlevel = 0)
    {tr : List ((Machine σ × List ℕ) × Phase)} {c : Machine σ × List ℕ}
    (hrun : Run (Serves script) (m₀, []) tr c) :
    Run.Throughout LevelsExact tr c ↔ ∀ e ∈ tr, RetiAlone e.1 e.2 := by
  refine Run.forall_iff (I := LevelsLe) (fun c phase c' hle h => (serve_levelStep h).levelsLe hle)
    (fun c phase c' hle hexact h => (serve_levelStep h).exact_iff hle hexact) hrun ?_ ⟨h₀, .nil⟩
  exact fun l hl => absurd hl List.not_mem_nil

/-- A service routine that consists of `NOP` and `RETI`, with the UART's interrupt pending. -/
def interrupted : Machine Unit :=
  { (running (List.replicate 0x23 0 ++ [0x00, 0x32])).setSfr IE 0x90 with
    ramsfrnotifiers := mainNotifiers
    irqpendl0 := irqMask 4 }

/-- The theorem at an interrupt and its return, one level and no nesting. -/
theorem run_levelsExact_iff_once : ∃ (tr : List ((Machine Unit × List ℕ) × Phase))
    (c : Machine Unit × List ℕ), tr.map Prod.snd = [.poll, .insn, .poll, .insn] ∧
    (Run.Throughout LevelsExact tr c ↔ ∀ e ∈ tr, RetiAlone e.1 e.2) := by
  have heval : (Run.follow (serve noHooks) [.poll, .insn, .poll, .insn]
      (interrupted, [])).isSome := by
    decide +kernel
  obtain ⟨c, hc⟩ := Option.isSome_iff_exists.1 heval
  obtain ⟨tr, htr, hrun⟩ := Run.of_follow hc
  exact ⟨tr, c, htr, run_levelsExact_iff (show interrupted.irqlevel = 0 from rfl) hrun⟩

/-- `RETI` from a level 1 routine that has preempted a level 0 routine after its `NOP` leaves no
level in service. -/
theorem reti_breaks_levelsExact : ¬∀ (m₀ : Machine Unit) tr c, m₀.irqlevel = 0 →
    Run (Serves noHooks) (m₀, []) tr c → LevelsExact c := by
  intro hall
  have heval : (Run.follow (serve noHooks)
      [.poke SCON 0x01, .poll, .insn, .poke IP 0x10, .poll, .insn, .poll, .insn]
      (interrupted, [])).map
      (fun c => (c.1.irqlevel, c.2)) = some (0, [0]) := by
    decide +kernel
  obtain ⟨c, hc, hval⟩ := Option.map_eq_some_iff.1 heval
  obtain ⟨tr, -, hrun⟩ := Run.of_follow hc
  obtain ⟨hmask, -⟩ := hall interrupted tr c rfl hrun
  obtain ⟨hlevel, hstack⟩ := Prod.mk.inj hval
  rw [hlevel, hstack] at hmask
  exact absurd hmask (by decide)

end Machine

end Emu51

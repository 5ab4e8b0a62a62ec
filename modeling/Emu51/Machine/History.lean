import Emu51.Machine.Events

/-!
# The operations of a run

All operations the CPU performs in a run, in order, each with the state it is performed in and with
the writes to special function registers that came before it. An event that fails half-way has
performed operations, too.
-/

namespace Emu51

namespace Machine

variable {σ : Type}

/-! ## Events as code -/

/-- One round of `run_8051` after the look at the interrupts. -/
def round (m : Machine σ) : Cpu Unit :=
  Cpu.fetch 0 >>= fun op =>
    (if m.fullPc &&& m.bpmask = m.bpval then handleBreakpoint m.fullPc else pure ()) >>= fun _ =>
      insn op

/-- The code an event executes. -/
def eventCode (m : Machine σ) : Event → Cpu Unit
  | .insn => round m.pollIrq
  | .poke addr v => Cpu.writed addr v
  | .uart _ => pure ()

/-- The state in which this code starts. -/
def eventStart (m : Machine σ) : Event → Machine σ
  | .insn => m.pollIrq
  | _ => m

variable {script : Script σ} {m m' m₀ : Machine σ}

/-- A round does what the interrupt and `round` do. -/
theorem run_round (script : Script σ) (m : Machine σ) :
    (round m.pollIrq).run (cpuExec script) m.pollIrq = (m.step script).map fun m' => ((), m') := by
  have hinsn : ∀ op (m₁ : Machine σ), (insn op).run (cpuExec script) m₁ =
      (dispatch script op m₁).map fun m' => ((), m') := by
    intro op m₁
    unfold dispatch
    rw [Option.map_map]
    exact Option.map_id'.symm
  unfold round step nextop fetchOp
  rw [Prog.run_bind, Cpu.run_fetch, Option.bind_some, Prog.run_bind]
  dsimp only
  split_ifs
  · cases (handleBreakpoint m.pollIrq.fullPc).run (cpuExec script) m.pollIrq with
    | none => rfl
    | some y => exact hinsn _ _
  · exact hinsn _ _

/-- An event that succeeds has executed its code. The listener executes none. -/
lemma run_eventCode {e : Event} (h : happen script e m = some m') :
    (∃ d, e = .uart d) ∨
      (eventCode m e).run (cpuExec script) (eventStart m e) = some ((), m') := by
  cases e with
  | insn =>
    refine .inr ((run_round script m).trans ?_)
    rw [show m.step script = some m' from h, Option.map_some]
  | poke addr v =>
    have hwrite : m.writed script addr v = some m' := h
    exact .inr ((Cpu.run_writed addr v).trans (congrArg (Option.map _) hwrite))
  | uart d => exact .inl ⟨d, rfl⟩

/-! ## Histories -/

/-- The operations of an event, each with the state it is performed in. -/
def visited (script : Script σ) (m : Machine σ) (e : Event) : List (CpuOp × Machine σ) :=
  (eventCode m e).visits (cpuExec script) (eventStart m e)

/-- What the operations, the look at the interrupts and the listener keep holds wherever a run gets
and in whatever is tried then. -/
theorem run_visited {I : Machine σ → Prop}
    (hcpu : ∀ (o : CpuOp) m r m', I m → cpuExec script o m = some (r, m') → I m')
    (hpoll : ∀ m, I m → I m.pollIrq) (huart : ∀ d m, I m → I (m.uartListener d).2)
    {tr : List (Machine σ × Event)} (hrun : Run (Happens script) m₀ tr m) (hm₀ : I m₀)
    (e : Event) : ∀ x ∈ tr ++ [(m, e)], ∀ v ∈ visited script x.1 x.2, I v.2 := by
  obtain ⟨htr, hlast⟩ := hrun.invariant (fun _ _ _ hm h => happen_invariant hcpu hpoll huart hm h)
    hm₀
  intro x hx
  have hstart : I (eventStart x.1 x.2) := by
    have hx₁ : I x.1 := by
      rcases List.mem_append.1 hx with hx | hx
      · exact htr x hx
      · obtain rfl := List.mem_singleton.1 hx
        exact hlast
    cases x.2 with
    | insn => exact hpoll _ hx₁
    | poke addr v => exact hx₁
    | uart d => exact hx₁
  exact Prog.visits_invariant hcpu _ hstart

/-- The operations of a run. -/
def opHistory (script : Script σ) (tr : List (Machine σ × Event)) : List (CpuOp × Machine σ) :=
  tr.flatMap fun e => visited script e.1 e.2

/-- The operations together with the writes before each of them. -/
def withWrites : List (Byte × Byte) → List (CpuOp × Machine σ) →
    List (List (Byte × Byte) × CpuOp × Machine σ)
  | _, [] => []
  | w, v :: l => (w, v) :: withWrites (w ++ v.1.write.toList) l

/-- In two stretches of operations, those of the second come after all writes of the first. -/
lemma withWrites_append (w : List (Byte × Byte)) (l l' : List (CpuOp × Machine σ)) :
    withWrites w (l ++ l') =
      withWrites w l ++ withWrites (w ++ l.filterMap fun v => v.1.write) l' := by
  induction l generalizing w with
  | nil => rw [List.nil_append, List.filterMap_nil, List.append_nil]; rfl
  | cons v l ih =>
    have hlog : v.1.write.toList ++ l.filterMap (fun v => v.1.write) =
        (v :: l).filterMap fun v => v.1.write := by
      rw [List.filterMap_cons]
      cases v.1.write <;> rfl
    rw [List.cons_append, withWrites, withWrites, ih, List.cons_append, List.append_assoc, hlog]

section Rules

variable {I : List (Byte × Byte) → Machine σ → Prop}

/-- An invariant about the writes so far holds wherever a program gets, and at its end. -/
lemma visits_withWrites
    (hcpu : ∀ w (o : CpuOp) m r m', I w m → cpuExec script o m = some (r, m') →
      I (w ++ o.write.toList) m')
    {α : Type} (p : Cpu α) {w : List (Byte × Byte)} (hm : I w m) :
    (∀ x ∈ withWrites w (p.visits (cpuExec script) m), I x.1 x.2.2) ∧
      ∀ a m', p.run (cpuExec script) m = some (a, m') →
        I (w ++ (p.visits (cpuExec script) m).filterMap fun v => v.1.write) m' := by
  induction p generalizing w m with
  | done a =>
    refine ⟨fun x hx => absurd hx List.not_mem_nil, fun b m' hr => ?_⟩
    obtain ⟨-, rfl⟩ := Prod.mk.inj (Option.some.inj hr)
    rw [Prog.visits, List.filterMap_nil, List.append_nil]
    exact hm
  | node o k ih =>
    rw [Prog.visits_node, withWrites, List.forall_mem_cons, Prog.run_node]
    cases ho : cpuExec script o m with
    | none =>
      refine ⟨⟨hm, fun x hx => absurd hx List.not_mem_nil⟩, fun a m' hr => ?_⟩
      exact absurd hr (Option.some_ne_none _).symm
    | some y =>
      obtain ⟨hall, hend⟩ := ih y.1 (hcpu w o m y.1 y.2 hm ho)
      refine ⟨⟨hm, hall⟩, fun a m' hr => ?_⟩
      have hlast := hend a m' hr
      rw [List.append_assoc] at hlast
      rw [List.filterMap_cons]
      cases hw : o.write with
      | none =>
        rw [hw] at hlast
        exact hlast
      | some b =>
        rw [hw] at hlast
        exact hlast

/-- It holds wherever a run gets and in whatever is tried then. -/
theorem run_withWrites
    (hcpu : ∀ w (o : CpuOp) m r m', I w m → cpuExec script o m = some (r, m') →
      I (w ++ o.write.toList) m')
    (hpoll : ∀ w m, I w m → I w m.pollIrq) (huart : ∀ w d m, I w m → I w (m.uartListener d).2)
    {tr : List (Machine σ × Event)} (hrun : Run (Happens script) m₀ tr m)
    {w : List (Byte × Byte)} (hm₀ : I w m₀) (e : Event) :
    ∀ x ∈ withWrites w (opHistory script tr ++ visited script m e), I x.1 x.2.2 := by
  have hstart : ∀ {w : List (Byte × Byte)} {m : Machine σ} (e : Event), I w m →
      I w (eventStart m e) := by
    intro w m e hm
    cases e with
    | insn => exact hpoll w m hm
    | poke addr v => exact hm
    | uart d => exact hm
  induction hrun generalizing w with
  | refl c => exact (visits_withWrites hcpu _ (hstart e hm₀)).1
  | @head c c' c'' a tr hstep hrest ih =>
    obtain ⟨hvisits, hend⟩ := visits_withWrites hcpu (eventCode c a) (hstart a hm₀)
    have hnext : I (w ++ (visited script c a).filterMap fun v => v.1.write) c' := by
      rcases run_eventCode hstep with ⟨d, rfl⟩ | hcode
      · obtain rfl := Option.some.inj hstep
        rw [visited, eventCode, Prog.pure_eq_done, Prog.visits, List.filterMap_nil, List.append_nil]
        exact huart w d c hm₀
      · exact hend () c' hcode
    rw [opHistory, List.flatMap_cons, List.append_assoc, withWrites_append]
    intro x hx
    rcases List.mem_append.1 hx with hx | hx
    · exact hvisits x hx
    · exact ih hnext x hx

end Rules

end Machine

end Emu51

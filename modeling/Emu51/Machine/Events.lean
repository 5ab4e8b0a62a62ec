import Emu51.Library.Transition
import Emu51.Machine.System

/-!
# What events preserve

An event is a few operations of the CPU, with a look at the interrupts in front of an instruction,
or a delivery of the listener. So what the operations, the look at the interrupts and a delivery
preserve, all events preserve. The invariant may speak of the writes to special function registers
so far.
-/

namespace Emu51

/-- The write to a special function register an operation asks for. -/
def CpuOp.write : CpuOp → Option (Byte × Byte)
  | .writed a v => some (a, v)
  | _ => none

/-- `handle_breakpoint` reads registers and moves the breakpoint, but writes no special function
register. -/
lemma handleBreakpoint_write (fullPc : BitVec 32) :
    (handleBreakpoint fullPc).All fun o => o.write = none :=
  handleBreakpoint_all (fun _ => rfl) (fun _ => rfl) (fun _ _ => rfl) fullPc

namespace Machine

variable {σ : Type} {β : Type}

/-- The log of the operations an event asks for, in order, where `log` says what an operation
enters. -/
def eventLog (log : CpuOp → Option β) (script : Script σ) (m : Machine σ) : Event → List β
  | .insn =>
      match nextop script m with
      | none => []
      | some (op, m') => ((insn op).trace (cpuExec script) m').filterMap fun e => log e.1
  | .poke addr v => (log (.writed addr v)).toList
  | .uart _ => []

/-- The writes to special function registers an event asks for, in order. -/
def writes (script : Script σ) (m : Machine σ) : Event → List (Byte × Byte)
  | .insn =>
      match nextop script m with
      | none => []
      | some (op, m') => ((insn op).trace (cpuExec script) m').filterMap fun e => e.1.write
  | .poke addr v => [(addr, v)]
  | .uart _ => []

/-- The writes to special function registers in a run. -/
def writeHistory (script : Script σ) (tr : List (Machine σ × Event)) : List (Byte × Byte) :=
  tr.flatMap fun e => writes script e.1 e.2

variable {script : Script σ} {m m' m₀ : Machine σ}

/-- The writes of an event are a log of its operations, as the other logs of runs are. -/
lemma writes_eq (e : Event) : writes script m e = eventLog CpuOp.write script m e := by
  cases e <;> rfl

/-- The rule for an invariant about the log so far. -/
theorem happen_eventLog {f : CpuOp → Option β} {I : List β → Machine σ → Prop}
    (hcpu : ∀ l (o : CpuOp) m r m', I l m → cpuExec script o m = some (r, m') →
      I (l ++ (f o).toList) m')
    (hbreak : ∀ w, (handleBreakpoint w).All fun o => f o = none)
    (hpoll : ∀ l m, I l m → I l m.pollIrq) (huart : ∀ l d m, I l m → I l (m.uartListener d).2)
    {l : List β} {e : Event} (hm : I l m) (h : happen script e m = some m') :
    I (l ++ eventLog f script m e) m' := by
  cases e with
  | insn =>
    obtain ⟨op, m₁, hnext, hexec⟩ := step_eq_some h
    have hfetch : I l m₁ := by
      refine (fetchOp_invariant (I := I l) (D := fun o => f o = none) ?_ hbreak
        (hpoll l m hm) hnext).2
      intro o s r s' ho hs he
      have hstep := hcpu l o s r s' hs he
      rwa [ho, Option.toList_none, List.append_nil] at hstep
    obtain ⟨⟨u, m₂⟩, hrun, rfl⟩ := Option.map_eq_some_iff.1 hexec
    rw [eventLog, hnext]
    exact Prog.run_logged (h := cpuExec script) (I := I)
      (fun l o s r s' hs he => hcpu l o s r s' hs he) hfetch hrun
  | poke addr v =>
    exact hcpu l (.writed addr v) m () m' hm (congrArg (Option.map _) h)
  | uart d =>
    obtain rfl := Option.some.inj h
    rw [eventLog, List.append_nil]
    exact huart l d m hm

/-- The rule for an invariant about the writes so far. -/
theorem happen_logged {I : List (Byte × Byte) → Machine σ → Prop}
    (hcpu : ∀ l (o : CpuOp) m r m', I l m → cpuExec script o m = some (r, m') →
      I (l ++ o.write.toList) m')
    (hpoll : ∀ l m, I l m → I l m.pollIrq) (huart : ∀ l d m, I l m → I l (m.uartListener d).2)
    {l : List (Byte × Byte)} {e : Event} (hm : I l m) (h : happen script e m = some m') :
    I (l ++ writes script m e) m' := by
  rw [writes_eq]
  exact happen_eventLog hcpu handleBreakpoint_write hpoll huart hm h

/-- The rule for an invariant that is kept as long as all writes are allowed. -/
theorem happen_invariant_of_writes {I : Machine σ → Prop} {W : Byte → Byte → Prop}
    (hcpu : ∀ (o : CpuOp) m r m', (∀ w, o.write = some w → W w.1 w.2) → I m →
      cpuExec script o m = some (r, m') → I m')
    (hpoll : ∀ m, I m → I m.pollIrq) (huart : ∀ d m, I m → I (m.uartListener d).2) {e : Event}
    (hw : ∀ w ∈ writes script m e, W w.1 w.2) (hm : I m) (h : happen script e m = some m') :
    I m' := by
  refine happen_logged (I := fun l m => (∀ w ∈ l, W w.1 w.2) → I m) (l := []) ?_ ?_ ?_
    (fun _ => hm) h ?_
  · intro l o s r s' hs he hl
    rw [List.forall_mem_append] at hl
    exact hcpu o s r s' (fun w hw => hl.2 w (Option.mem_toList.2 hw)) (hs hl.1) he
  · exact fun l m hs hl => hpoll m (hs hl)
  · exact fun l d m hs hl => huart d m (hs hl)
  · exact hw

/-- The rule for an invariant that all writes keep. -/
theorem happen_invariant {I : Machine σ → Prop}
    (hcpu : ∀ (o : CpuOp) m r m', I m → cpuExec script o m = some (r, m') → I m')
    (hpoll : ∀ m, I m → I m.pollIrq) (huart : ∀ d m, I m → I (m.uartListener d).2) {e : Event}
    (hm : I m) (h : happen script e m = some m') : I m' :=
  happen_invariant_of_writes (W := fun _ _ => True) (fun o m r m' _ => hcpu o m r m') hpoll huart
    (fun _ _ => trivial) hm h

end Machine

end Emu51

import Emu51.Debug.Breakpoint
import Emu51.Machine.Setup
import Emu51.Uart.Scon
import Emu51.Uart.Threads

/-!
# The mutex of the UART

The listener's section and the CPU's sections, each of one access, take effect at their last access,
because nothing that the CPU does without the mutex depends on `SBUF` or changes `SCON`. So what the
two threads do, lock by lock, they also do when the CPU makes one access at a time and the listener
passes through its section in one step (`Pair`). And no thread ever waits for itself.
-/

namespace Emu51

variable {σ : Type}

namespace Machine

variable {script : Script σ} {m m' : Machine σ} {d : Byte}

/-! ## Code that does not see `SBUF` -/

/-- A store to `SBUF` leaves every other cell. -/
lemma ramsfr_setSbuf (m : Machine σ) (d : Byte) {c : Cell} (hc : c ≠ dataCell SBUF) :
    (m.setSfr SBUF d).ramsfr c = m.ramsfr c := by
  rw [setCell_apply, if_neg hc]

/-- A store to `SBUF` leaves every other register. -/
lemma sfr_setSbuf (m : Machine σ) (d : Byte) {a : Byte} (ha : a ≠ SBUF) :
    (m.setSfr SBUF d).sfr a = m.sfr a := m.sfr_setSfr_of_ne d ha

/-- A store to `SBUF` leaves internal memory. -/
lemma readi_setSbuf (m : Machine σ) (d a : Byte) : (m.setSfr SBUF d).readi a = m.readi a :=
  m.ramsfr_setSbuf d (iramCell_ne_sfr a (by decide))

/-- A push and a store to `SBUF` can change places. -/
lemma push_setSbuf (m : Machine σ) (d x : Byte) :
    (m.setSfr SBUF d).push x = (m.push x).setSfr SBUF d := by
  have hsp : dataCell SBUF ≠ dataCell SP := by decide
  have hcell : dataCell SBUF ≠ iramCell (m.sfr SP + 1) := (iramCell_ne_sfr _ (by decide)).symm
  have hval : (m.setSfr SBUF d).sfr SP = m.sfr SP := m.sfr_setSbuf d (by decide)
  unfold push
  rw [hval, writei, writei, setSfr, setSfr, setSfr, setSfr, setCell_comm _ hsp,
    setCell_comm _ hcell]

/-- A write to external data memory and a store to `SBUF` can change places. -/
lemma writex_setSbuf (m : Machine σ) (d : Byte) (a : Word) (v : Byte) :
    (m.setSfr SBUF d).writex a v = (m.writex a v).setSfr SBUF d := by
  unfold writex
  rw [show (m.setSfr SBUF d).xramfnwr = m.xramfnwr from rfl,
    show (m.setSfr SBUF d).xrampage = m.xrampage from rfl]
  split
  · rfl
  · split
    · rfl
    · rfl

/-- A bit that an interrupt looks at does not depend on `SBUF`. -/
lemma sfrBitval_setSbuf (m : Machine σ) (d : Byte) {b : Option SfrBit}
    (hb : ∀ x ∈ b, x.data ≠ SBUF) : (m.setSfr SBUF d).sfrBitval b = m.sfrBitval b := by
  cases b with
  | none => rfl
  | some x => rw [sfrBitval, sfrBitval, m.sfr_setSbuf d (hb x rfl)]

/-- No interrupt of `main` has `SBUF` as its enabling register, its source or its priority. -/
lemma mainIrqs_data : ∀ i, (∀ b ∈ (mainIrqs i).enable, b.data ≠ SBUF) ∧
    (∀ b ∈ (mainIrqs i).source, b.data ≠ SBUF) ∧ ∀ b ∈ (mainIrqs i).prio, b.data ≠ SBUF := by
  decide

/-- Updating the request of one interrupt and a store to `SBUF` can change places. -/
lemma sfrNotifyIrq_setSbuf (hirqs : m.irqs = mainIrqs) (d : Byte) (i : Fin 32) :
    (m.setSfr SBUF d).sfrNotifyIrq i = (m.sfrNotifyIrq i).setSfr SBUF d := by
  obtain ⟨henable, hsource, hprio⟩ := mainIrqs_data i
  rw [← hirqs] at henable hsource hprio
  unfold sfrNotifyIrq
  dsimp only
  rw [setCell_irqs, m.sfrBitval_setSbuf d henable, m.sfrBitval_setSbuf d hsource,
    m.sfrBitval_setSbuf d hprio]
  split_ifs <;> rfl

/-- Calling the listeners and a store to `SBUF` can change places. -/
lemma sfrNotify_setSbuf (hirqs : m.irqs = mainIrqs) (d a : Byte) :
    (m.setSfr SBUF d).sfrNotify a = (m.sfrNotify a).setSfr SBUF d := by
  unfold sfrNotify
  rw [setCell_ramsfrnotifiers]
  generalize m.ramsfrnotifiers a = idxs
  induction idxs generalizing m with
  | nil => rfl
  | cons i idxs ih =>
    rw [List.foldl_cons, List.foldl_cons, sfrNotifyIrq_setSbuf hirqs]
    refine ih ?_
    obtain ⟨l0, l1, hl⟩ := m.sfrNotifyIrq_eq i
    rw [hl]
    exact hirqs

/-- The choice of an interrupt and a store to `SBUF` can change places. -/
lemma irqVec_setSbuf (m : Machine σ) (d : Byte) (mask : BitVec 32) (level : ℕ) :
    (m.setSfr SBUF d).irqVec mask level =
      ((m.irqVec mask level).1, (m.irqVec mask level).2.setSfr SBUF d) := by
  unfold irqVec
  dsimp only
  rw [setCell_irqlevel, setCell_irqs]
  split_ifs <;> rfl

/-- So can the choice between the two levels. -/
lemma irqSelect_setSbuf (m : Machine σ) (d : Byte) :
    (m.setSfr SBUF d).irqSelect = (m.irqSelect.1, m.irqSelect.2.setSfr SBUF d) := by
  unfold irqSelect
  rw [setCell_irqpendl0, setCell_irqpendl1, irqVec_setSbuf, irqVec_setSbuf]
  split_ifs <;> rfl

/-- Taking an interrupt and a store to `SBUF` can change places. -/
lemma pollIrq_setSbuf (m : Machine σ) (d : Byte) :
    (m.setSfr SBUF d).pollIrq = m.pollIrq.setSfr SBUF d := by
  have hpend : (m.setSfr SBUF d).irqpend = m.irqpend := by
    unfold irqpend ea
    rw [m.sfr_setSbuf d (by decide)]
    rfl
  unfold pollIrq
  rw [hpend]
  split_ifs
  · unfold handleIrq
    rw [irqSelect_setSbuf]
    dsimp only
    split_ifs
    · rfl
    · have hpc : (m.irqSelect.2.setSfr SBUF d).pc = m.irqSelect.2.pc := rfl
      rw [hpc, push_setSbuf, push_setSbuf]
      rfl
  · rfl

/-- So can the fetch of an opcode, the look at the interrupts included. -/
lemma nextop_setSbuf (ht : m.ramsfrtrap = sfrInitTrap) (d : Byte) :
    nextop script (m.setSfr SBUF d) =
      (nextop script m).map fun y => (y.1, y.2.setSfr SBUF d) := by
  have htrap : m.pollIrq.ramsfrtrap = sfrInitTrap := m.pollIrq_setup.ramsfrtrap.trans ht
  have hsp : m.pollIrq.ramsfrtrap SP = false := (congrFun htrap SP).trans (by decide)
  have hdpl : m.pollIrq.ramsfrtrap DPL0 = false := (congrFun htrap DPL0).trans (by decide)
  have hspval : (m.pollIrq.setSfr SBUF d).sfr SP = m.pollIrq.sfr SP :=
    m.pollIrq.sfr_setSbuf d (by decide)
  unfold nextop fetchOp
  rw [pollIrq_setSbuf, run_handleBreakpoint_eq (m := m.pollIrq.setSfr SBUF d) hsp hdpl,
    run_handleBreakpoint_eq hsp hdpl, hspval, readi_setSbuf, readi_setSbuf]
  have hpc : (m.pollIrq.setSfr SBUF d).fullPc = m.pollIrq.fullPc := rfl
  have hmask : (m.pollIrq.setSfr SBUF d).bpmask = m.pollIrq.bpmask := rfl
  have hval : (m.pollIrq.setSfr SBUF d).bpval = m.pollIrq.bpval := rfl
  rw [hpc, hmask, hval]
  by_cases hbp : m.pollIrq.fullPc &&& m.pollIrq.bpmask = m.pollIrq.bpval
  · rw [if_pos hbp, if_pos hbp, Option.map_some, Option.map_some, Option.map_some]
    split_ifs <;> rfl
  · rw [if_neg hbp, if_neg hbp]
    rfl

/-! ## Free accesses -/

/-- A free access does not see `SBUF` and leaves it alone. -/
lemma accessExec_setSbuf (hirqs : m.irqs = mainIrqs) {o : Access σ} (ho : o.Free) (d : Byte) :
    accessExec script o (m.setSfr SBUF d) =
      (accessExec script o m).map fun y => (y.1, y.2.setSfr SBUF d) := by
  have hset : ∀ {c : Cell} (v : Byte), dataCell SBUF ≠ c →
      (m.setSfr SBUF d).setCell c v = (m.setCell c v).setSfr SBUF d :=
    fun v hc => m.setCell_comm hc d v
  have hsfr : ∀ {a : Byte}, a ≠ SBUF → (m.setSfr SBUF d).sfr a = m.sfr a :=
    fun ha => m.sfr_setSbuf d ha
  have hne : ∀ {a : Byte}, a ≠ SBUF → dataCell SBUF ≠ dataCell a :=
    fun ha h => ha (dataCell_inj.1 h).symm
  have hdph : (m.dph : Byte) ≠ SBUF := by obtain ⟨a, rfl | rfl⟩ := m.dph <;> decide
  have hdpl : (m.dpl : Byte) ≠ SBUF := by obtain ⟨a, rfl | rfl⟩ := m.dpl <;> decide
  cases o with
  | cpu o =>
    cases o with
    | readd a => exact absurd ho id
    | writed a v => exact absurd ho id
    | writex a v => exact congrArg (fun m' => some ((), m')) (m.writex_setSbuf d a v)
    | xramP2addr => exact congrArg (fun v => some (v, m.setSfr SBUF d)) (hsfr (by decide))
    | readi a => exact congrArg (fun v => some (v, m.setSfr SBUF d)) (m.readi_setSbuf d a)
    | writei a v =>
      exact congrArg (fun m' => some ((), m')) (hset v (iramCell_ne_sfr a (by decide)).symm)
    | getRx n =>
      exact congrArg (fun v => some (v, m.setSfr SBUF d))
        (m.ramsfr_setSbuf d (regCell_ne_sfr m.reg n (by decide)))
    | setRx n v =>
      exact congrArg (fun m' => some ((), m')) (hset v (regCell_ne_sfr m.reg n (by decide)).symm)
    | get r =>
      exact congrArg (fun v => some (v, m.setSfr SBUF d)) (hsfr (by cases r <;> decide))
    | set r v =>
      exact congrArg (fun m' => some ((), m')) (hset v (hne (by cases r <;> decide)))
    | getDptr =>
      have hdptr : (m.setSfr SBUF d).dptr = m.dptr := congrArg₂ word (hsfr hdph) (hsfr hdpl)
      exact congrArg (fun w => some (w, m.setSfr SBUF d)) hdptr
    | setDph v => exact congrArg (fun m' => some ((), m')) (hset v (hne hdph))
    | setDpl v => exact congrArg (fun m' => some ((), m')) (hset v (hne hdpl))
    | _ => rfl
  | lua o =>
    cases o with
    | peekSfr addr => exact absurd ho id
    | pokeSfr addr v => exact absurd ho id
    | pokeXram addr v => exact congrArg (fun m' => some ((), m')) (m.writex_setSbuf d _ _)
    | peekRom addr =>
      change (m.getBuffer "rom").map _ = ((m.getBuffer "rom").map _).map _
      rw [Option.map_map]
      rfl
    | mapRom name start len ofs =>
      change (m.getBuffer name).map _ = ((m.getBuffer name).map _).map _
      rw [Option.map_map]
      rfl
    | mapXram name start len ofs readonly =>
      change (m.getBuffer name).map _ = ((m.getBuffer name).map _).map _
      rw [Option.map_map]
      refine congrArg (Option.map · _) (funext fun b => ?_)
      dsimp only [Function.comp_apply]
      split_ifs <;> rfl
    | _ => rfl
  | load a => exact congrArg (fun v => some (v, m.setSfr SBUF d)) (hsfr ho)
  | store a v => exact congrArg (fun m' => some ((), m')) (hset v (hne ho.1))
  | refreshPsw =>
    have hpsw : (m.setSfr SBUF d).refreshPsw = m.refreshPsw.setSfr SBUF d := by
      have hstore : ∀ v, (m.setSfr SBUF d).setSfr PSW v = (m.setSfr PSW v).setSfr SBUF d :=
        fun v => hset v (hne (by decide))
      unfold refreshPsw
      dsimp only
      rw [hsfr (by decide), hsfr (by decide), hstore, sfr_setSbuf _ d (by decide)]
      rfl
    exact congrArg (fun m' => some ((), m')) hpsw
  | window =>
    have hreg : regBase ((m.setSfr SBUF d).sfr PSW) = regBase (m.sfr PSW) :=
      congrArg regBase (hsfr (by decide))
    exact congrArg (fun r => some ((), (m.setSfr SBUF d).setReg r)) hreg
  | notify a => exact congrArg (fun m' => some ((), m')) (sfrNotify_setSbuf hirqs d a)
  | _ => rfl

/-- An access that may be made without the mutex leaves `SCON` alone. -/
lemma accessExec_scon {o : Access σ} (ho : o.Free) {r : o.Res}
    (h : accessExec script o m = some (r, m')) : m'.sfr SCON = m.sfr SCON := by
  cases o with
  | load a =>
    obtain ⟨-, rfl⟩ := Prod.mk.inj (Option.some.inj h)
    rfl
  | store a v => exact (accessExec_quiet (o := .store a v) ho.2 h).1
  | cpu o =>
    refine (accessExec_quiet (o := .cpu o) ?_ h).1
    cases o <;> first | exact absurd ho id | trivial
  | lua o => exact (accessExec_quiet (o := .lua o) ho h).1
  | _ =>
    refine (accessExec_quiet ?_ h).1
    trivial

/-- No access, single as they are here, changes what `main` has set up. -/
lemma accessExec_setup {o : Access σ} {r : o.Res} (h : accessExec script o m = some (r, m')) :
    SameSetup m m' := by
  cases o with
  | cpu o => exact cpuExec_setup h
  | lua o =>
    have hlua : luaExec (busAt script 0) o m = some (r, m') := h
    cases o with
    | peekSfr addr => exact absurd h (Option.some_ne_none _).symm
    | pokeSfr addr v => exact absurd h (Option.some_ne_none _).symm
    | _ => exact (luaExec_sameCore hlua trivial).setup
  | notify a =>
    obtain ⟨-, rfl⟩ := Prod.mk.inj (Option.some.inj h)
    obtain ⟨l0, l1, hl⟩ := m.sfrNotify_eq a
    rw [hl]
    exact ⟨rfl, rfl, rfl⟩
  | fail => exact absurd h (Option.some_ne_none _).symm
  | _ =>
    obtain ⟨-, rfl⟩ := Prod.mk.inj (Option.some.inj h)
    exact ⟨rfl, rfl, rfl⟩

end Machine

/-! ## The discipline -/

open Machine

/-- The operations that may be performed without the mutex. -/
def ThreadOp.Free : ThreadOp σ → Prop
  | .access o => o.Free
  | _ => True

/-- The operations of the listener's section before the last one: to read `SCON`, to write
`SBUF`. -/
def ThreadOp.Mover : ThreadOp σ → Prop
  | .access (.load a) => a = SCON
  | .access (.store a _) => a = SBUF
  | _ => False

/-- What the code may rely on. -/
def ThreadOp.Expected : (o : ThreadOp σ) → o.Res → Prop
  | .access o, r => o.Expected r
  | _, _ => True

/-- The state is as `main` has set it up. -/
structure Line.SetUp (l : Line σ) : Prop where
  ramsfrtrap : l.machine.ramsfrtrap = sfrInitTrap
  irqs : l.machine.irqs = mainIrqs

variable {script : Script σ} {l l' l₁ l₂ : Line σ}

/-- What `main` has set up stays as long as the machine's set-up does, whatever bytes are to come.
-/
lemma Line.SetUp.same {m : Machine σ} (h : l.SetUp) (hsame : SameSetup l.machine m)
    (ds : List Byte) : (Line.mk m ds).SetUp :=
  ⟨hsame.ramsfrtrap.trans h.ramsfrtrap, hsame.irqs.trans h.irqs⟩

/-- A step of either thread finds what the code relies on, and leaves it. -/
lemma threadExec_setUp {o : ThreadOp σ} {r : o.Res} (hl : l.SetUp)
    (h : threadExec script o l = some (r, l')) : o.Expected r ∧ l'.SetUp := by
  cases o with
  | access o =>
    obtain ⟨⟨r', m'⟩, hr, heq⟩ := Option.map_eq_some_iff.1 h
    obtain ⟨rfl, rfl⟩ := Prod.mk.inj heq
    refine ⟨?_, hl.same (accessExec_setup hr) _⟩
    cases o with
    | trapped a =>
      obtain ⟨rfl, -⟩ := Prod.mk.inj (Option.some.inj hr)
      exact congrFun hl.ramsfrtrap a
    | _ => trivial
  | nextop =>
    obtain ⟨⟨r', m'⟩, hr, heq⟩ := Option.map_eq_some_iff.1 h
    obtain ⟨-, rfl⟩ := Prod.mk.inj heq
    exact ⟨trivial, hl.same (nextop_setup hr) _⟩
  | recv =>
    obtain ⟨m, ds⟩ := l
    cases ds with
    | nil => exact absurd h (Option.some_ne_none _).symm
    | cons d ds =>
      obtain ⟨-, rfl⟩ := Prod.mk.inj (Option.some.inj h)
      exact ⟨trivial, hl.ramsfrtrap, hl.irqs⟩

/-- An operation of a thread that may be made without the mutex leaves `SCON` alone. -/
lemma threadExec_scon (hl : l.SetUp) {f : ThreadOp σ} (hf : f.Free) {q : f.Res}
    (h : threadExec script f l = some (q, l')) :
    l'.machine.sfr SCON = l.machine.sfr SCON := by
  cases f with
  | access o =>
    obtain ⟨⟨r', m'⟩, hr, heq⟩ := Option.map_eq_some_iff.1 h
    obtain ⟨-, rfl⟩ := Prod.mk.inj heq
    exact accessExec_scon hf hr
  | nextop =>
    obtain ⟨⟨r', m'⟩, hr, heq⟩ := Option.map_eq_some_iff.1 h
    obtain ⟨-, rfl⟩ := Prod.mk.inj heq
    obtain ⟨mask, val, hnext⟩ := nextop_eq script hl.ramsfrtrap
    obtain ⟨-, rfl⟩ := Prod.mk.inj (Option.some.inj (hr.symm.trans hnext))
    exact l.machine.pollIrq_sfr (by decide) (by decide)
  | recv =>
    obtain ⟨m, ds⟩ := l
    cases ds with
    | nil => exact absurd h (Option.some_ne_none _).symm
    | cons d ds =>
      obtain ⟨-, rfl⟩ := Prod.mk.inj (Option.some.inj h)
      rfl

/-- A free operation does the same before and after a write to `SBUF`. -/
lemma threadExec_setSbuf (hl : l.SetUp) {f : ThreadOp σ} (hf : f.Free) (d : Byte) :
    threadExec script f { l with machine := l.machine.setSfr SBUF d } =
      (threadExec script f l).map fun y =>
        (y.1, { y.2 with machine := y.2.machine.setSfr SBUF d }) := by
  cases f with
  | access o =>
    change (accessExec script o (l.machine.setSfr SBUF d)).map _ =
      ((accessExec script o l.machine).map _).map _
    rw [accessExec_setSbuf hl.irqs hf, Option.map_map, Option.map_map]
    rfl
  | nextop =>
    change (Machine.nextop script (l.machine.setSfr SBUF d)).map _ =
      ((Machine.nextop script l.machine).map _).map _
    rw [nextop_setSbuf hl.ramsfrtrap, Option.map_map, Option.map_map]
    rfl
  | recv =>
    obtain ⟨m, ds⟩ := l
    cases ds <;> rfl

/-- A free operation may as well come before the listener's read of `SCON` or write to `SBUF`. -/
lemma threadExec_commute {o f : ThreadOp σ} {r : o.Res} {q : f.Res} (hl : l.SetUp) (ho : o.Mover)
    (hf : f.Free) (hr : threadExec script o l = some (r, l₁))
    (hq : threadExec script f l₁ = some (q, l₂)) :
    ∃ l', threadExec script f l = some (q, l') ∧ threadExec script o l' = some (r, l₂) := by
  cases o with
  | access o =>
    cases o with
    | load a =>
      obtain rfl : a = SCON := ho
      obtain ⟨rfl, rfl⟩ := Prod.mk.inj (Option.some.inj hr)
      refine ⟨l₂, hq, congrArg some (Prod.ext ?_ rfl)⟩
      exact threadExec_scon hl hf hq
    | store a d =>
      obtain rfl : a = SBUF := ho
      obtain ⟨-, rfl⟩ := Prod.mk.inj (Option.some.inj hr)
      have hset : threadExec script f { l with machine := l.machine.setSfr SBUF d } = _ :=
        threadExec_setSbuf hl hf d
      obtain ⟨⟨q', l'⟩, hq', heq⟩ := Option.map_eq_some_iff.1 (hset.symm.trans hq)
      obtain ⟨rfl, rfl⟩ := Prod.mk.inj heq
      exact ⟨l', hq', rfl⟩
    | _ => exact absurd ho id
  | nextop => exact absurd ho id
  | recv => exact absurd ho id

/-- How the threads use `uart_mutex`. -/
def uartDiscipline (script : Script σ) : Discipline (threadExec script) where
  Inv := Line.SetUp
  Rely := ThreadOp.Expected
  Free := ThreadOp.Free
  Mover := ThreadOp.Mover
  step := threadExec_setUp
  commute := threadExec_commute

/-! ## Both threads keep it -/

open Locked

/-- What is done with the mutex held never fails. -/
lemma threadExec_isSome {o : Access σ} (ho : o.Simple) (l : Line σ) :
    (threadExec script (.access o) l).isSome := by
  cases o with
  | load a => rfl
  | store a v => rfl
  | _ => exact absurd ho id

/-- Code that guards its accesses uses the mutex as the discipline says. -/
lemma Guards.disciplined {α : Type} {p : Locked σ α} {q : Accesses σ α} (h : Guards p q) :
    (uartDiscipline script).Disciplined p .outside := by
  induction h with
  | done a => rfl
  | free ho _ ih => exact ⟨ho, ih⟩
  | locked ho _ ih =>
    exact ⟨rfl, fun l _ => threadExec_isSome ho l, .inr fun r hr => ⟨by decide, ih r hr⟩⟩

/-- So does one round of the CPU. -/
lemma disciplined_cpuLoop : (uartDiscipline script).Disciplined (cpuLoop script) .outside :=
  ⟨trivial, fun op _ => (Guards.insnCode script op).disciplined⟩

/-- The listener's section: a read of `SCON`, and if `RI` is clear, a write to `SBUF`, a read of
`SCON` and, at the end, a write to it. -/
lemma disciplined_uartLoop (hand : Option Byte) :
    (uartDiscipline script).Disciplined (uartLoop hand) .outside := by
  have htotal : ∀ {o : Access σ}, o.Simple → ∀ l, (uartDiscipline script).Inv l →
      (threadExec script (.access o) l).isSome := fun ho l _ => threadExec_isSome ho l
  cases hand with
  | none => exact ⟨trivial, fun _ _ => rfl⟩
  | some d =>
    refine ⟨rfl, htotal trivial, .inl ⟨rfl, fun scon _ => ?_⟩⟩
    change (uartDiscipline script).Disciplined
      (listenerTake d scon >>= fun ok => .done (if ok then none else some d)) .inside
    unfold listenerTake
    split_ifs
    · refine ⟨htotal trivial, .inl ⟨rfl, fun _ _ => ⟨htotal trivial, .inl ⟨rfl, ?_⟩⟩⟩⟩
      exact fun scon' _ => ⟨htotal trivial, .inr fun _ _ => ⟨by decide, rfl⟩⟩
    · exact ⟨by decide, rfl⟩

/-- So does one round of either thread. -/
lemma disciplined_threadLoop (i : Party) (b : Loop i) :
    (uartDiscipline script).Disciplined (threadLoop script i b) .outside := by
  cases i with
  | cpu => exact disciplined_cpuLoop
  | uart => exact disciplined_uartLoop b

/-! ## One access at a time -/

/-- The two threads without the mutex: the machine, the bytes that are still to come, what is left
of the instruction, and the byte the listener has at hand. -/
structure Pair (σ : Type) where
  machine : Machine σ
  coming : List Byte
  rest : Accesses σ Unit
  hand : Option Byte

/-- The CPU makes one access or begins with the next instruction; the listener receives a byte or
passes through its section. -/
def pairTurn (script : Script σ) (i : Party) (p : Pair σ) : Option (Pair σ) :=
  match i with
  | .cpu =>
      match p.rest with
      | .done _ =>
          (nextop script p.machine).map fun y =>
            { p with machine := y.2, rest := insnSteps script y.1 }
      | .node o k =>
          (accessExec script o p.machine).map fun y => { p with machine := y.2, rest := k y.1 }
  | .uart =>
      match p.hand with
      | none => p.coming.head?.map fun d => { p with coming := p.coming.tail, hand := some d }
      | some d =>
          let y := p.machine.uartListener d
          some { p with machine := y.2, hand := if y.1 then none else some d }

/-- The turns as a transition relation. -/
def PairTurns (script : Script σ) (p : Pair σ) (i : Party) (p' : Pair σ) : Prop :=
  pairTurn script i p = some p'

/-- The threads of the emulator. -/
abbrev UartThreads (σ : Type) := Threads (ThreadOp σ) ThreadOp.Res (Line σ) Loop

/-- A configuration of the threads, no section being under way, and one without the mutex. -/
structure Views (script : Script σ) (c : UartThreads σ) (p : Pair σ) : Prop where
  shared : c.shared = ⟨p.machine, p.coming⟩
  setUp : c.shared.SetUp
  cpu : Guards (c.code .cpu) p.rest ∨ p.rest = .done () ∧ c.code .cpu = cpuLoop script
  uart : c.code .uart = .done p.hand ∨ c.code .uart = uartLoop p.hand

/-- The section of the listener, executed in one go. -/
lemma critical_listenerPass (d : Byte) (m : Machine σ) (ds : List Byte) :
    LockProg.critical (threadExec script)
      ((access (.load SCON) >>= listenerTake d) >>= fun ok =>
        .done (if ok then none else some d) : Locked σ (Option Byte)) ⟨m, ds⟩ =
      some (.done (if (m.uartListener d).1 then none else some d), ⟨(m.uartListener d).2, ds⟩) := by
  change LockProg.critical (threadExec script)
    (listenerTake d (m.sfr SCON) >>= fun ok => .done (if ok then none else some d)) ⟨m, ds⟩ = _
  unfold listenerTake uartListener
  by_cases hri : m.sfr SCON &&& SCON_RI = 0
  · rw [if_pos hri, if_pos hri]
    rfl
  · rw [if_neg hri, if_neg hri]
    rfl

variable {c c₁ : UartThreads σ} {p : Pair σ} {m : Machine σ} {ds : List Byte}

/-- When the listener goes on with its loop, the configuration is still viewed as the pair. -/
lemma Views.go_uart (hv : Views script c p) (hsetUp : (Line.mk m ds).SetUp) {hand : Option Byte}
    {q : Locked σ (Option Byte)} (hq : q = .done hand ∨ q = uartLoop hand) :
    Views script { c.go .uart q with shared := ⟨m, ds⟩ } ⟨m, ds, p.rest, hand⟩ := by
  have hself : (c.go .uart q).code .uart = q := Threads.go_code_self c .uart q
  have hcpu : (c.go .uart q).code .cpu = c.code .cpu :=
    Threads.go_code_of_ne c (i := .uart) q (by decide)
  exact ⟨rfl, hsetUp, hcpu.symm ▸ hv.cpu, hself.symm ▸ hq⟩

/-- When the CPU goes on with its code, the configuration is still viewed as the pair. -/
lemma Views.go_cpu (hv : Views script c p) (hsetUp : (Line.mk m p.coming).SetUp)
    {rest : Accesses σ Unit} {q : Locked σ Unit}
    (hq : Guards q rest ∨ rest = .done () ∧ q = cpuLoop script) :
    Views script { c.go .cpu q with shared := ⟨m, p.coming⟩ } ⟨m, p.coming, rest, p.hand⟩ := by
  have hself : (c.go .cpu q).code .cpu = q := Threads.go_code_self c .cpu q
  have huart : (c.go .cpu q).code .uart = c.code .uart :=
    Threads.go_code_of_ne c (i := .cpu) q (by decide)
  exact ⟨rfl, hsetUp, hself.symm ▸ hq, huart.symm ▸ hv.uart⟩

/-- A turn of the listener, sections taken whole, is a turn of the pair or none. -/
lemma Views.uart_turn (hv : Views script c p)
    (ht : Threads.TurnsWhole (threadExec script) (threadLoop script) c .uart c₁) :
    ∃ tr p₁, Run (PairTurns script) p tr p₁ ∧ Views script c₁ p₁ := by
  unfold Threads.TurnsWhole at ht
  obtain ⟨m, ds, rest, hand⟩ := p
  obtain ⟨s, owner, code⟩ := c
  obtain rfl : s = ⟨m, ds⟩ := hv.shared
  have hsetUp : (Line.mk m ds).SetUp := hv.setUp
  rcases hv.uart with hdone | hloop
  · rw [Threads.whole_done hdone] at ht
    obtain rfl := Option.some.inj ht
    exact ⟨[], _, .refl _, hv.go_uart hsetUp (.inr rfl)⟩
  · cases hand with
    | none =>
      rw [Threads.whole_act (o := ThreadOp.recv) hloop] at ht
      obtain ⟨⟨d, l⟩, hrecv, rfl⟩ := Option.map_eq_some_iff.1 ht
      cases ds with
      | nil => exact absurd hrecv (Option.some_ne_none _).symm
      | cons d' ds =>
        obtain ⟨rfl, rfl⟩ := Prod.mk.inj (Option.some.inj hrecv)
        have hstep : PairTurns script ⟨m, d' :: ds, rest, none⟩ .uart ⟨m, ds, rest, some d'⟩ := rfl
        exact ⟨_, _, .head hstep (.refl _), hv.go_uart (hsetUp.same (.refl m) ds) (.inl rfl)⟩
    | some d =>
      rw [Threads.whole_lock hloop] at ht
      obtain ⟨y, hrun, rfl⟩ := Option.map_eq_some_iff.1 ht
      obtain rfl := Option.some.inj ((critical_listenerPass d m ds).symm.trans hrun)
      have hstep : PairTurns script ⟨m, ds, rest, some d⟩ .uart ⟨(m.uartListener d).2, ds, rest,
        if (m.uartListener d).1 then none else some d⟩ := rfl
      exact ⟨_, _, .head hstep (.refl _),
        hv.go_uart (hsetUp.same (m.uartListener_setup d) ds) (.inl rfl)⟩

/-- Code with locks begins like the code without them. -/
lemma Guards.cases {α : Type} {q : Locked σ α} {r : Accesses σ α} (h : Guards q r) :
    (∃ a, q = .done a ∧ r = .done a) ∨ ∃ (o : Access σ) (k : o.Res → Locked σ α)
      (k' : o.Res → Accesses σ α), r = .node o k' ∧ (∀ x, o.Expected x → Guards (k x) (k' x)) ∧
        (q = .node (.act (.access o)) k ∨ q = .node .lock fun _ =>
          .node (.act (.access o)) fun x => .node .unlock fun _ => k x) := by
  cases h with
  | done a => exact .inl ⟨a, rfl, rfl⟩
  | free ho hk => exact .inr ⟨_, _, _, rfl, hk, .inl rfl⟩
  | locked ho hk => exact .inr ⟨_, _, _, rfl, hk, .inr rfl⟩

/-- An access of the CPU, with or without the mutex, is that access of the pair. -/
lemma Views.access_turn (hv : Views script c p) {o : Access σ} {k : o.Res → Locked σ Unit}
    {k' : o.Res → Accesses σ Unit} (hrest : p.rest = .node o k')
    (hk : ∀ x, o.Expected x → Guards (k x) (k' x)) {x : o.Res}
    (hx : accessExec script o p.machine = some (x, m)) :
    ∃ tr p₁, Run (PairTurns script) p tr p₁ ∧
      Views script { c.go .cpu (k x) with shared := ⟨m, p.coming⟩ } p₁ := by
  have hexec : threadExec script (.access o) ⟨p.machine, p.coming⟩ = some (x, ⟨m, p.coming⟩) :=
    congrArg (Option.map _) hx
  obtain ⟨hexpected, hsetUp⟩ := threadExec_setUp (hv.shared ▸ hv.setUp) hexec
  have hstep : PairTurns script p .cpu ⟨m, p.coming, k' x, p.hand⟩ := by
    unfold PairTurns pairTurn
    rw [hrest]
    dsimp only
    rw [hx, Option.map_some]
  exact ⟨_, _, .head hstep (.refl _), hv.go_cpu hsetUp (.inl (hk x hexpected))⟩

/-- A turn of the CPU, sections taken whole, is a turn of the pair or none. -/
lemma Views.cpu_turn (hv : Views script c p)
    (ht : Threads.TurnsWhole (threadExec script) (threadLoop script) c .cpu c₁) :
    ∃ tr p₁, Run (PairTurns script) p tr p₁ ∧ Views script c₁ p₁ := by
  unfold Threads.TurnsWhole at ht
  obtain ⟨s, owner, code⟩ := c
  obtain rfl : s = ⟨p.machine, p.coming⟩ := hv.shared
  have hsetUp : (Line.mk p.machine p.coming).SetUp := hv.setUp
  rcases hv.cpu with hguards | ⟨hrest, hloop⟩
  · rcases hguards.cases with ⟨a, hq, hr⟩ | ⟨o, k, k', hr, hk, hq | hq⟩
    · rw [Threads.whole_done hq] at ht
      obtain rfl := Option.some.inj ht
      exact ⟨[], _, .refl _, hv.go_cpu hsetUp (.inr ⟨hr, rfl⟩)⟩
    · rw [Threads.whole_act hq] at ht
      obtain ⟨y, hy, rfl⟩ := Option.map_eq_some_iff.1 ht
      obtain ⟨⟨x, m⟩, hx, rfl⟩ := Option.map_eq_some_iff.1 hy
      exact hv.access_turn hr hk hx
    · rw [Threads.whole_lock hq] at ht
      obtain ⟨y, hy, rfl⟩ := Option.map_eq_some_iff.1 ht
      obtain ⟨z, hz, hrest⟩ := Option.bind_eq_some_iff.1 hy
      obtain ⟨⟨x, m⟩, hx, rfl⟩ := Option.map_eq_some_iff.1 hz
      obtain rfl := Option.some.inj hrest
      exact hv.access_turn hr hk hx
  · rw [Threads.whole_act (o := ThreadOp.nextop) hloop] at ht
    obtain ⟨y, hy, rfl⟩ := Option.map_eq_some_iff.1 ht
    obtain ⟨⟨op, m⟩, hnext, rfl⟩ := Option.map_eq_some_iff.1 hy
    have hstep : PairTurns script p .cpu ⟨m, p.coming, insnSteps script op, p.hand⟩ := by
      unfold PairTurns pairTurn
      rw [hrest]
      dsimp only
      rw [hnext, Option.map_some]
    refine ⟨_, _, .head hstep (.refl _), hv.go_cpu (hsetUp.same (nextop_setup hnext) _) (.inl ?_)⟩
    exact Guards.insnCode script op

/-- Runs with whole sections are runs without the mutex. -/
lemma Views.run (hv : Views script c p) {tr : List (UartThreads σ × Party)}
    (hrun : Run (Threads.TurnsWhole (threadExec script) (threadLoop script)) c tr c₁) :
    ∃ tr' p₁, Run (PairTurns script) p tr' p₁ ∧ Views script c₁ p₁ := by
  induction hrun generalizing p with
  | refl c => exact ⟨[], p, .refl p, hv⟩
  | @head c c₂ c₃ i tr ht _ ih =>
    obtain ⟨tr₁, p₁, hrun₁, hv₁⟩ :
        ∃ tr p₁, Run (PairTurns script) p tr p₁ ∧ Views script c₂ p₁ := by
      cases i with
      | cpu => exact hv.cpu_turn ht
      | uart => exact hv.uart_turn ht
    obtain ⟨tr₂, p₂, hrun₂, hv₂⟩ := ih hv₁
    exact ⟨tr₁ ++ tr₂, p₂, hrun₁.trans hrun₂, hv₂⟩

/-! ## From the start of the program -/

/-- Who may do what with the mutex, and that its holder always comes to give it back. -/
structure MutexSafe (script : Script σ) (c : UartThreads σ) : Prop where
  lock : ∀ i k, c.code i = .node .lock k → c.owner ≠ some i
  unlock : ∀ i k, c.code i = .node .unlock k → c.owner = some i
  access : ∀ i (o : Access σ) k, c.code i = .node (.act (.access o)) k → ¬o.Free →
    c.owner = some i
  release : ∀ i, c.owner = some i → ∃ tr c₁,
    Run (Threads.Turns (threadExec script) (threadLoop script)) c tr c₁ ∧ c₁.owner = none ∧
      ∀ e ∈ tr, e.2 = i

variable {heap : ℕ → Buffer} {file sent : List Byte} {m₀ : Machine σ}
  {tr : List (UartThreads σ × Party)}

/-- The state `main` starts the threads in is set up. -/
lemma setUp_of_boot (hboot : boot script heap file = some m₀) : (Line.mk m₀ sent).SetUp :=
  ⟨(boot_setup hboot).1, (boot_setup hboot).2.1⟩

/-- In every state that the two threads reach from the start of the program, lock by lock, a thread
that is about to take the mutex does not hold it, one that is about to give it back, to access
`SBUF` or to write `SCON` holds it, and a thread that holds it gives it back after some turns of its
own. -/
theorem mutexSafe_of_run (hboot : boot script heap file = some m₀)
    (hrun : Run (Threads.Turns (threadExec script) (threadLoop script))
      (Threads.start ⟨m₀, sent⟩ loopStart) tr c) : MutexSafe script c := by
  obtain ⟨-, c', -, hc⟩ := Discipline.refines disciplined_threadLoop hrun
    (Discipline.matches_start (D := uartDiscipline script) (setUp_of_boot hboot) loopStart)
  exact ⟨fun i k hp => hc.not_owner_of_lock hp, fun i k hp => hc.owner_of_unlock hp,
    fun i o k hp hfree => hc.owner_of_act hp hfree,
    fun i ho => hc.releases disciplined_threadLoop ho⟩

/-- A schedule in which the CPU fetches an instruction while the listener is in its section. -/
def deliverySchedule : List Party :=
  [.uart, .uart, .uart, .uart, .uart, .cpu, .uart, .cpu, .uart, .uart, .uart]

/-- Both threads for the firmware `MOV A,SBUF`, with one byte to come, after `n` turns. -/
def deliveryThreads (n : ℕ) : Option (UartThreads Unit) :=
  (boot mapsRom (fun _ => default) [0xe5, 0x99]).bind fun m =>
    Run.follow (Threads.turn (threadExec mapsRom) (threadLoop mapsRom)) (deliverySchedule.take n)
      (Threads.start ⟨m, [0x41]⟩ loopStart)

/-- The theorem when the listener is in its section. -/
theorem mutexSafe_of_run_delivery :
    ∃ c, deliveryThreads 8 = some c ∧ c.owner = some .uart ∧ MutexSafe mapsRom c := by
  have heval : (deliveryThreads 8).map (fun c => c.owner) = some (some .uart) := by
    decide +kernel
  obtain ⟨c, hc, howner⟩ := Option.map_eq_some_iff.1 heval
  obtain ⟨m₀, hboot, hfollow⟩ := Option.bind_eq_some_iff.1 hc
  obtain ⟨tr, -, hrun⟩ := Run.of_follow hfollow
  exact ⟨c, hc, howner, mutexSafe_of_run hboot hrun⟩

/-- Every state with the mutex free that the two threads reach from the start of the program, lock
by lock, they also reach when every access of the CPU and every section of the listener is one
step. -/
theorem turns_refine (hboot : boot script heap file = some m₀)
    (hrun : Run (Threads.Turns (threadExec script) (threadLoop script))
      (Threads.start ⟨m₀, sent⟩ loopStart) tr c) (hfree : c.owner = none) :
    ∃ tr' p, Run (PairTurns script) ⟨m₀, sent, .done (), none⟩ tr' p ∧
      c.shared = ⟨p.machine, p.coming⟩ := by
  obtain ⟨tr₁, c', hwhole, hc⟩ := Discipline.refines disciplined_threadLoop hrun
    (Discipline.matches_start (D := uartDiscipline script) (setUp_of_boot hboot) loopStart)
  obtain rfl := hc.eq_of_free hfree
  have hstart : Views script (Threads.start ⟨m₀, sent⟩ loopStart) ⟨m₀, sent, .done (), none⟩ :=
    ⟨rfl, setUp_of_boot hboot, .inl (.done ()), .inl rfl⟩
  obtain ⟨tr', p, hpair, hv⟩ := hstart.run hwhole
  exact ⟨tr', p, hpair, hv.shared⟩

/-- The theorem at a byte that is delivered while the CPU fetches an instruction. -/
theorem turns_refine_delivery : ∃ m₀ c tr' p,
    boot mapsRom (fun _ => default) [0xe5, 0x99] = some m₀ ∧ deliveryThreads 11 = some c ∧
      c.shared.machine.sfr SBUF = 0x41 ∧
      Run (PairTurns mapsRom) ⟨m₀, [0x41], .done (), none⟩ tr' p ∧
      c.shared = ⟨p.machine, p.coming⟩ := by
  have heval : (deliveryThreads 11).map (fun c => (c.owner, c.shared.machine.sfr SBUF)) =
      some (none, 0x41) := by
    decide +kernel
  obtain ⟨c, hc, hval⟩ := Option.map_eq_some_iff.1 heval
  obtain ⟨hfree, hsbuf⟩ := Prod.mk.inj hval
  obtain ⟨m₀, hboot, hfollow⟩ := Option.bind_eq_some_iff.1 hc
  obtain ⟨tr, -, hrun⟩ := Run.of_follow hfollow
  obtain ⟨tr', p, hpair, hshared⟩ := turns_refine hboot hrun hfree
  exact ⟨m₀, c, tr', p, hboot, hc, hsbuf, hpair, hshared⟩

end Emu51

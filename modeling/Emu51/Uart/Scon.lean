import Emu51.Registers.Psw
import Emu51.Uart.Accesses

/-!
# Updates of `SCON`

The listener sets `RI` in `SCON` while the firmware changes other bits of it. An instruction that
changes a bit loads `SCON` and stores it again, with nothing to keep the listener out in between.
This file executes such an instruction access by access with one delivery somewhere, and determines
for which placements the delivery survives.
-/

namespace Emu51

variable {σ : Type}

/-! ## Loads and stores of `SCON` -/

/-- Whether an access is a store to `SCON` (`true`), a load from it (`false`) or neither. -/
def Access.scon : Access σ → Option Bool
  | .load a => if a = SCON then some false else none
  | .store a _ => if a = SCON then some true else none
  | _ => none

/-- The first access to `SCON` is a store. -/
def StoresNext (t : List (Σ o : Access σ, o.Res)) : Prop :=
  t.findSome? (fun e => e.1.scon) = some true

instance (t : List (Σ o : Access σ, o.Res)) : Decidable (StoresNext t) :=
  inferInstanceAs (Decidable (_ = _))

/-- The code neither loads nor stores `SCON`. -/
def Access.Quiet : Access σ → Prop
  | .cpu (.readd _) => False
  | .cpu (.writed _ _) => False
  | .lua o => o.OffSfr
  | .load a => a ≠ SCON
  | .store a _ => a ≠ SCON
  | _ => True

/-- Lua code that accesses no special function register, except that it writes `SCON` back as it has
just read it. -/
inductive CopiesScon {α : Type} : LuaProg σ α → Prop where
  | done (a : α) : CopiesScon (.done a)
  | off {o : LuaOp σ} {k : o.Res → LuaProg σ α} (ho : o.OffSfr) (hk : ∀ r, CopiesScon (k r)) :
      CopiesScon (.node o k)
  | copy {a b : LuaInt} {k : LuaInt → LuaProg σ α} (ha : byteOfLua a = SCON)
      (hb : byteOfLua b = SCON) (hk : ∀ v, CopiesScon (k v)) :
      CopiesScon (.node (.peekSfr a) fun v => .node (.pokeSfr b v) fun _ => k v)

/-- The hooks of the script, when they are called for a read, at most copy `SCON`. -/
def Script.ReadsCopyScon (script : Script σ) : Prop :=
  ∀ g a hook, script.ramdHooks g a = some hook → ∀ d, CopiesScon (hook false d)

namespace Machine

/-- The listener's section. -/
def deliver (d : Byte) (m : Machine σ) : Machine σ := (m.uartListener d).2

/-! ## One instruction and one delivery -/

/-- The code behind an opcode with a delivery after `n` accesses. -/
def interleave (script : Script σ) (op d : Byte) (n : ℕ) (m : Machine σ) : Option (Machine σ) :=
  ((insnSteps script op).interrupt (accessExec script) (deliver d) n m).map Prod.snd

/-- The accesses that come after the delivery. -/
def accessesAfter (script : Script σ) (op d : Byte) (n : ℕ) (m : Machine σ) :
    List (Σ o : Access σ, o.Res) :=
  (insnSteps script op).traceAfter (accessExec script) (deliver d) n m

end Machine

/-- The instruction changes one bit of `SCON` other than `RI`: a bit instruction on `SCON`, or a
write to `SBUF`, which sets `TI`. -/
def Label.ChangesScon (l : Label) (m : Machine σ) : Prop :=
  match l with
  | .jbc | .clrB | .setB | .cplBit | .movBitC => 0x98 < m.fetch 1 ∧ m.fetch 1 ≤ 0x9f
  | _ => l.dest m = some SBUF ∨ l.destAtRi m = some SBUF

/-- `SCON` with the bit the instruction changes at its new value. -/
def Label.updateScon (l : Label) (m : Machine σ) (scon : Byte) : Byte :=
  match l with
  | .jbc | .clrB => scon &&& ~~~Cpu.bitMask (m.fetch 1)
  | .setB => scon ||| Cpu.bitMask (m.fetch 1)
  | .cplBit => scon ^^^ Cpu.bitMask (m.fetch 1)
  | .movBitC => Cpu.withBit scon (Cpu.bitMask (m.fetch 1)) (m.sfr PSW &&& PSW_C != 0)
  | _ => scon ||| SCON_TI

namespace Machine

/-- The final `SCON` has the firmware's bit at its new value, `RI` set and the other bits as they
were, and this is the value both orders of the instruction and the delivery give. -/
structure Merged (script : Script σ) (op d : Byte) (m m' : Machine σ) : Prop where
  bits : m'.sfr SCON = (insnmap op).updateScon m (m.sfr SCON) ||| SCON_RI
  insnFirst : ∀ m₁, dispatch script op m = some m₁ → m'.sfr SCON = (m₁.deliver d).sfr SCON
  deliveryFirst : ∀ m₁, dispatch script op (m.deliver d) = some m₁ → m'.sfr SCON = m₁.sfr SCON

/-! ## The delivery -/

variable {script : Script σ} {d : Byte} {m m' : Machine σ}

/-- A delivery sets `RI` and leaves the other bits of `SCON`. -/
lemma deliver_scon (d : Byte) (m : Machine σ) :
    (m.deliver d).sfr SCON = m.sfr SCON ||| SCON_RI := by
  unfold deliver uartListener
  split_ifs with hri
  · rw [sfr_setSfr_self, sfr_setSfr_of_ne _ _ (by decide)]
  · generalize m.sfr SCON = scon at hri
    revert scon
    decide

/-- A delivery reaches no cells but `SBUF` and `SCON`. -/
lemma deliver_cell (d : Byte) (m : Machine σ) {c : Cell} (h₁ : c ≠ dataCell SBUF)
    (h₂ : c ≠ dataCell SCON) : (m.deliver d).ramsfr c = m.ramsfr c := by
  unfold deliver uartListener
  split_ifs
  · rw [setCell_apply, if_neg h₂, setCell_apply, if_neg h₁]
  · rfl

/-- Quiet code leaves `SCON` and the trap table alone. -/
lemma accessExec_quiet {o : Access σ} (ho : o.Quiet) {r : o.Res}
    (h : accessExec script o m = some (r, m')) :
    m'.sfr SCON = m.sfr SCON ∧ m'.ramsfrtrap = m.ramsfrtrap := by
  cases o with
  | cpu o =>
    cases o with
    | readd a => exact absurd ho id
    | writed a v => exact absurd ho id
    | writex a v =>
      obtain ⟨-, rfl⟩ := Prod.mk.inj (Option.some.inj h)
      have hcore := m.sameCore_writex a v
      exact ⟨congrFun hcore.ramsfr _, hcore.ramsfrtrap⟩
    | writei a v =>
      obtain ⟨-, rfl⟩ := Prod.mk.inj (Option.some.inj h)
      exact ⟨by rw [sfr, setCell_apply, if_neg (iramCell_ne_sfr a (by decide)).symm], rfl⟩
    | setRx n v =>
      obtain ⟨-, rfl⟩ := Prod.mk.inj (Option.some.inj h)
      exact ⟨by rw [sfr, setCell_apply, if_neg (regCell_ne_sfr m.reg n (by decide)).symm], rfl⟩
    | set q v =>
      obtain ⟨-, rfl⟩ := Prod.mk.inj (Option.some.inj h)
      exact ⟨m.sfr_setSfr_of_ne v (by cases q <;> decide), rfl⟩
    | setDph v =>
      obtain ⟨-, rfl⟩ := Prod.mk.inj (Option.some.inj h)
      refine ⟨m.sfr_setSfr_of_ne v ?_, rfl⟩
      obtain ⟨a, rfl | rfl⟩ := m.dph <;> decide
    | setDpl v =>
      obtain ⟨-, rfl⟩ := Prod.mk.inj (Option.some.inj h)
      refine ⟨m.sfr_setSfr_of_ne v ?_, rfl⟩
      obtain ⟨a, rfl | rfl⟩ := m.dpl <;> decide
    | _ =>
      obtain ⟨-, rfl⟩ := Prod.mk.inj (Option.some.inj h)
      exact ⟨rfl, rfl⟩
  | lua o =>
    have hcore := luaExec_sameCore h ho
    exact ⟨congrFun hcore.ramsfr _, hcore.ramsfrtrap⟩
  | store a v =>
    obtain ⟨-, rfl⟩ := Prod.mk.inj (Option.some.inj h)
    exact ⟨m.sfr_setSfr_of_ne v (Ne.symm ho), rfl⟩
  | refreshPsw =>
    obtain ⟨-, rfl⟩ := Prod.mk.inj (Option.some.inj h)
    have hscon : SCON ≠ PSW := by decide
    exact ⟨m.sfr_setSfr_of_ne (pswWithParity (m.sfr PSW) (m.sfr ACC)) hscon, rfl⟩
  | notify a =>
    obtain ⟨-, rfl⟩ := Prod.mk.inj (Option.some.inj h)
    obtain ⟨l0, l1, hl⟩ := m.sfrNotify_eq a
    rw [hl]
    exact ⟨rfl, rfl⟩
  | fail => exact absurd h (Option.some_ne_none _).symm
  | _ =>
    obtain ⟨-, rfl⟩ := Prod.mk.inj (Option.some.inj h)
    exact ⟨rfl, rfl⟩

/-! ## Code that updates `SCON` -/

/-- The function does not look at `RI` and keeps it. -/
structure KeepsRi (g : Byte → Byte) : Prop where
  set : ∀ x, g (x ||| SCON_RI) = g x ||| SCON_RI
  clear : ∀ x, x &&& SCON_RI = 0 → g x &&& SCON_RI = 0

/-- To change nothing keeps `RI`. -/
lemma KeepsRi.id : KeepsRi id := ⟨fun _ => rfl, fun _ h => h⟩

/-- From states in `S`, the code first stores `c` in `SCON`, if there is one, and then lets `g`
change it. A delivery survives exactly if it comes where the next access to `SCON` is not a
store. -/
structure Scons (script : Script σ) (d : Byte) (S : Machine σ → Prop) (c : Option Byte)
    (g : Byte → Byte) {α : Type} (p : Accesses σ α) : Prop where
  result : ∀ {m a m'}, S m → p.run (accessExec script) m = some (a, m') →
    m'.sfr SCON = g (c.getD (m.sfr SCON))
  next : ∀ {m a m'}, S m → p.run (accessExec script) m = some (a, m') →
    (StoresNext (p.trace (accessExec script) m) ↔ c.isSome = true)
  merges : ∀ {n m a m'}, S m → m.sfr SCON &&& SCON_RI = 0 →
    c.getD (m.sfr SCON) &&& SCON_RI = 0 →
    p.interrupt (accessExec script) (deliver d) n m = some (a, m') →
    (m'.sfr SCON = g (c.getD (m.sfr SCON)) ||| SCON_RI ↔
      ¬StoresNext (p.traceAfter (accessExec script) (deliver d) n m))

/-- The states are closed under a delivery. -/
def Closed (d : Byte) (S : Machine σ → Prop) : Prop := ∀ m, S m → S (m.deliver d)

variable {S T : Machine σ → Prop} {c : Option Byte} {f g : Byte → Byte} {α β : Type}

/-- If `RI` is clear, setting it makes a difference. -/
lemma or_ri_ne {x : Byte} (h : x &&& SCON_RI = 0) : x ≠ x ||| SCON_RI := by
  revert x
  decide

/-- A delivery in front of the code gives the merged result, as the code loads it. -/
lemma merges_zero (hclosed : Closed d S) (hg : KeepsRi g) {p : Accesses σ α}
    (hresult : ∀ {m a m'}, S m → p.run (accessExec script) m = some (a, m') →
      m'.sfr SCON = g (c.getD (m.sfr SCON)))
    (hnext : ∀ {m a m'}, S m → p.run (accessExec script) m = some (a, m') →
      (StoresNext (p.trace (accessExec script) m) ↔ c.isSome = true))
    {a : α} (hm : S m) (hc : c.getD (m.sfr SCON) &&& SCON_RI = 0)
    (h : p.interrupt (accessExec script) (deliver d) 0 m = some (a, m')) :
    m'.sfr SCON = g (c.getD (m.sfr SCON)) ||| SCON_RI ↔
      ¬StoresNext (p.traceAfter (accessExec script) (deliver d) 0 m) := by
  rw [Prog.interrupt_zero] at h
  rw [Prog.traceAfter_zero, hnext (hclosed m hm) h, hresult (hclosed m hm) h, deliver_scon]
  cases c with
  | none =>
    rw [Option.getD_none, Option.getD_none, hg.set]
    simp
  | some b =>
    rw [Option.getD_some] at hc
    rw [Option.getD_some, Option.getD_some]
    simpa using or_ri_ne (hg.clear b hc)

/-- Code that is finished stores nothing in `SCON`. -/
lemma Scons.done (a : α) : Scons script d S none id (.done a : Accesses σ α) where
  result := by
    rintro m b m' hm h
    obtain ⟨-, rfl⟩ := Prod.mk.inj (Option.some.inj h)
    rfl
  next := by
    intro m b m' hm h
    simp [StoresNext]
  merges := by
    rintro n m b m' hm hri hc h
    cases n with
    | zero =>
      obtain ⟨-, rfl⟩ := Prod.mk.inj (Option.some.inj h)
      exact iff_of_true (deliver_scon d m) (by simp [StoresNext])
    | succ n =>
      obtain ⟨-, rfl⟩ := Prod.mk.inj (Option.some.inj h)
      exact iff_of_true (deliver_scon d m) (by simp [StoresNext])

/-- Code that cannot end establishes anything, as there is nothing to show. -/
lemma Scons.fail (k : Empty → Accesses σ α) : Scons script d S c g (.node .fail k) where
  result := fun _ h => absurd h (Option.some_ne_none _).symm
  next := fun _ h => absurd h (Option.some_ne_none _).symm
  merges := by
    rintro n m b m' hm hri hc h
    cases n <;> exact absurd h (Option.some_ne_none _).symm

/-- The rule for weaker knowledge, and for another description of the change. -/
lemma Scons.weaken {p : Accesses σ α} (h : Scons script d T c f p) (hS : ∀ m, S m → T m)
    (hg : ∀ m, S m → g (c.getD (m.sfr SCON)) = f (c.getD (m.sfr SCON))) :
    Scons script d S c g p where
  result := fun hm hr => (h.result (hS _ hm) hr).trans (hg _ hm).symm
  next := fun hm hr => h.next (hS _ hm) hr
  merges := by
    intro n m a m' hm hri hc hr
    rw [hg m hm]
    exact h.merges (hS m hm) hri hc hr

/-- The rule for a quiet step, which may depend on its answer and may change the states. -/
lemma Scons.quiet (hclosed : Closed d S) (hg : KeepsRi g) {o : Access σ} (ho : o.Quiet)
    {k : o.Res → Accesses σ α} {T : o.Res → Machine σ → Prop}
    (hS : ∀ m r m', S m → accessExec script o m = some (r, m') → T r m')
    (hk : ∀ r, Scons script d (T r) c g (k r)) : Scons script d S c g (.node o k) := by
  have hscon : o.scon = none := by
    cases o with
    | load a => exact if_neg ho
    | store a v => exact if_neg ho
    | _ => rfl
  have hresult : ∀ {m a m'}, S m → (Prog.node o k).run (accessExec script) m = some (a, m') →
      m'.sfr SCON = g (c.getD (m.sfr SCON)) := by
    intro m a m' hm hr
    obtain ⟨⟨r, m₁⟩, hr₁, hr₂⟩ := Option.bind_eq_some_iff.1 hr
    rw [← (accessExec_quiet ho hr₁).1]
    exact (hk r).result (hS m r m₁ hm hr₁) hr₂
  have hnext : ∀ {m a m'}, S m → (Prog.node o k).run (accessExec script) m = some (a, m') →
      (StoresNext ((Prog.node o k).trace (accessExec script) m) ↔ c.isSome = true) := by
    intro m a m' hm hr
    obtain ⟨⟨r, m₁⟩, hr₁, hr₂⟩ := Option.bind_eq_some_iff.1 hr
    rw [Prog.trace_node_of_some hr₁, StoresNext, List.findSome?_cons_of_isNone (by simp [hscon])]
    exact (hk r).next (hS m r m₁ hm hr₁) hr₂
  refine ⟨hresult, hnext, ?_⟩
  intro n m a m' hm hri hc hr
  cases n with
  | zero => exact merges_zero hclosed hg hresult hnext hm hc hr
  | succ n =>
    obtain ⟨⟨r, m₁⟩, hr₁, hr₂⟩ := Option.bind_eq_some_iff.1 hr
    have hsame := (accessExec_quiet ho hr₁).1
    rw [Prog.traceAfter_succ_node_of_some hr₁, ← hsame]
    rw [← hsame] at hri hc
    exact (hk r).merges (hS m r m₁ hm hr₁) hri hc hr₂

/-- The rule for a load: what follows may store something made of the byte loaded. -/
lemma Scons.load (hclosed : Closed d S) (hg : KeepsRi g) {k : Byte → Accesses σ α}
    {c : Byte → Option Byte} {T : Byte → Machine σ → Prop} (hS : ∀ m, S m → T (m.sfr SCON) m)
    (hc : KeepsRi fun x => (c x).getD x)
    (hresult : ∀ m, S m → f ((c (m.sfr SCON)).getD (m.sfr SCON)) = g (m.sfr SCON))
    (hk : ∀ v, Scons script d (T v) (c v) f (k v)) :
    Scons script d S none g (.node (.load SCON) k) := by
  have hrun : ∀ {m a m'}, S m →
      (Prog.node (.load SCON) k).run (accessExec script) m = some (a, m') →
      m'.sfr SCON = g ((none : Option Byte).getD (m.sfr SCON)) := by
    intro m a m' hm hr
    rw [Option.getD_none, ← hresult m hm]
    exact (hk (m.sfr SCON)).result (hS m hm) hr
  have hnext : ∀ {m a m'}, S m →
      (Prog.node (.load SCON) k).run (accessExec script) m = some (a, m') →
      (StoresNext ((Prog.node (.load SCON) k).trace (accessExec script) m) ↔
        (none : Option Byte).isSome = true) := by
    intro m a m' hm hr
    have hload : accessExec script (.load SCON) m = some (m.sfr SCON, m) := rfl
    rw [Prog.trace_node_of_some hload, StoresNext]
    simp [Access.scon]
  refine ⟨hrun, hnext, ?_⟩
  intro n m a m' hm hri _ hr
  cases n with
  | zero => exact merges_zero hclosed hg hrun hnext hm hri hr
  | succ n =>
    have hload : accessExec script (.load SCON) m = some (m.sfr SCON, m) := rfl
    rw [Prog.traceAfter_succ_node_of_some hload, Option.getD_none, ← hresult m hm]
    exact (hk (m.sfr SCON)).merges (hS m hm) hri (hc.clear _ hri) hr

/-- The rule for a store: the value that was to be stored first has been stored. -/
lemma Scons.store (hclosed : Closed d S) (hg : KeepsRi g) {b : Byte} {k : Unit → Accesses σ α}
    (hS : ∀ m, S m → T (m.setSfr SCON b)) (hk : Scons script d T none g (k ())) :
    Scons script d S (some b) g (.node (.store SCON b) k) := by
  have hrun : ∀ {m a m'}, S m →
      (Prog.node (.store SCON b) k).run (accessExec script) m = some (a, m') →
      m'.sfr SCON = g ((some b).getD (m.sfr SCON)) := by
    intro m a m' hm hr
    have hres := hk.result (hS m hm) hr
    rwa [Option.getD_none, sfr_setSfr_self] at hres
  have hnext : ∀ {m a m'}, S m →
      (Prog.node (.store SCON b) k).run (accessExec script) m = some (a, m') →
      (StoresNext ((Prog.node (.store SCON b) k).trace (accessExec script) m) ↔
        (some b).isSome = true) := by
    intro m a m' hm hr
    have hstore : accessExec script (.store SCON b) m = some ((), m.setSfr SCON b) := rfl
    rw [Prog.trace_node_of_some hstore, StoresNext]
    simp [Access.scon]
  refine ⟨hrun, hnext, ?_⟩
  intro n m a m' hm hri hb hr
  cases n with
  | zero => exact merges_zero hclosed hg hrun hnext hm hb hr
  | succ n =>
    have hstore : accessExec script (.store SCON b) m = some ((), m.setSfr SCON b) := rfl
    have hself : (m.setSfr SCON b).sfr SCON = b := m.sfr_setSfr_self SCON b
    have hclear : (m.setSfr SCON b).sfr SCON &&& SCON_RI = 0 := by
      rw [hself]
      exact hb
    have hmerge := hk.merges (hS m hm) hclear hclear hr
    rw [Option.getD_none, hself] at hmerge
    rw [Prog.traceAfter_succ_node_of_some hstore]
    exact hmerge

/-! ## Accessors with the trap table of `sfr_init` -/

/-- The trap table is the one `sfr_init` has set up. -/
def Trapping (m : Machine σ) : Prop := m.ramsfrtrap = sfrInitTrap

/-- A delivery does not touch the trap table. -/
lemma deliver_ramsfrtrap (d : Byte) (m : Machine σ) :
    (m.deliver d).ramsfrtrap = m.ramsfrtrap := by
  unfold deliver uartListener
  split_ifs
  · rfl
  · rfl

/-- The trap table of `sfr_init` is there after a delivery as well. -/
lemma closed_trapping : Closed d (Trapping : Machine σ → Prop) := fun m hm =>
  (deliver_ramsfrtrap d m).trans hm

/-- What does not depend on the state may be used in the proof. -/
lemma Scons.of_and {P : Prop} {p : Accesses σ α} (h : P → Scons script d S c g p) :
    Scons script d (fun m => P ∧ S m) c g p where
  result := fun hm hr => (h hm.1).result hm.2 hr
  next := fun hm hr => (h hm.1).next hm.2 hr
  merges := fun hm hri hc hr => (h hm.1).merges hm.2 hri hc hr

/-- The rule for a quiet step whose answer is known. -/
lemma Scons.known (hclosed : Closed d S) (hg : KeepsRi g) {o : Access σ} (ho : o.Quiet)
    {k : o.Res → Accesses σ α} (r₀ : o.Res)
    (hS : ∀ m r m', S m → accessExec script o m = some (r, m') → r = r₀ ∧ T m')
    (hk : Scons script d T c g (k r₀)) : Scons script d S c g (.node o k) :=
  .quiet (T := fun r m => r = r₀ ∧ T m) hclosed hg ho hS fun _ => .of_and fun hr => hr ▸ hk

/-- The rule for a quiet step that leaves a property alone. -/
lemma Scons.skip (hclosed : Closed d S) (hg : KeepsRi g) {o : Access σ} (ho : o.Quiet)
    {k : o.Res → Accesses σ α}
    (hS : ∀ m r m', S m → accessExec script o m = some (r, m') → S m')
    (hk : ∀ r, Scons script d S c g (k r)) : Scons script d S c g (.node o k) :=
  .quiet (T := fun _ => S) hclosed hg ho hS hk

/-- An access that neither loads nor stores `SCON` leaves the trap table of `sfr_init` in place. -/
lemma trapping_step {o : Access σ} (ho : o.Quiet) : ∀ m (r : o.Res) m', Trapping m →
    accessExec script o m = some (r, m') → Trapping m' :=
  fun _ _ _ hm h => (accessExec_quiet ho h).2.trans hm

/-- The rule for a look at the trap table, which finds a register trapped as `sfr_init` has it. -/
lemma Scons.trapped (hclosed : Closed d S) (hS : ∀ m, S m → Trapping m) (hg : KeepsRi g) {a : Byte}
    (ha : sfrInitTrap a = true) {k : Bool → Accesses σ α} (hk : Scons script d S c g (k true)) :
    Scons script d S c g (.node (.trapped a) k) := by
  refine .known hclosed hg (o := .trapped a) trivial true ?_ hk
  intro m r m' hm h
  obtain ⟨rfl, rfl⟩ := Prod.mk.inj (Option.some.inj h)
  exact ⟨(congrFun (hS m hm) a).trans ha, hm⟩

/-- `SCON` is trapped by the table of `sfr_init`. -/
lemma sfrInitTrap_scon : sfrInitTrap SCON = true := by decide

/-- `SBUF` is trapped by the table of `sfr_init`. -/
lemma sfrInitTrap_sbuf : sfrInitTrap SBUF = true := by decide

variable {bus : AccessBus σ} {K : Byte → Accesses σ α} {L : Unit → Accesses σ α}

/-- `readd` on `SBUF` neither loads nor stores `SCON`, whatever the code does with the byte. -/
lemma Scons.readd_sbuf (hclosed : Closed d S) (hS : ∀ m, S m → Trapping m) (hg : KeepsRi g)
    (hk : ∀ v, Scons script d S c g (K v)) :
    Scons script d S c g (readdSteps script bus SBUF >>= K) := by
  refine .trapped hclosed hS hg sfrInitTrap_sbuf ?_
  refine .skip hclosed hg (o := .load SBUF) (show SBUF ≠ SCON by decide) ?_ hk
  intro m r m' hm h
  obtain ⟨-, rfl⟩ := Prod.mk.inj (Option.some.inj h)
  exact hm

/-- `readd` on `SCON`, followed by a store of what has been made of it. -/
lemma Scons.readd_scon_store {h : Byte → Byte} (hf : KeepsRi f) (hh : KeepsRi h)
    (hgf : ∀ x, g (f x) = h x) (hk : ∀ v, Scons script d Trapping (some (f v)) g (K v)) :
    Scons script d Trapping none h (readdSteps script bus SCON >>= K) := by
  refine .trapped closed_trapping (fun _ h => h) hh sfrInitTrap_scon ?_
  exact .load (c := fun v => some (f v)) (T := fun _ => Trapping) closed_trapping hh
    (fun _ h => h) hf (fun m _ => hgf (m.sfr SCON)) hk

/-- `readd` on `SCON`, followed by code that knows what has been read, except for `RI`. -/
lemma Scons.readd_scon (hg : KeepsRi g)
    (hk : ∀ v, Scons script d (fun m => Trapping m ∧ m.sfr SCON ||| SCON_RI = v ||| SCON_RI)
      none g (K v)) :
    Scons script d Trapping none g (readdSteps script bus SCON >>= K) := by
  refine .trapped closed_trapping (fun _ h => h) hg sfrInitTrap_scon ?_
  exact .load (c := fun _ => none)
    (T := fun v m => Trapping m ∧ m.sfr SCON ||| SCON_RI = v ||| SCON_RI) closed_trapping hg
    (fun _ h => ⟨h, rfl⟩) KeepsRi.id (fun _ _ => rfl) hk

/-- `writed` on `SCON` stores the value it is given, and its listeners do not touch the register. -/
lemma Scons.writed_scon (hg : KeepsRi g) {b : Byte} (hk : Scons script d Trapping none g (L ())) :
    Scons script d Trapping (some b) g (writedSteps script bus SCON b >>= L) := by
  refine .trapped closed_trapping (fun _ h => h) hg sfrInitTrap_scon ?_
  refine .store (T := Trapping) closed_trapping hg (fun _ h => h) ?_
  exact .skip closed_trapping hg (o := .notify SCON) trivial (trapping_step trivial) fun _ => hk

/-- The store of `SCON` at the end of a transmission. -/
lemma Scons.pokeScon (hg : KeepsRi g) {b : Byte} (hk : Scons script d Trapping none g (L ())) :
    Scons script d Trapping (some b) g (pokeSconSteps b >>= L) := by
  refine .trapped closed_trapping (fun _ h => h) hg sfrInitTrap_scon ?_
  refine .store (T := Trapping) closed_trapping hg (fun _ h => h) ?_
  exact .skip closed_trapping hg (o := .notify SCON) trivial (trapping_step trivial) fun _ => hk

/-- Setting `TI` keeps `RI`. -/
lemma keepsRi_ti : KeepsRi (· ||| SCON_TI) := by
  constructor
  · decide
  · decide

/-- `writed` on `SBUF` sends the byte and then sets `TI` in the `SCON` it loads. -/
lemma Scons.writed_sbuf {b : Byte} (hk : Scons script d Trapping none id (L ())) :
    Scons script d Trapping none (· ||| SCON_TI) (writedSteps script bus SBUF b >>= L) := by
  have hsbuf : (Access.store SBUF b : Access σ).Quiet := show SBUF ≠ SCON by decide
  refine .trapped closed_trapping (fun _ h => h) keepsRi_ti sfrInitTrap_sbuf ?_
  refine .skip closed_trapping keepsRi_ti (o := .transmit b) trivial (trapping_step trivial) ?_
  intro _
  refine .skip closed_trapping keepsRi_ti hsbuf (trapping_step hsbuf) fun _ => ?_
  refine .load (f := id) (c := fun v => some (v ||| SCON_TI)) (T := fun _ => Trapping)
    closed_trapping keepsRi_ti (fun _ h => h) keepsRi_ti (fun _ _ => rfl) fun v => ?_
  change Scons script d Trapping (some (v ||| SCON_TI)) id
    ((pokeSconSteps (v ||| SCON_TI) >>= fun _ => afterRamdPutSteps SBUF) >>= L)
  rw [Prog.bind_assoc]
  refine .pokeScon (L := fun _ => afterRamdPutSteps SBUF >>= L) KeepsRi.id ?_
  exact .skip closed_trapping KeepsRi.id (o := .notify SBUF) trivial (trapping_step trivial)
    fun _ => hk

/-- A hook that at most copies `SCON` back to itself keeps what the code does to it. -/
lemma Scons.hook (hg : KeepsRi g) {β : Type} {p : LuaProg σ β} (hp : CopiesScon p) (n : ℕ)
    {K : β → Accesses σ α} (hk : ∀ a, Scons script d Trapping none g (K a)) :
    Scons script d Trapping none g (p.expand (luaSteps (accessBusAt script n)) >>= K) := by
  induction hp with
  | done a => exact hk a
  | @off o k ho _ ih =>
    have hstep : luaSteps (accessBusAt script n) o = Accesses.lua o := by
      cases o <;> first | exact absurd ho id | rfl
    have hquiet : (Access.lua o).Quiet := ho
    rw [Prog.expand, hstep, Prog.bind_assoc]
    exact .skip closed_trapping hg hquiet (trapping_step hquiet) ih
  | @copy a b k ha hb _ ih =>
    rw [Prog.expand, luaSteps, Prog.bind_assoc, Prog.bind_assoc, ha]
    cases n with
    | zero => exact .fail _
    | succ n =>
      refine .readd_scon_store (f := id) KeepsRi.id hg (fun _ => rfl) fun v => ?_
      rw [Prog.done_bind, Prog.expand, luaSteps, Prog.bind_assoc, hb, byteOfLua_luaOfByte]
      exact .writed_scon hg (ih (luaOfByte v))

/-- `readd` on any register loads `SCON` at most in a hook that writes it back as it was. -/
lemma Scons.readd (hs : script.ReadsCopyScon) (hg : KeepsRi g) (n : ℕ) (a : Byte)
    (hk : ∀ v, Scons script d Trapping none g (K v)) :
    Scons script d Trapping none g (readdSteps script (accessBusAt script n) a >>= K) := by
  by_cases hscon : a = SCON
  · subst hscon
    exact .readd_scon hg fun v => (hk v).weaken (fun _ h => h.1) fun _ _ => rfl
  have hload : (Access.load a : Access σ).Quiet := hscon
  have hstore : ∀ v, (Access.store a v : Access σ).Quiet := fun _ => hscon
  by_cases ha : sfrInitTrap a = true
  · have hpsw : a ≠ PSW := by
      rintro rfl
      exact absurd ha (by decide)
    refine .trapped closed_trapping (fun _ h => h) hg ha ?_
    change Scons script d Trapping none g
      (defaultRamdGetSteps script (accessBusAt script n) a >>= K)
    unfold defaultRamdGetSteps ramdGetSteps
    rw [if_neg hpsw, Prog.done_bind]
    by_cases hsbuf : a = SBUF
    · rw [if_pos (.inr hsbuf)]
      exact .skip closed_trapping hg hload (trapping_step hload) hk
    · rw [if_neg (not_or.2 ⟨hscon, hsbuf⟩), Prog.bind_assoc]
      unfold hookSteps
      rw [Prog.bind_assoc]
      refine .skip closed_trapping hg (o := .lua .get) trivial (trapping_step trivial) fun l => ?_
      simp only [Prog.bind]
      split
      · exact .skip closed_trapping hg hload (trapping_step hload) hk
      · next hook hhook =>
        refine .skip closed_trapping hg hload (trapping_step hload) fun data => ?_
        change Scons script d Trapping none g
          (((hook false (luaOfByte data)).expand (luaSteps (accessBusAt script n)) >>= fun r =>
            Accesses.store a (byteOfLua r)) >>= fun _ => Accesses.load a >>= K)
        rw [Prog.bind_assoc]
        refine .hook hg (hs _ _ _ hhook _) n fun r => ?_
        refine .skip closed_trapping hg (hstore _) (trapping_step (hstore _)) fun _ => ?_
        exact .skip closed_trapping hg hload (trapping_step hload) hk
  · refine .known closed_trapping hg (o := .trapped a) trivial false ?_ ?_ (T := Trapping)
    · intro m r m' hm h
      obtain ⟨rfl, rfl⟩ := Prod.mk.inj (Option.some.inj h)
      exact ⟨(congrFun hm a).trans (Bool.not_eq_true _ ▸ ha), hm⟩
    · exact .skip closed_trapping hg hload (trapping_step hload) hk

end Machine

end Emu51

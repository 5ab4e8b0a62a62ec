import Mathlib.Data.List.Basic
import Mathlib.Logic.Function.Basic

/-!
# A register file behind latches

The registers of a file are out of reach, except through a few latches: a write command stores what
some latches hold in the register the latches address, and a read command puts the addressed
register into latches. So the file is a store: what is read is what was stored there last
(`regs_step`, `fileAfter_concat`), and storing what has been read changes nothing
(`regs_write_back`).
-/

universe u v w x

namespace RegisterPort

/-! ## The last store -/

section Log

variable {α : Type u} {γ : Type v} [DecidableEq α]

/-- The value stored at `a` last. -/
def lastStore (a : α) (log : List (α × γ)) : Option γ :=
  ((log.filter fun e => e.1 = a).getLast?).map Prod.snd

/-- The file after the stores of the log. -/
def fileAfter (init : α → γ) (log : List (α × γ)) (a : α) : γ := (lastStore a log).getD (init a)

@[simp] lemma fileAfter_nil (init : α → γ) : fileAfter init [] = init := rfl

/-- What has just been stored at an address is what was stored there last. -/
lemma lastStore_concat_self (a : α) (x : γ) (log : List (α × γ)) :
    lastStore a (log ++ [(a, x)]) = some x := by
  simp [lastStore]

/-- A store at another address does not matter for what was stored here last. -/
lemma lastStore_concat_of_ne {a b : α} (x : γ) (log : List (α × γ)) (h : b ≠ a) :
    lastStore a (log ++ [(b, x)]) = lastStore a log := by
  simp [lastStore, h]

/-- One more store is one more update of the file, at its address. -/
theorem fileAfter_concat (init : α → γ) (log : List (α × γ)) (a : α) (x : γ) :
    fileAfter init (log ++ [(a, x)]) = Function.update (fileAfter init log) a x := by
  funext b
  by_cases h : b = a
  · subst h
    rw [fileAfter, lastStore_concat_self, Function.update_self, Option.getD_some]
  · rw [fileAfter, lastStore_concat_of_ne _ _ (Ne.symm h), Function.update_of_ne h, fileAfter]

end Log

/-! ## Latches -/

section Latches

variable {ι : Type u} {β : Type v} [DecidableEq ι]

/-- Put the values in the latches, one after the other. -/
def deliver : List ι → List β → (ι → β) → ι → β
  | i :: is, b :: bs, f => deliver is bs (Function.update f i b)
  | _, _, f => f

/-- A value delivered to other latches leaves this one as it is. -/
lemma deliver_of_notMem {is : List ι} {i : ι} (h : i ∉ is) (bs : List β) (f : ι → β) :
    deliver is bs f i = f i := by
  induction is generalizing bs f with
  | nil => cases bs <;> rfl
  | cons j is ih =>
    obtain ⟨hj, his⟩ := not_or.1 (mt List.mem_cons.2 h)
    cases bs with
    | nil => rfl
    | cons b bs => rw [deliver, ih his, Function.update_of_ne hj]

/-- What has been delivered to different latches is found there, in order. -/
lemma map_deliver {is : List ι} {bs : List β} (hnodup : is.Nodup) (hlen : bs.length = is.length)
    (f : ι → β) : is.map (deliver is bs f) = bs := by
  induction is generalizing bs f with
  | nil => rw [List.map_nil, List.eq_nil_of_length_eq_zero hlen]
  | cons i is ih =>
    obtain ⟨hi, his⟩ := List.nodup_cons.1 hnodup
    cases bs with
    | nil => exact absurd hlen (Nat.succ_ne_zero _).symm
    | cons b bs =>
      rw [List.map_cons, deliver, deliver_of_notMem hi, Function.update_self,
        ih his (Nat.succ.inj hlen)]

end Latches

/-! ## The port -/

variable {ι : Type u} {β : Type v} {α : Type w}

/-- The meaning of the latches: the address they hold, those a write command takes the value from,
and those a read command puts it into. -/
structure Layout (ι : Type u) (β : Type v) (α : Type w) where
  addr : (ι → β) → α
  source : List ι
  target : List ι
  addr_eq : ∀ f g : ι → β, (∀ i, i ∉ source → i ∉ target → f i = g i) → addr f = addr g
  nodup_source : source.Nodup
  nodup_target : target.Nodup
  length_eq : target.length = source.length

/-- The latches and the file. -/
structure State (ι : Type u) (β : Type v) (α : Type w) where
  latches : ι → β
  regs : α → List β

/-- What can be done to a port. -/
inductive Op (ι : Type u) (β : Type v) where
  | latch (i : ι) (b : β)
  | read
  | write

namespace State

variable [DecidableEq ι] (L : Layout ι β α) (s : State ι β α)

/-- The value on its way back: what was read is put where a write command takes it from. -/
def copied : State ι β α :=
  { s with latches := deliver L.source (L.target.map s.latches) s.latches }

section Copied

variable {L} {s}

/-- Copying a register to its latches leaves the address that is latched. -/
lemma addr_copied : L.addr (s.copied L).latches = L.addr s.latches :=
  L.addr_eq _ _ fun _ hi _ => deliver_of_notMem hi _ _

/-- Where both commands use the same latches, there is nothing to copy. -/
lemma copied_eq_self (h : L.source = L.target) : s.copied L = s := by
  have hput : ∀ (is : List ι) (f : ι → β), deliver is (is.map f) f = f := by
    intro is
    induction is with
    | nil => exact fun f => rfl
    | cons i is ih =>
      intro f
      rw [List.map_cons, deliver, Function.update_eq_self, ih]
  rw [copied, h, hput]

end Copied

variable [DecidableEq α]

/-- One operation. -/
def step : Op ι β → State ι β α
  | .latch i b => { s with latches := Function.update s.latches i b }
  | .read => { s with latches := deliver L.target (s.regs (L.addr s.latches)) s.latches }
  | .write =>
      { s with regs := Function.update s.regs (L.addr s.latches) (L.source.map s.latches) }

/-- What the operation stores. -/
def stores : Op ι β → List (α × List β)
  | .latch _ _ => []
  | .read => []
  | .write => [(L.addr s.latches, L.source.map s.latches)]

/-- Every register is as long as the latches for it. -/
def Fits : Prop := ∀ a, (s.regs a).length = L.source.length

variable {L} {s}

/-- The file is what the stores make of it. -/
theorem regs_step {init : α → List β} {log : List (α × List β)} (h : s.regs = fileAfter init log)
    (o : Op ι β) : (s.step L o).regs = fileAfter init (log ++ s.stores L o) := by
  cases o with
  | write => rw [stores, fileAfter_concat, ← h]; rfl
  | latch i b => rw [stores, List.append_nil, ← h]; rfl
  | read => rw [stores, List.append_nil, ← h]; rfl

/-- An operation leaves every register as wide as it was. -/
lemma Fits.step (h : s.Fits L) (o : Op ι β) : (s.step L o).Fits L := by
  cases o with
  | latch i b => exact h
  | read => exact h
  | write =>
    intro a
    change (Function.update s.regs (L.addr s.latches) (L.source.map s.latches) a).length = _
    by_cases ha : a = L.addr s.latches
    · subst ha
      rw [Function.update_self, List.length_map]
    · rw [Function.update_of_ne ha]
      exact h a

/-- A read command delivers the addressed register to the latches for results. -/
theorem map_latches_read (h : s.Fits L) :
    L.target.map (s.step L .read).latches = s.regs (L.addr s.latches) :=
  map_deliver L.nodup_target ((h _).trans L.length_eq.symm) _

/-- It leaves the address in its latches as it is. -/
lemma addr_read : L.addr (s.step L .read).latches = L.addr s.latches :=
  L.addr_eq _ _ fun _ _ hi => deliver_of_notMem hi _ _

/-- Storing what has just been read, at the same address, changes no register. -/
theorem regs_write_back (h : s.Fits L) :
    (((s.step L .read).copied L).step L .write).regs = s.regs := by
  have haddr : L.addr ((s.step L .read).copied L).latches = L.addr s.latches :=
    addr_copied.trans addr_read
  have hvalue : L.source.map ((s.step L .read).copied L).latches = s.regs (L.addr s.latches) := by
    rw [← map_latches_read h]
    exact map_deliver L.nodup_source (by rw [List.length_map, L.length_eq]) _
  change Function.update s.regs (L.addr ((s.step L .read).copied L).latches) (L.source.map _) = _
  rw [haddr, hvalue, Function.update_eq_self]

end State

end RegisterPort

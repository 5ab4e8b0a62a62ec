import Emu51.Library.Program
import Emu51.Library.Transition
import Mathlib.Tactic.SplitIfs

/-!
# Threads that share one mutex

Threads are loops whose bodies are programs; besides the operations on the shared state, a program
takes the mutex and gives it back. `Threads.turn` lets one thread do one thing. `Threads.whole` is
the same system with the stretches between taking the mutex and giving it back, the *critical
sections*, executed in one go.

What is done without the mutex is *free*. A critical section consists of operations that commute
with the free ones, the *movers*, and at most one other operation, which comes last. Such a section
takes effect at its last operation, so everything the threads can do they can also do with whole
sections (`Discipline.refines`). The same discipline rules out that a thread waits for itself.
-/

/-- What a thread does next: take the mutex, give it back, or perform an operation. -/
inductive LockOp (Op : Type) where
  | lock
  | unlock
  | act (o : Op)

/-- What this returns. -/
@[reducible] def LockOp.Res {Op : Type} (Res : Op → Type) : LockOp Op → Type
  | .lock => Unit
  | .unlock => Unit
  | .act o => Res o

/-- Programs that use the mutex. -/
abbrev LockProg (Op : Type) (Res : Op → Type) (α : Type) := Prog (LockOp Op) (LockOp.Res Res) α

namespace LockProg

variable {Op : Type} {Res : Op → Type} {σ α β : Type}

def lock : LockProg Op Res Unit := .node .lock .done

def unlock : LockProg Op Res Unit := .node .unlock .done

def act (o : Op) : LockProg Op Res (Res o) := .node (.act o) .done

/-- An operation in a critical section of its own. -/
def locked (o : Op) : LockProg Op Res (Res o) := do
  lock
  let r ← act o
  unlock
  pure r

/-- Execute the rest of a critical section: what comes after it, and the new state. -/
def critical (h : Prog.Handler Op Res σ) :
    LockProg Op Res α → σ → Option (LockProg Op Res α × σ)
  | .node .unlock k, s => some (k (), s)
  | .node (.act o) k, s => (h o s).bind fun y => critical h (k y.1) y.2
  | _, _ => none

end LockProg

/-- The threads: the state they share, who holds the mutex, and what each of them has still to do
before its loop begins anew. -/
structure Threads (Op : Type) (Res : Op → Type) (σ : Type) {ι : Type} (β : ι → Type) where
  shared : σ
  owner : Option ι
  code : (i : ι) → LockProg Op Res (β i)

namespace Threads

variable {Op : Type} {Res : Op → Type} {σ ι : Type} {β : ι → Type} [DecidableEq ι]

/-- Thread `i` goes on with `p`. -/
def go (c : Threads Op Res σ β) (i : ι) (p : LockProg Op Res (β i)) : Threads Op Res σ β :=
  { c with code := Function.update c.code i p }

section Go

variable (c : Threads Op Res σ β) (i : ι) (p : LockProg Op Res (β i))

@[simp] lemma go_shared : (c.go i p).shared = c.shared := rfl

@[simp] lemma go_owner : (c.go i p).owner = c.owner := rfl

@[simp] lemma go_code_self : (c.go i p).code i = p := Function.update_self ..

variable {i}

/-- The step of one thread leaves the code of the others. -/
lemma go_code_of_ne {j : ι} (h : j ≠ i) : (c.go i p).code j = c.code j :=
  Function.update_of_ne h ..

end Go

variable (h : Prog.Handler Op Res σ) (loop : (i : ι) → β i → LockProg Op Res (β i))

/-- Thread `i` does one thing. A loop that has come to its end begins anew, with what it has
returned. -/
def turn (i : ι) (c : Threads Op Res σ β) : Option (Threads Op Res σ β) :=
  match c.code i with
  | .done b => some (c.go i (loop i b))
  | .node .lock k => if c.owner = none then some { c.go i (k ()) with owner := some i } else none
  | .node .unlock k =>
      if c.owner = some i then some { c.go i (k ()) with owner := none } else none
  | .node (.act o) k => (h o c.shared).map fun y => { c.go i (k y.1) with shared := y.2 }

/-- Thread `i` does one thing or executes a whole critical section. -/
def whole (i : ι) (c : Threads Op Res σ β) : Option (Threads Op Res σ β) :=
  match c.code i with
  | .done b => some (c.go i (loop i b))
  | .node .lock k =>
      (LockProg.critical h (k ()) c.shared).map fun y => { c.go i y.1 with shared := y.2 }
  | .node .unlock _ => none
  | .node (.act o) k => (h o c.shared).map fun y => { c.go i (k y.1) with shared := y.2 }

section Cases

variable {h loop} {i : ι} {c : Threads Op Res σ β}

/-- A thread that has come to its end starts its next round. -/
lemma turn_done {b : β i} (hp : c.code i = .done b) :
    turn h loop i c = some (c.go i (loop i b)) := by rw [turn, hp]

/-- A thread takes the mutex if it is free, and cannot move otherwise. -/
lemma turn_lock {k : Unit → LockProg Op Res (β i)} (hp : c.code i = .node .lock k) :
    turn h loop i c =
      if c.owner = none then some { c.go i (k ()) with owner := some i } else none := by
  rw [turn, hp]

/-- A thread gives the mutex back if it holds it, and cannot move otherwise. -/
lemma turn_unlock {k : Unit → LockProg Op Res (β i)} (hp : c.code i = .node .unlock k) :
    turn h loop i c =
      if c.owner = some i then some { c.go i (k ()) with owner := none } else none := by
  rw [turn, hp]

/-- Any other operation acts on what is shared, and the code goes on with its result. -/
lemma turn_act {o : Op} {k : Res o → LockProg Op Res (β i)} (hp : c.code i = .node (.act o) k) :
    turn h loop i c =
      (h o c.shared).map fun y => { c.go i (k y.1) with shared := y.2 } := by
  rw [turn, hp]

/-- Without the mutex, too, a thread that has come to its end starts its next round. -/
lemma whole_done {b : β i} (hp : c.code i = .done b) :
    whole h loop i c = some (c.go i (loop i b)) := by rw [whole, hp]

/-- Without the mutex, a whole section is one step. -/
lemma whole_lock {k : Unit → LockProg Op Res (β i)} (hp : c.code i = .node .lock k) :
    whole h loop i c =
      (LockProg.critical h (k ()) c.shared).map fun y => { c.go i y.1 with shared := y.2 } := by
  rw [whole, hp]

/-- Without the mutex, an operation outside a section is one step as before. -/
lemma whole_act {o : Op} {k : Res o → LockProg Op Res (β i)} (hp : c.code i = .node (.act o) k) :
    whole h loop i c =
      (h o c.shared).map fun y => { c.go i (k y.1) with shared := y.2 } := by
  rw [whole, hp]

end Cases

/-- The turns as a transition relation. -/
def Turns (c : Threads Op Res σ β) (i : ι) (c' : Threads Op Res σ β) : Prop :=
  turn h loop i c = some c'

/-- The turns with whole sections as a transition relation. -/
def TurnsWhole (c : Threads Op Res σ β) (i : ι) (c' : Threads Op Res σ β) : Prop :=
  whole h loop i c = some c'

/-- At the start every loop is about to begin. -/
def start (s : σ) (b : (i : ι) → β i) : Threads Op Res σ β where
  shared := s
  owner := none
  code i := .done (b i)

end Threads

/-! ## Discipline -/

/-- Where a thread is with respect to the mutex: outside, inside a critical section, or inside with
nothing more to do. -/
inductive Phase where
  | outside
  | inside
  | committed
  deriving DecidableEq

/-- Operations sorted into free ones and movers. All operations keep an invariant that guarantees
something about their answers, and movers commute with free operations that come after them. -/
structure Discipline {Op : Type} {Res : Op → Type} {σ : Type} (h : Prog.Handler Op Res σ) where
  Inv : σ → Prop
  Rely : (o : Op) → Res o → Prop
  Free : Op → Prop
  Mover : Op → Prop
  step : ∀ {o s r s'}, Inv s → h o s = some (r, s') → Rely o r ∧ Inv s'
  commute : ∀ {o f s r s₁ q s₂}, Inv s → Mover o → Free f → h o s = some (r, s₁) →
    h f s₁ = some (q, s₂) → ∃ s₁', h f s = some (q, s₁') ∧ h o s₁' = some (r, s₂)

namespace Discipline

variable {Op : Type} {Res : Op → Type} {σ ι α : Type} {h : Prog.Handler Op Res σ}
  (D : Discipline h)

/-- The program, in the given phase, takes the mutex only where it does not hold it, gives it back
before it ends, does nothing but free operations without it, and with it only movers and one last
operation, none of which fails. -/
def Disciplined : LockProg Op Res α → Phase → Prop
  | .done _, ph => ph = .outside
  | .node .lock k, ph => ph = .outside ∧ Disciplined (k ()) .inside
  | .node .unlock k, ph => ph ≠ .outside ∧ Disciplined (k ()) .outside
  | .node (.act o) k, .outside => D.Free o ∧ ∀ r, D.Rely o r → Disciplined (k r) .outside
  | .node (.act o) k, .inside => (∀ s, D.Inv s → (h o s).isSome) ∧
      ((D.Mover o ∧ ∀ r, D.Rely o r → Disciplined (k r) .inside) ∨
        ∀ r, D.Rely o r → Disciplined (k r) .committed)
  | .node (.act _) _, .committed => False

/-- A program that has come to its end is outside its sections. -/
lemma Disciplined.of_done {D : Discipline h} {a : α} {ph : Phase}
    (hp : D.Disciplined (.done a : LockProg Op Res α) ph) : ph = .outside := hp

/-- With nothing more to do, a thread gives the mutex back. -/
lemma Disciplined.committed_eq {D : Discipline h} {p : LockProg Op Res α}
    (hp : D.Disciplined p .committed) :
    ∃ k, p = .node .unlock k ∧ D.Disciplined (k ()) .outside := by
  match p, hp with
  | .done _, hp => exact absurd hp.of_done (by decide)
  | .node .lock _, hp => exact absurd hp.1 (by decide)
  | .node .unlock k, hp => exact ⟨k, rfl, hp.2⟩
  | .node (.act _) _, hp => exact absurd hp id

/-! ## Prefixes of a critical section -/

/-- From `p` in the state `t`, movers lead to `q` in the state `s`. -/
inductive Moves (p : LockProg Op Res α) (t : σ) : LockProg Op Res α → σ → Prop where
  | refl : Moves p t p t
  | tail {o : Op} {k : Res o → LockProg Op Res α} {s s' : σ} {r : Res o}
      (hm : Moves p t (.node (.act o) k) s) (ho : D.Mover o) (hr : h o s = some (r, s')) :
      Moves p t (k r) s'

variable {D} {p q : LockProg Op Res α} {s s' t : σ}

/-- The invariant holds after the operations of a section that has only begun. -/
lemma Moves.inv (hm : D.Moves p t q s) (ht : D.Inv t) : D.Inv s := by
  induction hm with
  | refl => exact ht
  | tail _ _ hr ih => exact (D.step ih hr).2

/-- A free operation of another thread may as well come before the movers. -/
lemma Moves.commute (hm : D.Moves p t q s) (ht : D.Inv t) {f : Op} (hf : D.Free f) {x : Res f}
    (hx : h f s = some (x, s')) : ∃ t', h f t = some (x, t') ∧ D.Moves p t' q s' := by
  induction hm generalizing s' with
  | refl => exact ⟨s', hx, .refl⟩
  | tail hm ho hr ih =>
    obtain ⟨s₁, hfree, hmover⟩ := D.commute (hm.inv ht) ho hf hr hx
    obtain ⟨t', ht', hm'⟩ := ih hfree
    exact ⟨t', ht', .tail hm' ho hmover⟩

/-- Executing the section from its beginning is executing what is left of it. -/
lemma Moves.critical (hm : D.Moves p t q s) :
    LockProg.critical h p t = LockProg.critical h q s := by
  induction hm with
  | refl => rfl
  | tail hm ho hr ih => rw [ih, LockProg.critical, hr, Option.bind_some]

/-! ## Refinement -/

/-- How far the holder of the mutex is (`s`, `p`) compared to the system with whole sections
(`t`, `p'`): in that system the section has not begun yet, or it is over. -/
inductive Midway (D : Discipline h) (s : σ) (p : LockProg Op Res α) (t : σ)
    (p' : LockProg Op Res α) : Prop where
  | before {k : Unit → LockProg Op Res α} (hp' : p' = .node .lock k)
      (hm : D.Moves (k ()) t p s) (hp : D.Disciplined p .inside)
  | after {k : Unit → LockProg Op Res α} (hp : p = .node .unlock k) (hp' : p' = k ())
      (ht : t = s) (hk : D.Disciplined (k ()) .outside)

section Refinement

variable {β : ι → Type}

/-- A configuration of the threads and one of the system with whole sections. -/
structure Matches (D : Discipline h) (c c' : Threads Op Res σ β) : Prop where
  inv : D.Inv c'.shared
  owner : c'.owner = none
  outside : ∀ i, c.owner ≠ some i → c'.code i = c.code i ∧ D.Disciplined (c.code i) .outside
  free : c.owner = none → c'.shared = c.shared
  held : ∀ i, c.owner = some i → D.Midway c.shared (c.code i) c'.shared (c'.code i)

variable {D : Discipline h} {c c' c₁ : Threads Op Res σ β} {i : ι}

/-- At the start the two systems match, as no thread holds the mutex. -/
lemma matches_start {s : σ} (hs : D.Inv s) (b : (i : ι) → β i) :
    Matches D (Threads.start s b : Threads Op Res σ β) (Threads.start s b) where
  inv := hs
  owner := rfl
  outside _ _ := ⟨rfl, rfl⟩
  free _ := rfl
  held _ ho := absurd ho (Option.some_ne_none _).symm

/-- The invariant holds in the finer system, too, even inside a section. -/
lemma Matches.inv_shared (hc : Matches D c c') : D.Inv c.shared := by
  rcases Option.eq_none_or_eq_some c.owner with ho | ⟨i, ho⟩
  · exact hc.free ho ▸ hc.inv
  · cases hc.held i ho with
    | before hp' hm hp => exact hm.inv hc.inv
    | after hp hp' ht hk => exact ht ▸ hc.inv

/-- With the mutex free, the two configurations are the same. -/
lemma Matches.eq_of_free (hc : Matches D c c') (ho : c.owner = none) : c' = c := by
  obtain ⟨s, o, code⟩ := c
  obtain ⟨s', o', code'⟩ := c'
  obtain rfl : o = none := ho
  obtain rfl : o' = none := hc.owner
  obtain rfl : s' = s := hc.free rfl
  obtain rfl : code' = code :=
    funext fun i => (hc.outside i (Option.some_ne_none i).symm).1
  rfl

/-- A free operation has the same effect in both systems. -/
lemma Matches.act (hc : Matches D c c') {o : Op} (ho : D.Free o) {r : Res o} {s : σ}
    (hr : h o c.shared = some (r, s)) : ∃ t, h o c'.shared = some (r, t) ∧
      Matches D { c with shared := s } { c' with shared := t } := by
  rcases Option.eq_none_or_eq_some c.owner with howner | ⟨i, howner⟩
  · rw [← hc.free howner] at hr
    refine ⟨s, hr, (D.step hc.inv hr).2, hc.owner, hc.outside, fun _ => rfl, fun i hi => ?_⟩
    exact absurd (howner.symm.trans hi) (Option.some_ne_none i).symm
  · -- the holder is somewhere in its section, and the operation comes before what it has done
    have hheld : ∀ {t}, D.Inv t → D.Midway s (c.code i) t (c'.code i) →
        Matches D { c with shared := s } { c' with shared := t } := by
      intro t hinv hmid
      refine ⟨hinv, hc.owner, hc.outside, fun hn => ?_, fun j hj => ?_⟩
      · exact absurd (howner.symm.trans hn) (Option.some_ne_none i)
      · obtain rfl := Option.some.inj (howner.symm.trans hj)
        exact hmid
    cases hc.held i howner with
    | before hp' hm hp =>
      obtain ⟨t', ht', hm'⟩ := hm.commute hc.inv ho hr
      exact ⟨t', ht', hheld (D.step hc.inv ht').2 (.before hp' hm' hp)⟩
    | after hp hp' ht hk =>
      rw [← ht] at hr
      exact ⟨s, hr, hheld (D.step hc.inv hr).2 (.after hp hp' rfl hk)⟩

variable [DecidableEq ι] {loop : (i : ι) → β i → LockProg Op Res (β i)}

/-- A thread outside its sections goes on in both systems. -/
lemma Matches.go (hc : Matches D c c') (ho : c.owner ≠ some i) {p : LockProg Op Res (β i)}
    (hp : D.Disciplined p .outside) : Matches D (c.go i p) (c'.go i p) where
  inv := hc.inv
  owner := hc.owner
  outside j hj := by
    by_cases hji : j = i
    · subst hji
      rw [Threads.go_code_self, Threads.go_code_self]
      exact ⟨rfl, hp⟩
    · rw [Threads.go_code_of_ne _ _ hji, Threads.go_code_of_ne _ _ hji]
      exact hc.outside j hj
  free := hc.free
  held j hj := by
    have hji : j ≠ i := by
      rintro rfl
      exact ho hj
    rw [Threads.go_code_of_ne _ _ hji, Threads.go_code_of_ne _ _ hji]
    exact hc.held j hj

/-! ### One turn -/

/-- A turn of a thread that does not hold the mutex. -/
lemma Matches.turn_outside (hloop : ∀ i b, D.Disciplined (loop i b) .outside)
    (hc : Matches D c c') (ho : c.owner ≠ some i) (ht : Threads.Turns h loop c i c₁) :
    ∃ tr c₁', Run (Threads.TurnsWhole h loop) c' tr c₁' ∧ Matches D c₁ c₁' := by
  obtain ⟨hcode, hdisc⟩ := hc.outside i ho
  unfold Threads.Turns at ht
  match hp : c.code i, hdisc with
  | .done b, hdisc =>
    rw [Threads.turn_done hp] at ht
    obtain rfl := Option.some.inj ht
    have hwhole : Threads.whole h loop i c' = _ := Threads.whole_done (hcode.trans hp)
    exact ⟨_, _, .head hwhole (.refl _), hc.go ho (hloop i b)⟩
  | .node .lock k, hdisc =>
    rw [Threads.turn_lock hp] at ht
    split_ifs at ht with hfree
    obtain rfl := Option.some.inj ht
    refine ⟨[], c', .refl c', hc.inv, hc.owner, fun j hj => ?_, fun hn => ?_, fun j hj => ?_⟩
    · have hji : j ≠ i := by
        rintro rfl
        exact hj rfl
      obtain ⟨hj₁, hj₂⟩ := hc.outside j (by rw [hfree]; exact (Option.some_ne_none j).symm)
      have hsame := Threads.go_code_of_ne c (k ()) hji
      exact ⟨hj₁.trans hsame.symm, hsame ▸ hj₂⟩
    · exact absurd hn (Option.some_ne_none i)
    · obtain rfl := Option.some.inj hj
      have hself : (c.go i (k ())).code i = k () := Threads.go_code_self c i (k ())
      refine .before (hcode.trans hp) ?_ ?_
      · change D.Moves (k ()) c'.shared ((c.go i (k ())).code i) c.shared
        rw [hself, hc.free hfree]
        exact .refl
      · change D.Disciplined ((c.go i (k ())).code i) .inside
        rw [hself]
        exact hdisc.2
  | .node .unlock k, hdisc => exact absurd rfl hdisc.1
  | .node (.act o) k, hdisc =>
    rw [Threads.turn_act hp] at ht
    obtain ⟨⟨r, s⟩, hr, rfl⟩ := Option.map_eq_some_iff.1 ht
    obtain ⟨t, ht', hm⟩ := hc.act hdisc.1 hr
    have hrely : D.Rely o r := (D.step hc.inv_shared hr).1
    have hwhole : Threads.whole h loop i c' = _ := Threads.whole_act (hcode.trans hp)
    rw [ht', Option.map_some] at hwhole
    exact ⟨_, _, .head hwhole (.refl _), hm.go ho (hdisc.2 r hrely)⟩

/-- When the holder goes on in its section, the two systems still match. -/
lemma Matches.hold (hc : Matches D c c') (c₁ : Threads Op Res σ β) (ho : c.owner = some i)
    (hinv : D.Inv c₁.shared) (howner : c₁.owner = none) (hcode : ∀ j, j ≠ i → c₁.code j = c'.code j)
    {q : LockProg Op Res (β i)} {s : σ} (hq : D.Midway s q c₁.shared (c₁.code i)) :
    Matches D { c.go i q with shared := s } c₁ where
  inv := hinv
  owner := howner
  outside j hj := by
    have hji : j ≠ i := by
      rintro rfl
      exact hj ho
    have hsame := Threads.go_code_of_ne c q hji
    obtain ⟨hj₁, hj₂⟩ := hc.outside j hj
    exact ⟨((hcode j hji).trans hj₁).trans hsame.symm, hsame ▸ hj₂⟩
  free hn := absurd (ho.symm.trans hn) (Option.some_ne_none i)
  held j hj := by
    obtain rfl := Option.some.inj (ho.symm.trans hj)
    change D.Midway s ((c.go i q).code i) c₁.shared (c₁.code i)
    rw [Threads.go_code_self]
    exact hq

/-- When the holder leaves its section, the two systems match again, as both have performed it
whole. -/
lemma Matches.leave (hc : Matches D c c') (c₁ : Threads Op Res σ β) (ho : c.owner = some i)
    (hinv : D.Inv c₁.shared) (howner : c₁.owner = none) (hcode : ∀ j, j ≠ i → c₁.code j = c'.code j)
    {p : LockProg Op Res (β i)} (hself : c₁.code i = p) (hp : D.Disciplined p .outside)
    (hshared : c₁.shared = c.shared) : Matches D { c.go i p with owner := none } c₁ where
  inv := hinv
  owner := howner
  outside j _ := by
    change c₁.code j = (c.go i p).code j ∧ D.Disciplined ((c.go i p).code j) .outside
    by_cases hji : j = i
    · subst hji
      rw [Threads.go_code_self]
      exact ⟨hself, hp⟩
    · rw [Threads.go_code_of_ne _ _ hji, hcode j hji]
      exact hc.outside j fun hj => hji (Option.some.inj (hj.symm.trans ho))
  free _ := hshared
  held j hj := absurd hj (Option.some_ne_none j).symm

/-- A turn of the thread that holds the mutex. -/
lemma Matches.turn_holder (hc : Matches D c c') (ho : c.owner = some i)
    (ht : Threads.Turns h loop c i c₁) :
    ∃ tr c₁', Run (Threads.TurnsWhole h loop) c' tr c₁' ∧ Matches D c₁ c₁' := by
  unfold Threads.Turns at ht
  cases hc.held i ho with
  | after hp hp' hshared hk =>
    rename_i k
    rw [Threads.turn_unlock hp, if_pos ho] at ht
    obtain rfl := Option.some.inj ht
    exact ⟨[], c', .refl c', hc.leave c' ho hc.inv hc.owner (fun _ _ => rfl) hp' hk hshared⟩
  | before hp' hm hp =>
    rename_i k₀
    have hinv := hm.inv hc.inv
    -- the other system executes the section when it comes to its last operation
    have hwhole : ∀ {q : LockProg Op Res (β i)} {s : σ},
        LockProg.critical h (c.code i) c.shared = some (q, s) →
        Threads.TurnsWhole h loop c' i { c'.go i q with shared := s } := by
      intro q s hrun
      change Threads.whole h loop i c' = _
      rw [Threads.whole_lock hp', hm.critical, hrun, Option.map_some]
    have hothers : ∀ {q : LockProg Op Res (β i)} {s : σ} (j : ι), j ≠ i →
        ({ c'.go i q with shared := s } : Threads Op Res σ β).code j = c'.code j :=
      fun j hj => Threads.go_code_of_ne c' _ hj
    match hcode : c.code i, hp with
    | .done _, hp => exact absurd hp.of_done (by decide)
    | .node .lock k, hp => exact absurd hp.1 (by decide)
    | .node .unlock k, hp =>
      rw [Threads.turn_unlock hcode, if_pos ho] at ht
      obtain rfl := Option.some.inj ht
      have hrun : LockProg.critical h (c.code i) c.shared = some (k (), c.shared) := by
        rw [hcode, LockProg.critical]
      refine ⟨_, _, .head (hwhole hrun) (.refl _), ?_⟩
      exact hc.leave { c'.go i (k ()) with shared := c.shared } ho hinv hc.owner hothers
        (Threads.go_code_self c' i (k ())) hp.2 rfl
    | .node (.act o) k, hp =>
      rw [Threads.turn_act hcode] at ht
      obtain ⟨⟨r, s⟩, hr, rfl⟩ := Option.map_eq_some_iff.1 ht
      obtain ⟨hrely, hinv'⟩ := D.step hinv hr
      rcases hp.2 with ⟨hmover, hrest⟩ | hlast
      · refine ⟨[], c', .refl c', hc.hold c' ho hc.inv hc.owner (fun _ _ => rfl) ?_⟩
        exact .before hp' (.tail (hcode ▸ hm) hmover hr) (hrest r hrely)
      · obtain ⟨k', hk', hdisc⟩ := (hlast r hrely).committed_eq
        have hrun : LockProg.critical h (c.code i) c.shared = some (k' (), s) := by
          rw [hcode, LockProg.critical, hr, Option.bind_some, hk', LockProg.critical]
        refine ⟨_, _, .head (hwhole hrun) (.refl _), ?_⟩
        exact hc.hold { c'.go i (k' ()) with shared := s } ho hinv' hc.owner hothers
          (.after hk' (Threads.go_code_self c' i (k' ())) rfl hdisc)

/-- A turn is at most one turn of the system with whole sections. -/
theorem Matches.turn (hloop : ∀ i b, D.Disciplined (loop i b) .outside) (hc : Matches D c c')
    (ht : Threads.Turns h loop c i c₁) :
    ∃ tr c₁', Run (Threads.TurnsWhole h loop) c' tr c₁' ∧ Matches D c₁ c₁' := by
  by_cases ho : c.owner = some i
  · exact hc.turn_holder ho ht
  · exact hc.turn_outside hloop ho ht

/-- Whatever the threads do, the system with whole sections can do. -/
theorem refines (hloop : ∀ i b, D.Disciplined (loop i b) .outside)
    {tr : List (Threads Op Res σ β × ι)} (hrun : Run (Threads.Turns h loop) c tr c₁)
    (hc : Matches D c c') :
    ∃ tr' c₁', Run (Threads.TurnsWhole h loop) c' tr' c₁' ∧ Matches D c₁ c₁' := by
  induction hrun generalizing c' with
  | refl c => exact ⟨[], c', .refl c', hc⟩
  | head ht _ ih =>
    obtain ⟨tr₁, c₂, hrun₁, hc₂⟩ := hc.turn hloop ht
    obtain ⟨tr₂, c₃, hrun₂, hc₃⟩ := ih hc₂
    exact ⟨tr₁ ++ tr₂, c₃, hrun₁.trans hrun₂, hc₃⟩

/-! ### Waiting -/

omit [DecidableEq ι] in
/-- No thread that asks for the mutex holds it, so none waits for itself. -/
lemma Matches.not_owner_of_lock (hc : Matches D c c') {k : Unit → LockProg Op Res (β i)}
    (hp : c.code i = .node .lock k) : c.owner ≠ some i := by
  intro ho
  cases hc.held i ho with
  | before hp' hm hd =>
    rw [hp] at hd
    exact absurd hd.1 (by decide)
  | after hd hp' ht hk =>
    rw [hp] at hd
    exact nomatch (Prog.node.inj hd).1

omit [DecidableEq ι] in
/-- Only the holder gives the mutex back, as the discipline has it. -/
lemma Matches.owner_of_unlock (hc : Matches D c c') {k : Unit → LockProg Op Res (β i)}
    (hp : c.code i = .node .unlock k) : c.owner = some i := by
  by_contra ho
  have hd := (hc.outside i ho).2
  rw [hp] at hd
  exact hd.1 rfl

omit [DecidableEq ι] in
/-- What is not free is done by the holder. -/
lemma Matches.owner_of_act (hc : Matches D c c') {o : Op} {k : Res o → LockProg Op Res (β i)}
    (hp : c.code i = .node (.act o) k) (hfree : ¬D.Free o) : c.owner = some i := by
  by_contra ho
  have hd := (hc.outside i ho).2
  rw [hp] at hd
  exact hfree hd.1

/-- The holder of the mutex can always go on, so the others do not wait for ever. -/
lemma Matches.holder_turns (hc : Matches D c c') (ho : c.owner = some i) :
    ∃ c₁, Threads.Turns h loop c i c₁ := by
  unfold Threads.Turns
  cases hc.held i ho with
  | after hp hp' ht hk =>
    rw [Threads.turn_unlock hp, if_pos ho]
    exact ⟨_, rfl⟩
  | before hp' hm hd =>
    match hp : c.code i, hd with
    | .done _, hd => exact absurd hd.of_done (by decide)
    | .node .lock k, hd => exact absurd hd.1 (by decide)
    | .node .unlock k, hd =>
      rw [Threads.turn_unlock hp, if_pos ho]
      exact ⟨_, rfl⟩
    | .node (.act o) k, hd =>
      rw [Threads.turn_act hp]
      obtain ⟨y, hy⟩ := Option.isSome_iff_exists.1 (hd.1 c.shared hc.inv_shared)
      rw [hy]
      exact ⟨_, rfl⟩

/-- Left to itself, the holder gives the mutex back. -/
theorem Matches.releases (hloop : ∀ i b, D.Disciplined (loop i b) .outside)
    (hc : Matches D c c') (ho : c.owner = some i) : ∃ tr c₁,
      Run (Threads.Turns h loop) c tr c₁ ∧ c₁.owner = none ∧ ∀ e ∈ tr, e.2 = i := by
  -- by induction on what the holder has still to do
  induction hp : c.code i generalizing c c' with
  | done b =>
    cases hc.held i ho with
    | before hp' hm hd =>
      rw [hp] at hd
      exact absurd hd.of_done (by decide)
    | after hd => exact nomatch (hp.symm.trans hd)
  | node o k ih =>
    obtain ⟨c₁, ht⟩ : ∃ c₁, Threads.Turns h loop c i c₁ := hc.holder_turns ho
    obtain ⟨-, c₁', -, hc₁⟩ := hc.turn hloop ht
    have hhead : ∀ {tr c₂}, Run (Threads.Turns h loop) c₁ tr c₂ → c₂.owner = none →
        (∀ e ∈ tr, e.2 = i) → ∃ tr c₂, Run (Threads.Turns h loop) c tr c₂ ∧ c₂.owner = none ∧
          ∀ e ∈ tr, e.2 = i := fun hrun hfree hall =>
      ⟨_, _, .head ht hrun, hfree, List.forall_mem_cons.2 ⟨rfl, hall⟩⟩
    unfold Threads.Turns at ht
    match o, k, ih, hp with
    | .lock, k, _, hp => exact absurd ho (hc.not_owner_of_lock hp)
    | .unlock, k, _, hp =>
      rw [Threads.turn_unlock hp, if_pos ho] at ht
      obtain rfl := Option.some.inj ht
      exact hhead (.refl _) rfl (fun e he => absurd he List.not_mem_nil)
    | .act o, k, ih, hp =>
      rw [Threads.turn_act hp] at ht
      obtain ⟨⟨r, s⟩, -, rfl⟩ := Option.map_eq_some_iff.1 ht
      obtain ⟨tr, c₂, hrun, hfree, hall⟩ := ih r hc₁ ho (Threads.go_code_self c i (k r))
      exact hhead hrun hfree hall

end Refinement

end Discipline

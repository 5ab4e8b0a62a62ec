import Emu51.Firmware.Running

/-!
# Linking

A routine does the same in a larger program as in its own listing. In the program its instructions
stand further on, it is called from other places, and there may be more to its scope than it has
been verified with: steps of the listing are steps of the program all the same (`Config.step_link`).
The labels of a listing that has been put into a program name the places they should
(`Listing.linked`).

Only the instructions that are executed have to be there, so the program may have parts that are
not modelled (`Config.stepOn`).
-/

namespace Emu51

variable {σ : Type}

/-! ## Larger scopes -/

/-- What the first device answers, the second one answers in the same way. -/
structure Device.Le (d d' : Device σ) : Prop where
  read : ∀ {a g x}, d.read a g = some x → d'.read a g = some x
  write : ∀ {a x g g'}, d.write a x g = some g' → d'.write a x g = some g'

/-- A device says no less than itself. -/
lemma Device.Le.refl (d : Device σ) : d.Le d := ⟨id, id⟩

/-- Without a device nothing is said about any register, which is the least. -/
lemma Device.none_le (d : Device σ) : Device.none.Le d :=
  ⟨fun h => absurd h.symm (Option.some_ne_none _), fun h => absurd h.symm (Option.some_ne_none _)⟩

/-- Both scopes are of one machine, and the second one has all that the first one has. -/
structure Scope.Le (e e' : Scope σ) : Prop where
  readc : e'.readc = e.readc
  readx : e'.readx = e.readx
  dev : e.dev.Le e'.dev
  window : e.window = true → e'.window = true

namespace Scope.Le

variable {e e' : Scope σ} {s s' : Regs σ} {a x bit : Byte} {n : BitVec 3}

/-- What can be read in the smaller scope can be read in the larger one. -/
lemma read (h : e.Le e') (hx : s.read e.dev a = some x) : s.read e'.dev a = some x := by
  unfold Regs.read at hx ⊢
  split at hx
  · exact hx
  · exact h.dev.read hx

/-- What can be written in the smaller scope can be written in the larger one. -/
lemma write (h : e.Le e') (hs : s.write e.dev a x = some s') : s.write e'.dev a x = some s' := by
  unfold Regs.write at hs ⊢
  split at hs
  · exact hs
  · split_ifs at hs ⊢ with hsbuf
    · exact hs
    · obtain ⟨g, hg, rfl⟩ := Option.map_eq_some_iff.1 hs
      rw [h.dev.write hg, Option.map_some]

/-- An operand has the same value in the larger scope. -/
lemma operand (h : e.Le e') {o : Operand} (hx : s.operand e o = some x) :
    s.operand e' o = some x := by
  cases o with
  | imm v => exact hx
  | dir a => exact h.read hx
  | reg n =>
    obtain ⟨hwindow, heq⟩ := Option.ite_none_right_eq_some.1 hx
    exact (if_pos (h.window hwindow)).trans heq

/-- A register that can be set in the smaller scope can be set in the larger one. -/
lemma setReg (h : e.Le e') (hs : s.setReg e n x = some s') : s.setReg e' n x = some s' := by
  obtain ⟨hwindow, heq⟩ := Option.ite_none_right_eq_some.1 hs
  exact (if_pos (h.window hwindow)).trans heq

end Scope.Le

/-! ## Instructions further on -/

/-- An instruction that leaves the stack alone, with all places `o` further on. -/
lemma Insn.eval_link {e e' : Scope σ} (h : e.Le e') {i : Insn ℕ} {p : ℕ} {s : Regs σ}
    {y : Regs σ × ℕ} (hi : i.eval e p s = some y) (o : ℕ) :
    (i.map (· + o)).eval e' (p + o) s = some (y.1, y.2 + o) := by
  -- a branch goes to one of two places, and both are `o` further on
  have hbranch : ∀ {c : Prop} [Decidable c] {l : ℕ} {t : Regs σ},
      some (t, if c then l else p) = some y →
        some (t, if c then l + o else p + o) = some (y.1, y.2 + o) := by
    intro c _ l t hy
    obtain rfl := Option.some.inj hy
    split_ifs <;> rfl
  cases i with
  | movA _ | alu _ _ =>
    obtain ⟨x, hx, rfl⟩ := Option.map_eq_some_iff.1 hi
    exact Option.map_eq_some_iff.2 ⟨x, h.operand hx, rfl⟩
  | movDirA _ | movDirImm _ _ =>
    obtain ⟨s', hs, rfl⟩ := Option.map_eq_some_iff.1 hi
    exact Option.map_eq_some_iff.2 ⟨s', h.write hs, rfl⟩
  | movDirDir _ _ | xch _ =>
    obtain ⟨x, hx, hrest⟩ := Option.bind_eq_some_iff.1 hi
    obtain ⟨s', hs, rfl⟩ := Option.map_eq_some_iff.1 hrest
    exact Option.bind_eq_some_iff.2 ⟨x, h.read hx, Option.map_eq_some_iff.2 ⟨s', h.write hs, rfl⟩⟩
  | movRegA _ | movRegImm _ _ =>
    obtain ⟨s', hs, rfl⟩ := Option.map_eq_some_iff.1 hi
    exact Option.map_eq_some_iff.2 ⟨s', h.setReg hs, rfl⟩
  | movRegDir _ _ =>
    obtain ⟨x, hx, hrest⟩ := Option.bind_eq_some_iff.1 hi
    obtain ⟨s', hs, rfl⟩ := Option.map_eq_some_iff.1 hrest
    exact Option.bind_eq_some_iff.2
      ⟨x, h.read hx, Option.map_eq_some_iff.2 ⟨s', h.setReg hs, rfl⟩⟩
  | clrBit _ | setBit _ =>
    obtain ⟨x, hx, hrest⟩ := Option.bind_eq_some_iff.1 hi
    obtain ⟨s', hs, rfl⟩ := Option.map_eq_some_iff.1 hrest
    exact Option.bind_eq_some_iff.2 ⟨x, h.read hx, Option.map_eq_some_iff.2 ⟨s', h.write hs, rfl⟩⟩
  | movDptr _ | incDptr | onA _ | rrcA | mulAB | clrC | sjmp _ =>
    obtain rfl := Option.some.inj hi
    rfl
  | movcA =>
    obtain rfl := Option.some.inj hi
    exact congrArg (fun r : Word → Byte => some
      ({ s with acc := r (s.dptr + s.acc.setWidth 16) }, p + o)) h.readc
  | movxA =>
    obtain rfl := Option.some.inj hi
    exact congrArg (fun r : Word → Byte => some ({ s with acc := r s.dptr }, p + o)) h.readx
  | jc _ | jz _ | jnz _ | cjneA _ _ => exact hbranch hi
  | jb _ _ | jnb _ _ =>
    obtain ⟨x, hx, hy⟩ := Option.map_eq_some_iff.1 hi
    exact (Option.map_eq_some_iff.2 ⟨x, h.read hx, rfl⟩).trans (hbranch (congrArg some hy))
  | djnz n _ =>
    obtain ⟨s', hs, hy⟩ := Option.map_eq_some_iff.1 hi
    exact (Option.map_eq_some_iff.2 ⟨s', h.setReg hs, rfl⟩).trans (hbranch (congrArg some hy))
  | push _ | pop _ | acall _ | lcall _ | ret => exact absurd hi.symm (Option.some_ne_none _)

/-- A place of the listing in the program, where the caller of the listing is at `q`. -/
def linkPos (o : ℕ) (q : Option ℕ) : Option ℕ → Option ℕ
  | none => q
  | some p => some (p + o)

/-- An entry of the stack. -/
def Slot.link (o : ℕ) (q : Option ℕ) : Slot → Slot
  | byte x => byte x
  | ret p => ret (linkPos o q p)

namespace Config

/-- The state of the listing as one of the program: `k` is the stack of the caller. -/
def link (o : ℕ) (q : Option ℕ) (k : List Slot) (c : Config σ) : Config σ :=
  ⟨linkPos o q c.pos, c.regs, c.stack.map (Slot.link o q) ++ k, c.room⟩

variable {e e' : Scope σ} {part whole : List (Insn ℕ)} {o : ℕ} {c c' : Config σ}

/-- An instruction that leaves the stack alone is performed as its evaluation says. -/
lemma exec_of_eval {i : Insn ℕ} {p : ℕ} {y : Regs σ × ℕ} (hi : i.eval e p c.regs = some y) :
    c.exec e p i = some { c with pos := some y.2, regs := y.1 } := by
  cases i with
  | push _ | pop _ | acall _ | lcall _ | ret => exact absurd hi.symm (Option.some_ne_none _)
  | _ =>
    exact congrArg (Option.map fun y => ({ c with pos := some y.2, regs := y.1 } : Config σ)) hi

/-- An instruction does the same in a larger scope, when its code is moved and more is on the stack.
-/
lemma exec_link (h : e.Le e') {i : Insn ℕ} {p : ℕ} (hc : c.exec e p i = some c') (o : ℕ)
    (q : Option ℕ) (k : List Slot) :
    (c.link o q k).exec e' (p + o) (i.map (· + o)) = some (c'.link o q k) := by
  obtain ⟨pos, s, stack, room⟩ := c
  have hcall : ∀ l, Config.call ⟨pos, s, stack, room⟩ l p = some c' →
      Config.call (link o q k ⟨pos, s, stack, room⟩) (l + o) (p + o) = some (c'.link o q k) := by
    intro l hl
    match room, hl with
    | n + 2, hl =>
      obtain rfl := Option.some.inj hl
      rfl
  unfold exec at hc
  split at hc
  case h_1 a =>
    match room, hc with
    | n + 1, hc =>
      obtain ⟨x, hx, rfl⟩ := Option.map_eq_some_iff.1 hc
      exact Option.map_eq_some_iff.2 ⟨x, h.read hx, rfl⟩
  case h_2 a =>
    match stack, hc with
    | .byte x :: stack, hc =>
      obtain ⟨s', hs, rfl⟩ := Option.map_eq_some_iff.1 hc
      exact Option.map_eq_some_iff.2 ⟨s', h.write hs, rfl⟩
  case h_3 l => exact hcall l hc
  case h_4 l => exact hcall l hc
  case h_5 =>
    match stack, hc with
    | .ret p :: stack, hc =>
      obtain rfl := Option.some.inj hc
      rfl
  case h_6 =>
    obtain ⟨y, hy, rfl⟩ := Option.map_eq_some_iff.1 hc
    exact exec_of_eval (c := link o q k ⟨pos, s, stack, room⟩) (Insn.eval_link h hy o)

end Config

/-- Renaming the labels twice is renaming them once. -/
lemma Insn.map_map {L M N : Type} (f : L → M) (g : M → N) (i : Insn L) :
    (i.map f).map g = i.map fun l => g (f l) := by
  cases i <;> rfl

/-- The program has the code of the listing at the position `o`. -/
structure Linked (part : List (Insn ℕ)) (o : ℕ) (whole : List (Insn ℕ)) : Prop where
  insn : ∀ {p i}, part[p]? = some i → whole[p + o]? = some (i.map (· + o))

/-- A part of a part is a part, as far on as both offsets say. -/
lemma Linked.trans {part whole all : List (Insn ℕ)} {o r : ℕ} (h : Linked part o whole)
    (h' : Linked whole r all) : Linked part (o + r) all where
  insn {p i} hi := by
    have hall := h'.insn (h.insn hi)
    rw [Insn.map_map, Nat.add_assoc] at hall
    simpa only [Nat.add_assoc] using hall

section Runs

variable {P : ℕ → Prop} [DecidablePred P] {e e' : Scope σ} {part whole : List (Insn ℕ)} {o : ℕ}
  {c c' : Config σ}

/-- One instruction of the listing is one instruction of the program. -/
lemma Config.step_link (h : e.Le e') (hpart : Linked part o whole)
    (hP : ∀ p < part.length, P (p + o)) (hc : c.step e part = some c') (q : Option ℕ)
    (k : List Slot) : (c.link o q k).stepOn P e' whole = some (c'.link o q k) := by
  unfold Config.step at hc
  split at hc
  · exact absurd hc.symm (Option.some_ne_none _)
  · next p hp =>
    split at hc
    · exact absurd hc.symm (Option.some_ne_none _)
    · next i hi =>
      have hpos : (c.link o q k).pos = some (p + o) := by
        rw [link, hp]
        rfl
      have hlt : p < part.length := (List.getElem?_eq_some_iff.1 hi).1
      rw [stepOn, if_pos ⟨p + o, hpos, hP p hlt⟩, step, hpos]
      dsimp only
      rw [hpart.insn hi]
      dsimp only
      rw [Nat.add_right_comm]
      exact exec_link h hc o q k

/-- What the listing leads to, the program leads to. -/
theorem Leads.link (h : e.Le e') (hpart : Linked part o whole)
    (hP : ∀ p < part.length, P (p + o)) (hlead : Leads (Config.step e part) c c') (q : Option ℕ)
    (k : List Slot) :
    Leads (Config.stepOn P e' whole) (c.link o q k) (c'.link o q k) := by
  obtain ⟨t, hrun, rfl⟩ := Leads.simulate (g := Config.stepOn P e' whole)
    (R := fun c t => t = c.link o q k)
    (fun a b t hrel hstep => by
      subst hrel
      exact ⟨_, .single (Config.step_link h hpart hP hstep q k), rfl⟩) hlead rfl
  exact hrun

end Runs

/-! ## Labels -/

namespace Listing

variable {L M : Type} [DecidableEq L] [DecidableEq M]

/-- The number of instructions. -/
def size (ls : Listing L) : ℕ := (ls.flatMap Prod.snd).length

/-- The listing with other names for its labels. -/
def relabel (f : L → M) (ls : Listing L) : Listing M :=
  ls.map fun x => (f x.1, x.2.map (Insn.map f))

omit [DecidableEq L] in
/-- The size of a listing is that of its first routine and those of the others. -/
lemma size_cons (x : L × List (Insn L)) (ls : Listing L) :
    size (x :: ls) = x.2.length + ls.size := by
  rw [size, List.flatMap_cons, List.length_append]
  rfl

/-- A label that is not in the first part. -/
lemma pos_append {ls ls' : Listing L} {l : L} (h : l ∉ ls.map Prod.fst) :
    (ls ++ ls').pos l = ls.size + ls'.pos l := by
  induction ls with
  | nil => exact (Nat.zero_add _).symm
  | cons x ls ih =>
    rw [List.map_cons, List.mem_cons, not_or] at h
    rw [List.cons_append, pos, if_neg (Ne.symm h.1), ih h.2, size_cons, Nat.add_assoc]

/-- A label of the first part is where it is in that part alone, under its new name. -/
lemma pos_relabel {f : L → M} (hf : f.Injective) {ls : Listing L} (ls' : Listing M) {l : L}
    (h : l ∈ ls.map Prod.fst) : (ls.relabel f ++ ls').pos (f l) = ls.pos l := by
  induction ls with
  | nil => exact absurd h List.not_mem_nil
  | cons x ls ih =>
    rw [relabel, List.map_cons, List.cons_append, pos, pos, List.length_map]
    by_cases hl : x.1 = l
    · rw [if_pos hl, if_pos (congrArg f hl)]
    · rw [if_neg hl, if_neg fun heq => hl (hf heq)]
      rw [List.map_cons, List.mem_cons] at h
      exact congrArg _ (ih (h.resolve_left (Ne.symm hl)))

/-- The labels of a listing that has been put into a program. -/
lemma pos_linked {f : L → M} (hf : f.Injective) {ls : Listing L} {ls₁ : Listing M} {l : L}
    (hlabel : l ∈ ls.map Prod.fst) (hfresh : f l ∉ ls₁.map Prod.fst) (ls₂ : Listing M) :
    (ls₁ ++ (ls.relabel f ++ ls₂)).pos (f l) = ls.pos l + ls₁.size := by
  rw [pos_append hfresh, pos_relabel hf _ hlabel, Nat.add_comm]

/-- A listing that has all its labels, put into a program. -/
theorem linked {f : L → M} (hf : f.Injective) {ls : Listing L}
    (hlabels : ∀ l, l ∈ ls.map Prod.fst) (ls₁ ls₂ : Listing M)
    (hfresh : ∀ l, f l ∉ ls₁.map Prod.fst) :
    Linked ls.code ls₁.size (ls₁ ++ (ls.relabel f ++ ls₂)).code where
  insn {p i} hi := by
    rw [code, List.getElem?_map] at hi
    obtain ⟨j, hj, rfl⟩ := Option.map_eq_some_iff.1 hi
    have hpos : ∀ l, (ls₁ ++ (ls.relabel f ++ ls₂)).pos (f l) = ls.pos l + ls₁.size :=
      fun l => pos_linked hf (hlabels l) (hfresh l) ls₂
    have hpart : (ls.relabel f).flatMap Prod.snd = (ls.flatMap Prod.snd).map (Insn.map f) := by
      rw [relabel, List.flatMap_map, List.map_flatMap]
    have hlt : p < ((ls.flatMap Prod.snd).map (Insn.map f)).length := by
      rw [List.length_map]
      exact (List.getElem?_eq_some_iff.1 hj).1
    have hget : ((ls₁ ++ (ls.relabel f ++ ls₂)).flatMap Prod.snd)[p + ls₁.size]? =
        some (j.map f) := by
      rw [List.flatMap_append, List.getElem?_append_right (Nat.le_add_left ls₁.size p), size,
        Nat.add_sub_cancel, List.flatMap_append, hpart, List.getElem?_append_left hlt,
        List.getElem?_map, hj, Option.map_some]
    rw [code, List.getElem?_map, hget, Option.map_some, Insn.map_map, Insn.map_map]
    simp only [hpos]

/-- The instructions behind a label are found at its position, with their labels resolved. -/
lemma code_lookup {ls : Listing L} {l : L} {is : List (Insn L)} (h : ls.lookup l = some is)
    {p : ℕ} {i : Insn L} (hi : is[p]? = some i) :
    ls.code[ls.pos l + p]? = some (i.map ls.pos) := by
  have hinsn : (ls.flatMap Prod.snd)[ls.pos l + p]? = some i := by
    induction ls with
    | nil => exact absurd h.symm (Option.some_ne_none _)
    | cons x ls ih =>
      obtain ⟨l', is'⟩ := x
      rw [List.flatMap_cons, pos]
      by_cases hl : l' = l
      · rw [List.lookup_cons, hl, beq_self_eq_true] at h
        obtain rfl := Option.some.inj h
        have hlt : p < is'.length := (List.getElem?_eq_some_iff.1 hi).1
        rw [if_pos hl, Nat.zero_add, List.getElem?_append_left hlt, hi]
      · rw [List.lookup_cons, beq_false_of_ne (Ne.symm hl)] at h
        rw [if_neg hl, Nat.add_assoc, List.getElem?_append_right (Nat.le_add_right ..),
          Nat.add_sub_cancel_left, ih h]
  rw [code, List.getElem?_map, hinsn, Option.map_some]

end Listing

end Emu51

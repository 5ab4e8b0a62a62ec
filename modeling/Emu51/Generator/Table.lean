import Mathlib.Data.List.Induction
import Mathlib.Data.List.Nodup
import Emu51.Generator.Records

/-!
# The dispatch table

What `gen` makes of a file of records. The last record that lists an entry has it, and each record
that has an entry is printed once, however many entries share its structure (`dispatches_iff`). Its
code is printed line by line as it is in the file (`verbatim_iff`). Both presuppose that reading the
file is defined at all.
-/

namespace Emu51

namespace Generator

open CString

/-- The label an entry should have: that of the last record which lists it. -/
def labelOf (rs : List Record) (i : Fin 256) : List Char :=
  match rs.reverse.find? fun r => r.entries.contains i with
  | none => "unimpl".toList
  | some r => r.name

/-- The output is the dispatch table of the records. -/
structure Dispatches (rs : List Record) (out : Output) : Prop where
  insnmap : ∀ i, out.insnmap i = labelOf rs i
  once : ∀ i, out.insnmap i ≠ "unimpl".toList →
    (out.bodies.map Body.label).count (out.insnmap i) = 1
  only : ∀ b ∈ out.bodies, b.label ≠ "unimpl".toList ∧ ∃ i, out.insnmap i = b.label
  advances : ∀ b ∈ out.bodies, ∀ r ∈ rs, b.label = r.name → r.byteCount ≠ 0 →
    ∃ t, b.text = t ++ "\tpc += ".toList ++ (toString r.byteCount).toList ++ ";\n".toList ++
      "\tFETCH;\n".toList

/-! ## The structures -/

/-- What has been read are these records. -/
structure HasRead (rs : List Record) (st : State) : Prop where
  nops : st.nops = rs.length
  ops : ∀ p (hp : p < rs.length), st.ops p = rs[p].op
  lt : ∀ i p, st.opmap i = some p → p < rs.length
  label : ∀ i, st.label i = labelOf rs i

/-- One more record takes the entries it names and leaves the others to the records before it. -/
lemma labelOf_concat (rs : List Record) (r : Record) (i : Fin 256) :
    labelOf (rs ++ [r]) i = if i ∈ r.entries then r.name else labelOf rs i := by
  unfold labelOf
  rw [List.reverse_append, List.reverse_singleton, List.singleton_append, List.find?_cons]
  by_cases hi : i ∈ r.entries <;> simp [hi]

/-- Each record adds its structure and takes over its entries. -/
theorem hasRead (rs : List Record) : HasRead rs (rs.foldl State.finish init) := by
  induction rs using List.reverseRecOn with
  | nil =>
    exact ⟨rfl, fun p hp => absurd hp (Nat.not_lt_zero p), fun i p h => absurd h
      (Option.some_ne_none p).symm, fun i => rfl⟩
  | append_singleton rs r ih =>
    rw [List.foldl_append]
    change HasRead (rs ++ [r]) ((rs.foldl State.finish init).finish r)
    generalize rs.foldl State.finish init = st at ih ⊢
    have hlen : (rs ++ [r]).length = rs.length + 1 := List.length_append
    have hold : ∀ p < rs.length, (st.finish r).ops p = st.ops p := fun p hp =>
      Function.update_of_ne (by rw [ih.nops]; exact hp.ne) _ _
    have hnew : (st.finish r).ops rs.length = r.op := by
      rw [← ih.nops]
      exact Function.update_self ..
    have hopmap : ∀ i, (st.finish r).opmap i =
        if i ∈ r.entries then some rs.length else st.opmap i := by
      rw [← ih.nops]
      exact fun i => rfl
    refine ⟨by rw [hlen, ← ih.nops]; rfl, fun p hp => ?_, fun i p h => ?_, fun i => ?_⟩
    · rcases Nat.lt_succ_iff_lt_or_eq.1 (hlen ▸ hp) with hp' | rfl
      · rw [hold p hp', ih.ops p hp', List.getElem_append_left hp']
      · rw [hnew, List.getElem_concat_length rfl]
    · rw [hopmap] at h
      split_ifs at h with hi
      · rw [hlen, ← Option.some.inj h]
        exact Nat.lt_succ_self _
      · rw [hlen]
        exact Nat.lt_succ_of_lt (ih.lt i p h)
    · rw [labelOf_concat, State.label, hopmap]
      split_ifs with hi
      · exact congrArg Op.name hnew
      · rw [← ih.label, State.label]
        cases h : st.opmap i with
        | none => rfl
        | some p => exact congrArg Op.name (hold p (ih.lt i p h))

/-! ## Printing -/

/-- What is printed for a structure. -/
def Op.body (op : Op) : Body := ⟨op.name, op.desc, op.code, op.bytes⟩

/-- The second loop prints the structures that have an entry, each of them once. -/
theorem foldl_emit (opmap : Fin 256 → Option ℕ) (ops : ℕ → Op)
    (hops : ∀ i p, opmap i = some p → (ops p).emitted = false) (is : List (Fin 256)) :
    ∃ ps : List ℕ, ps.Nodup ∧ (∀ p, p ∈ ps ↔ ∃ i ∈ is, opmap i = some p) ∧
      is.foldl (emit opmap) (ops, []) = (fun p => { ops p with
        emitted := (ops p).emitted || decide (p ∈ ps) }, ps.map fun p => (ops p).body) := by
  induction is using List.reverseRecOn with
  | nil =>
    refine ⟨[], List.nodup_nil, fun p => ⟨fun h => absurd h List.not_mem_nil, ?_⟩, ?_⟩
    · rintro ⟨i, hi, -⟩
      exact absurd hi List.not_mem_nil
    · refine Prod.ext (funext fun p => ?_) rfl
      simp
  | append_singleton is i ih =>
    obtain ⟨ps, hnodup, hmem, hfold⟩ := ih
    rw [List.foldl_append, hfold, List.foldl_cons, List.foldl_nil, emit]
    have hconcat : ∀ p, (∃ j ∈ is ++ [i], opmap j = some p) ↔ p ∈ ps ∨ opmap i = some p := by
      intro p
      rw [hmem]
      constructor
      · rintro ⟨j, hj, hp⟩
        rcases List.mem_append.1 hj with hj | hj
        · exact .inl ⟨j, hj, hp⟩
        · exact .inr (List.mem_singleton.1 hj ▸ hp)
      · rintro (⟨j, hj, hp⟩ | hp)
        · exact ⟨j, List.mem_append_left _ hj, hp⟩
        · exact ⟨i, List.mem_append_right _ (List.mem_singleton_self i), hp⟩
    cases hi : opmap i with
    | none =>
      refine ⟨ps, hnodup, fun p => ?_, rfl⟩
      rw [hconcat, hi]
      exact ⟨.inl, fun h => h.resolve_right (Option.some_ne_none p).symm⟩
    | some p =>
      dsimp only
      rw [hops i p hi, Bool.false_or]
      by_cases hp : p ∈ ps
      · refine ⟨ps, hnodup, fun q => ?_, if_pos (decide_eq_true hp)⟩
        rw [hconcat, hi]
        refine ⟨.inl, fun h => h.elim id ?_⟩
        rintro ⟨⟩
        exact hp
      · refine ⟨ps ++ [p], ?_, fun q => ?_, ?_⟩
        · exact List.nodup_append.2 ⟨hnodup, List.nodup_singleton p, fun a ha b hb => by
            rintro rfl
            exact hp (List.mem_singleton.1 hb ▸ ha)⟩
        · rw [hconcat, hi, List.mem_append, List.mem_singleton, Option.some.injEq, eq_comm (a := q)]
        · rw [if_neg (by simp [hp])]
          refine Prod.ext (funext fun q => ?_) ?_
          · dsimp only
            rw [Function.update_apply]
            by_cases hq : q = p
            · subst hq
              simp
            · simp [hq]
          · rw [List.map_append]
            rfl

/-- Records of one name are at one place, as all the names are different. -/
lemma index_of_name {rs : List Record} (hnames : (rs.map fun r => r.name).Nodup) {p q : ℕ}
    (hp : p < rs.length) (hq : q < rs.length) (h : rs[p].name = rs[q].name) : p = q := by
  have hp' : p < (rs.map fun r => r.name).length := by rwa [List.length_map]
  have hq' : q < (rs.map fun r => r.name).length := by rwa [List.length_map]
  have hpq : (rs.map fun r => r.name)[p] = (rs.map fun r => r.name)[q] := by
    rw [List.getElem_map, List.getElem_map, h]
  exact hnames.getElem_inj_iff.1 hpq

/-- A name is that of one record only, which stands where the name does. -/
lemma getElem_of_name {rs : List Record} (hnames : (rs.map fun r => r.name).Nodup) {p : ℕ}
    (hp : p < rs.length) {r : Record} (hr : r ∈ rs) (h : rs[p].name = r.name) : rs[p] = r := by
  obtain ⟨q, hq, rfl⟩ := List.getElem_of_mem hr
  obtain rfl := index_of_name hnames hp hq h
  rfl

section Output

variable {rs : List Record} {st : State} (h : HasRead rs st)
include h

/-- What is printed are the structures of some records, and which ones. -/
lemma HasRead.bodies : ∃ ps : List ℕ, ps.Nodup ∧ (∀ p, p ∈ ps ↔ ∃ i, st.opmap i = some p) ∧
    st.output.bodies = ps.map fun p => (st.ops p).body := by
  have hops : ∀ i p, st.opmap i = some p → (st.ops p).emitted = false := by
    intro i p hi
    rw [h.ops p (h.lt i p hi)]
    rfl
  obtain ⟨ps, hnodup, hmem, hfold⟩ := foldl_emit st.opmap st.ops hops (List.finRange 256)
  refine ⟨ps, hnodup, fun p => ?_, congrArg Prod.snd hfold⟩
  rw [hmem]
  exact ⟨fun ⟨i, _, hi⟩ => ⟨i, hi⟩, fun ⟨i, hi⟩ => ⟨i, List.mem_finRange i, hi⟩⟩

/-- What is printed for a label is the body of the record with this name, as names are different. -/
lemma HasRead.body_eq (hnames : (rs.map fun r => r.name).Nodup) {b : Body}
    (hb : b ∈ st.output.bodies) {r : Record} (hr : r ∈ rs) (hlabel : b.label = r.name) :
    b = r.op.body := by
  obtain ⟨ps, -, hmem, hbodies⟩ := h.bodies
  rw [hbodies] at hb
  obtain ⟨p, hp, rfl⟩ := List.mem_map.1 hb
  obtain ⟨i, hi⟩ := (hmem p).1 hp
  have hlt := h.lt i p hi
  rw [h.ops p hlt] at hlabel ⊢
  rw [getElem_of_name hnames hlt hr hlabel]

/-- The output of a program that has read the records. -/
theorem HasRead.dispatches (hnames : (rs.map fun r => r.name).Nodup) :
    Dispatches rs st.output := by
  obtain ⟨ps, hnodup, hmem, hbodies⟩ := h.bodies
  have hlabels : st.output.bodies.map Body.label = ps.map fun p => (st.ops p).name := by
    rw [hbodies, List.map_map]
    rfl
  have hused : ∀ p ∈ ps, ∃ hp : p < rs.length, st.ops p = rs[p].op := by
    intro p hp
    obtain ⟨i, hi⟩ := (hmem p).1 hp
    exact ⟨h.lt i p hi, h.ops p (h.lt i p hi)⟩
  have hentry : ∀ i p, st.opmap i = some p → st.label i = (st.ops p).name := by
    intro i p hi
    rw [State.label, hi]
  constructor
  · exact h.label
  · intro i hi
    have hi' : st.label i ≠ "unimpl".toList := hi
    have hdistinct : (st.output.bodies.map Body.label).Nodup := by
      rw [hlabels]
      refine List.Nodup.map_on (fun p hp q hq hpq => ?_) hnodup
      obtain ⟨hplt, hpop⟩ := hused p hp
      obtain ⟨hqlt, hqop⟩ := hused q hq
      rw [hpop, hqop] at hpq
      exact index_of_name hnames hplt hqlt hpq
    refine List.count_eq_one_of_mem hdistinct ?_
    cases hp : st.opmap i with
    | none =>
      rw [State.label, hp] at hi'
      exact absurd rfl hi'
    | some p =>
      rw [hlabels]
      exact List.mem_map.2 ⟨p, (hmem p).2 ⟨i, hp⟩, (hentry i p hp).symm⟩
  · intro b hb
    rw [hbodies] at hb
    obtain ⟨p, hp, rfl⟩ := List.mem_map.1 hb
    obtain ⟨hplt, hpop⟩ := hused p hp
    obtain ⟨i, hi⟩ := (hmem p).1 hp
    refine ⟨?_, i, hentry i p hi⟩
    rw [hpop]
    exact rs[p].name_ne_unimpl
  · intro b hb r hr hlabel hbytes
    have hcount : r.op.body.bytes ≠ 0 := hbytes
    rw [h.body_eq hnames hb hr hlabel, Body.text, if_pos hcount]
    exact ⟨_, by simp only [← List.append_assoc]; rfl⟩

end Output

/-- `gen` builds the dispatch table of the records exactly if there is a record and each block for a
longer text of code holds a null where `memcpy` should have put one. -/
theorem dispatches_iff (fresh : ℕ → ℕ → Char) {rs : List Record} {ls : List (List Char)}
    (h : Renders rs ls) (hnames : (rs.map fun r => r.name).Nodup) :
    (∃ out, gen fresh ls.flatten = some out ∧ Dispatches rs out) ↔
      rs ≠ [] ∧ AllNullsAt fresh 0 rs := by
  have hread := readFile_renders fresh h (rs.foldl State.finish init)
  constructor
  · rintro ⟨out, hout, -⟩
    obtain ⟨st, hst, -⟩ := Option.map_eq_some_iff.1 hout
    exact ((readFile_renders fresh h st).1 hst).1
  · intro hgood
    refine ⟨(rs.foldl State.finish init).output, ?_, (hasRead rs).dispatches hnames⟩
    rw [gen, hread.2 ⟨hgood, rfl⟩, Option.map_some]

/-- `gen` stores the code of every record as it is in the file, line by line, and that is what it
prints. -/
def Verbatim (rs : List Record) (st : State) : Prop :=
  ∀ r ∈ rs, r.code ≠ [] →
    (∃ p, p < st.nops ∧ (st.ops p).name = r.name ∧
      (st.ops p).code = some r.codeStrings.flatten) ∧
    ∀ b ∈ st.output.bodies, b.label = r.name → b.code = some r.codeStrings.flatten

/-- It does so exactly if each block for a longer text of code holds a null where `memcpy` should
have put one. A record with a single line of code needs no such block. -/
theorem verbatim_iff (fresh : ℕ → ℕ → Char) {rs : List Record} {ls : List (List Char)}
    (h : Renders rs ls) (hrs : rs ≠ []) (hnames : (rs.map fun r => r.name).Nodup) :
    (∃ st, readFile fresh ls.flatten = some st ∧ Verbatim rs st) ↔ AllNullsAt fresh 0 rs := by
  have hall := hasRead rs
  constructor
  · rintro ⟨st, hst, -⟩
    exact ((readFile_renders fresh h st).1 hst).1.2
  · intro hnulls
    refine ⟨_, (readFile_renders fresh h _).2 ⟨⟨hrs, hnulls⟩, rfl⟩, fun r hr hcode => ?_⟩
    have htext : r.codeText = some r.codeStrings.flatten := by
      refine if_neg fun hnil => hcode ?_
      have hlen := length_withNewlines r.ended (r.code.map ('\t' :: ·))
      rw [← Record.codeStrings, hnil, List.length_map] at hlen
      exact List.length_eq_zero_iff.1 hlen.symm
    obtain ⟨p, hp, rfl⟩ := List.getElem_of_mem hr
    constructor
    · refine ⟨p, by rwa [hall.nops], ?_⟩
      rw [hall.ops p hp]
      exact ⟨rfl, htext⟩
    · intro b hb hlabel
      rw [hall.body_eq hnames hb hr hlabel]
      exact htext

/-! ## Two lines of code -/

instance (l : List Char) : Decidable (Plain l) := inferInstanceAs (Decidable (_ ∧ _))

/-- A record with two lines of code. -/
def swap : Record where
  name := "swap_a".toList
  first :=
    { digits := "196".toList
      ne_nil := by decide
      isDigit := List.all_eq_true.1 (by decide)
      lt := by decide }
  others := []
  bytes := some
    { digits := "1".toList
      ne_nil := by decide
      isDigit := List.all_eq_true.1 (by decide)
      lt := by decide }
  desc := some "SWAP A".toList
  code := ["tmp1 = ACC >> 4;".toList, "ACC = tmp1 | ACC << 4;".toList]
  ended := true
  name_ne_nil := by decide
  name_ne_unimpl := by decide
  name_comma := by decide
  desc_ne_nil := by decide
  desc_tab := by decide
  plain := by decide
  fits := by decide

/-- On a heap of nulls the table is right. -/
theorem dispatches_iff_swap :
    ∃ out, gen (fun _ _ => nul) swap.strings.flatten = some out ∧ Dispatches [swap] out :=
  (dispatches_iff (fun _ _ => nul) (.last swap) (List.nodup_singleton _)).2
    ⟨List.cons_ne_nil _ _, ⟨rfl, trivial⟩, trivial⟩

/-- And so is its code, two lines that are copied as they are. -/
theorem verbatim_iff_swap :
    ∃ st, readFile (fun _ _ => nul) swap.strings.flatten = some st ∧ Verbatim [swap] st :=
  (verbatim_iff (fun _ _ => nul) (.last swap) (List.cons_ne_nil _ _) (List.nodup_singleton _)).2
    ⟨⟨rfl, trivial⟩, trivial⟩

/-- An empty file is not read, and neither are two lines of code on a heap of other characters. -/
theorem not_forall_dispatches : ¬(∀ (fresh : ℕ → ℕ → Char) (rs : List Record)
      (ls : List (List Char)), Renders rs ls → (rs.map fun r => r.name).Nodup →
      ∃ out, gen fresh ls.flatten = some out ∧ Dispatches rs out) ∧
    gen (fun _ _ => nul) [] = none ∧ gen (fun _ _ => 'x') swap.strings.flatten = none := by
  have hempty : gen (fun _ _ => nul) [] = none := rfl
  refine ⟨fun hall => ?_, hempty, by decide +kernel⟩
  obtain ⟨out, hout, -⟩ := hall (fun _ _ => nul) [] [] .nil List.nodup_nil
  exact absurd (hout.symm.trans hempty) (Option.some_ne_none out)

/-- Two lines of code on a heap of other characters: `strcat` runs past the end of the block. -/
theorem not_forall_verbatim : ¬∀ (fresh : ℕ → ℕ → Char) (rs : List Record)
    (ls : List (List Char)), Renders rs ls → rs ≠ [] → (rs.map fun r => r.name).Nodup →
    ∃ st, readFile fresh ls.flatten = some st ∧ Verbatim rs st := by
  intro hall
  obtain ⟨st, hst, -⟩ := hall (fun _ _ => 'x') [swap] swap.strings (.last swap)
    (List.cons_ne_nil _ _) (List.nodup_singleton _)
  have hnone : (readFile (fun _ _ => 'x') swap.strings.flatten).isNone = true := by decide +kernel
  rw [hst] at hnone
  exact Bool.false_ne_true hnone

end Generator

end Emu51

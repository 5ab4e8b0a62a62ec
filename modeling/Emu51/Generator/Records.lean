import Emu51.Generator.Gen

/-!
# Files of records

The format of `allops.txt`: a header, at most one description, lines of code, blank lines. Reading
such a file amounts to one new structure for each record, which all entries share that the record
lists (`read_renders`). It succeeds unless a block for a longer text of code does not happen to hold
a null where the text so far ends: `memcpy` does not copy that null, and `strcat` looks for it.
-/

namespace Emu51

namespace Generator

open CString

/-! ## Records -/

/-- A decimal number. -/
structure Numeral where
  digits : List Char
  ne_nil : digits ≠ []
  isDigit : ∀ c ∈ digits, c.isDigit

namespace Numeral

def value (n : Numeral) : ℕ := digitsValue n.digits

end Numeral

/-- The number of an opcode. -/
structure Index extends Numeral where
  lt : toNumeral.value < 256

/-- The entry of the table. -/
def Index.entry (n : Index) : Fin 256 := ⟨n.value, n.lt⟩

/-- The byte count of an instruction, which must be an `int`. -/
structure ByteCount extends Numeral where
  lt : toNumeral.value < 0x80000000

/-- What a line is made of. -/
def Plain (l : List Char) : Prop := '\n' ∉ l ∧ nul ∉ l

/-- The parts of a record. The lines of code are without the tab in front, and `ended` says whether
the last line of the record ends with a newline, as all lines do but maybe the last of a file. -/
structure Parts where
  name : List Char
  first : Index
  others : List Index
  bytes : Option ByteCount
  desc : Option (List Char)
  code : List (List Char)
  ended : Bool

namespace Parts

/-- Numbers with colons between them. -/
def joined : Index → List Index → List Char
  | n, [] => n.digits
  | n, n' :: ns => n.digits ++ ':' :: joined n' ns

/-- The field of the byte count. -/
def bytesField (r : Parts) : List Char :=
  match r.bytes with
  | none => []
  | some b => ',' :: b.digits

/-- The lines of the record, without newlines. -/
def lines (r : Parts) : List (List Char) :=
  (r.name ++ ',' :: joined r.first r.others ++ r.bytesField) ::
    (r.desc.toList ++ r.code.map ('\t' :: ·))

end Parts

/-- A well-formed record. -/
structure Record extends Parts where
  name_ne_nil : name ≠ []
  name_ne_unimpl : name ≠ "unimpl".toList
  name_comma : ',' ∉ name
  desc_ne_nil : ∀ d ∈ desc, d ≠ []
  desc_tab : ∀ d ∈ desc, d.head? ≠ some '\t'
  plain : ∀ l ∈ toParts.lines, Plain l
  fits : ∀ l ∈ toParts.lines, l.length < 79

/-- Lines with their newlines, where `nl` says whether the last one has one. -/
def withNewlines (nl : Bool) : List (List Char) → List (List Char)
  | [] => []
  | [l] => [if nl then l ++ ['\n'] else l]
  | l :: l' :: ls => (l ++ ['\n']) :: withNewlines nl (l' :: ls)

namespace Record

/-- The lines of the record as they are in the file. -/
def strings (r : Record) : List (List Char) := withNewlines r.ended r.lines

/-- The lines of code as they are in the file. -/
def codeStrings (r : Record) : List (List Char) :=
  withNewlines r.ended (r.code.map ('\t' :: ·))

/-- The entries the record lists. -/
def entries (r : Record) : List (Fin 256) := (r.first :: r.others).map Index.entry

/-- The byte count, 0 if there is none. -/
def byteCount (r : Record) : ℤ := (r.bytes.map fun b => (b.value : ℤ)).getD 0

/-- All the code, if there is any. -/
def codeText (r : Record) : Option (List Char) :=
  if r.codeStrings = [] then none else some r.codeStrings.flatten

/-- The structure for the record. -/
def op (r : Record) : Op := ⟨r.name, r.codeText, r.desc, r.byteCount, false⟩

end Record

/-- The lines are those of a file of the records, each followed by blank lines; the last record may
also be followed by the end of the file. -/
inductive Renders : List Record → List (List Char) → Prop where
  | nil : Renders [] []
  | last (r : Record) : Renders [r] r.strings
  | cons (r : Record) (hr : r.ended = true) (n : ℕ) {rs : List Record} {ls : List (List Char)}
      (h : Renders rs ls) : Renders (r :: rs) (r.strings ++ List.replicate (n + 1) ['\n'] ++ ls)

/-! ## The heap -/

/-- From the `n`-th text on, the blocks hold a null where the text so far ends, which is `code` at
first and grows by the lines of the list. -/
def NullsAt (fresh : ℕ → ℕ → Char) : ℕ → List Char → List (List Char) → Prop
  | _, _, [] => True
  | n, code, s :: ss => fresh n code.length = nul ∧ NullsAt fresh (n + 1) (code ++ s) ss

/-- The blocks for the given lines of code. The first one needs none. -/
def CodeNullsAt (fresh : ℕ → ℕ → Char) (n : ℕ) : List (List Char) → Prop
  | [] => True
  | s :: ss => NullsAt fresh n s ss

/-- The number of blocks for the code of the record. -/
def Record.ntexts (r : Record) : ℕ := r.codeStrings.length - 1

/-- The blocks for the code of all records. -/
def AllNullsAt (fresh : ℕ → ℕ → Char) : ℕ → List Record → Prop
  | _, [] => True
  | n, r :: rs => CodeNullsAt fresh n r.codeStrings ∧ AllNullsAt fresh (n + r.ntexts) rs

/-! ## Lines -/

/-- The end of a line: a newline, or nothing at the end of the file. -/
def Ending (e : List Char) : Prop := e = [] ∨ e = ['\n']

/-- The first line of a file has its ending, and the others are those of the rest. -/
lemma withNewlines_cons (nl : Bool) (l : List Char) (ls : List (List Char)) :
    ∃ e, Ending e ∧ withNewlines nl (l :: ls) = (l ++ e) :: withNewlines nl ls := by
  cases ls with
  | nil =>
    cases nl with
    | true => exact ⟨['\n'], .inr rfl, rfl⟩
    | false => exact ⟨[], .inl rfl, by rw [List.append_nil]; rfl⟩
  | cons l' ls => exact ⟨['\n'], .inr rfl, rfl⟩

/-- Each line is one of the lines and an end. -/
lemma mem_withNewlines {nl : Bool} {ls : List (List Char)} {s : List Char}
    (h : s ∈ withNewlines nl ls) : ∃ l ∈ ls, ∃ e, Ending e ∧ s = l ++ e := by
  induction ls with
  | nil => exact absurd h List.not_mem_nil
  | cons l ls ih =>
    obtain ⟨e, he, heq⟩ := withNewlines_cons nl l ls
    rw [heq] at h
    rcases List.mem_cons.1 h with rfl | h
    · exact ⟨l, List.mem_cons_self, e, he, rfl⟩
    · obtain ⟨l', hl', e', he', rfl⟩ := ih h
      exact ⟨l', List.mem_cons_of_mem l hl', e', he', rfl⟩

/-- A file has as many lines with their endings as without. -/
lemma length_withNewlines (nl : Bool) (ls : List (List Char)) :
    (withNewlines nl ls).length = ls.length := by
  induction ls with
  | nil => rfl
  | cons l ls ih =>
    obtain ⟨e, -, heq⟩ := withNewlines_cons nl l ls
    rw [heq, List.length_cons, List.length_cons, ih]

/-- There is no null in the ending of a line. -/
lemma Ending.nul_notMem {e : List Char} (h : Ending e) : nul ∉ e := by
  rcases h with rfl | rfl <;> decide

/-- There is no comma in the ending of a line. -/
lemma Ending.comma_notMem {e : List Char} (h : Ending e) : ',' ∉ e := by
  rcases h with rfl | rfl <;> decide

/-- There is no colon in the ending of a line. -/
lemma Ending.colon_notMem {e : List Char} (h : Ending e) : ':' ∉ e := by
  rcases h with rfl | rfl <;> decide

/-- The ending of a line does not begin with a digit. -/
lemma Ending.not_isDigit {e : List Char} (h : Ending e) : ∀ c ∈ e.head?, ¬c.isDigit := by
  rcases h with rfl | rfl
  · exact fun c hc => absurd hc (Option.not_mem_none c)
  · intro c hc
    obtain rfl := Option.some.inj hc
    decide

/-! ## Headers -/

namespace Parts

/-- A character that is no digit is not in a numeral. -/
lemma notMem_digits (n : Numeral) {c : Char} (hc : c.isDigit = false) : c ∉ n.digits := by
  intro h
  rw [n.isDigit c h] at hc
  exact absurd hc (by decide)

/-- A list of indices has at least one character. -/
lemma joined_ne_nil (n : Index) (ns : List Index) : joined n ns ≠ [] := by
  cases ns with
  | nil => exact n.ne_nil
  | cons n' ns => exact List.append_ne_nil_of_left_ne_nil n.ne_nil _

/-- There is no comma in a list of indices. -/
lemma comma_notMem_joined (n : Index) (ns : List Index) : ',' ∉ joined n ns := by
  induction ns generalizing n with
  | nil => exact notMem_digits _ (by decide)
  | cons n' ns ih =>
    intro h
    rcases List.mem_append.1 h with h | h
    · exact notMem_digits n.toNumeral (by decide) h
    · rcases List.mem_cons.1 h with h | h
      · exact absurd h (by decide)
      · exact ih n' h

end Parts

/-- The variables of a record are cleared. -/
structure Cleared (st : State) : Prop where
  opName : st.opName = none
  opCode : st.opCode = none
  opDesc : st.opDesc = none
  opIdx : st.opIdx = none
  opBytes : st.opBytes = 0

/-- The state after the header of a record. -/
def State.headed (st : State) (r : Record) (idx : List Char) : State :=
  { st with opName := some r.name, opIdx := some idx, opBytes := r.byteCount, saved := .stale }

/-- A header, whether the line ends or the file. -/
lemma header_record {st : State} (hst : Cleared st) (r : Record) {e : List Char} (he : Ending e) :
    ∃ e', Ending e' ∧
      header (r.name ++ ',' :: Parts.joined r.first r.others ++ r.bytesField ++ e) st =
        some (st.headed r (Parts.joined r.first r.others ++ e')) := by
  have hjoined := Parts.joined_ne_nil r.first r.others
  have hcomma := Parts.comma_notMem_joined r.first r.others
  have hname : ∀ rest, strtok ',' (some (r.name ++ ',' :: rest)) st.saved =
      some (some r.name, .rest rest) := fun rest => strtok_delim rfl r.name_ne_nil r.name_comma
  cases hb : r.bytes with
  | none =>
    refine ⟨e, he, ?_⟩
    have hidx : strtok ',' none (.rest (Parts.joined r.first r.others ++ e)) =
        some (some (Parts.joined r.first r.others ++ e), .rest []) := by
      refine strtok_last rfl (List.append_ne_nil_of_left_ne_nil hjoined e) ?_
      exact fun h => (List.mem_append.1 h).elim hcomma he.comma_notMem
    have hline : r.name ++ ',' :: Parts.joined r.first r.others ++ r.bytesField ++ e =
        r.name ++ ',' :: (Parts.joined r.first r.others ++ e) := by
      rw [Parts.bytesField, hb, List.append_nil, List.append_assoc]
      rfl
    have hbytes : r.byteCount = 0 := by
      rw [Record.byteCount, hb]
      rfl
    rw [hline, header, hname]
    simp only [Option.bind_eq_bind, Option.bind_some, hidx, strtok_nil, Option.some_or]
    rw [State.headed, hbytes, hst.opBytes]
  | some b =>
    refine ⟨[], .inl rfl, ?_⟩
    have hidx : strtok ',' none (.rest (Parts.joined r.first r.others ++ ',' :: (b.digits ++ e))) =
        some (some (Parts.joined r.first r.others), .rest (b.digits ++ e)) :=
      strtok_delim rfl hjoined hcomma
    have hcount :
        strtok ',' none (.rest (b.digits ++ e)) = some (some (b.digits ++ e), .rest []) := by
      refine strtok_last rfl (List.append_ne_nil_of_left_ne_nil b.ne_nil e) ?_
      exact fun h => (List.mem_append.1 h).elim (Parts.notMem_digits _ (by decide)) he.comma_notMem
    have hline : r.name ++ ',' :: Parts.joined r.first r.others ++ r.bytesField ++ e =
        r.name ++ ',' :: (Parts.joined r.first r.others ++ ',' :: (b.digits ++ e)) := by
      rw [Parts.bytesField, hb]
      simp only [List.append_assoc, List.cons_append]
    have hbytes : r.byteCount = b.value := by
      rw [Record.byteCount, hb]
      rfl
    have hvalue : atoi (b.digits ++ e) = some (b.value : ℤ) :=
      atoi_digits b.ne_nil b.isDigit he.not_isDigit b.lt
    rw [hline, header, hname]
    simp only [Option.bind_eq_bind, Option.bind_some, hidx, hcount, hvalue, Option.some_or]
    rw [State.headed, hbytes, List.append_nil]

/-! ## Lines of code -/

/-- The block is of just the size needed for both strings, so nothing of them is lost. -/
lemma appendCode_eq (fresh : ℕ → Char) {code : List Char} (s : List Char) (hcode : nul ∉ code) :
    appendCode fresh code s = if fresh code.length = nul then some (code ++ s) else none := by
  have hhead : (((List.range (code.length + s.length + 1)).map fresh).drop code.length).head? =
      some (fresh code.length) := by
    rw [List.head?_drop, List.getElem?_map, List.getElem?_range (by omega), Option.map_some]
  rw [appendCode, strcat_exact hcode, hhead]
  · simp only [Option.some.injEq]
  · rw [List.length_drop, List.length_map, List.length_range]
    omega

/-- A line of code, newline or not. -/
structure IsCode (s : List Char) : Prop where
  tab : s.head? = some '\t'
  nul_notMem : nul ∉ s

/-- While a record is open, a line of code is added to it. -/
lemma IsCode.readLine {s : List Char} (h : IsCode s) (fresh : ℕ → ℕ → Char) {st : State}
    (hname : st.opName ≠ none) : readLine fresh st s = codeLine fresh s st := by
  have hne : ¬(s = [] ∨ s = ['\n']) := by
    rintro (rfl | rfl)
    · exact absurd h.tab (by decide)
    · exact absurd h.tab (by decide)
  rw [Generator.readLine, if_neg hne, if_neg hname, if_pos h.tab]

/-- Lines of code after the first one are appended to it, one after the other. -/
lemma foldlM_append {fresh : ℕ → ℕ → Char} {ss : List (List Char)} (hss : ∀ s ∈ ss, IsCode s)
    (st : State) {st' : State} {code : List Char} (hname : st.opName ≠ none)
    (hst : st.opCode = some code) (hcode : nul ∉ code) : ss.foldlM (readLine fresh) st = some st' ↔
      NullsAt fresh st.ntexts code ss ∧ st' = { st with
        opCode := some (code ++ ss.flatten)
        ntexts := st.ntexts + ss.length } := by
  induction ss generalizing st code with
  | nil =>
    have hsame : { st with opCode := some (code ++ []), ntexts := st.ntexts + 0 } = st := by
      rw [List.append_nil, ← hst]
      rfl
    change some st = some st' ↔ True ∧ st' = { st with opCode := some (code ++ []),
                                                       ntexts := st.ntexts + 0 }
    rw [hsame, true_and, Option.some.injEq, eq_comm]
  | cons s ss ih =>
    obtain ⟨hs, hss⟩ := List.forall_mem_cons.1 hss
    rw [List.foldlM_cons, hs.readLine fresh hname, codeLine, hst]
    dsimp only
    rw [appendCode_eq _ s hcode]
    by_cases hnull : fresh st.ntexts code.length = nul
    · have hcode' : nul ∉ code ++ s := fun h =>
        (List.mem_append.1 h).elim hcode hs.nul_notMem
      have hrest := ih hss { st with opCode := some (code ++ s), ntexts := st.ntexts + 1 }
        hname rfl hcode'
      rw [if_pos hnull, Option.map_some, Option.bind_eq_bind, Option.bind_some, hrest, NullsAt,
        List.flatten_cons, List.length_cons, List.append_assoc, and_assoc]
      simp only [hnull, true_and, Nat.add_comm, Nat.add_left_comm]
    · rw [if_neg hnull, Option.map_none, Option.bind_eq_bind, Option.bind_none]
      exact ⟨fun h => absurd h (Option.some_ne_none st').symm, fun h => absurd h.1.1 hnull⟩

/-- The state after the code of a record. -/
def State.coded (st : State) (ss : List (List Char)) : State :=
  { st with
    opCode := if ss = [] then none else some ss.flatten
    ntexts := st.ntexts + (ss.length - 1) }

/-- The lines of code. The first one is copied. -/
lemma foldlM_code {fresh : ℕ → ℕ → Char} {ss : List (List Char)} (hss : ∀ s ∈ ss, IsCode s)
    (st : State) {st' : State} (hname : st.opName ≠ none) (hst : st.opCode = none) :
    ss.foldlM (readLine fresh) st = some st' ↔
      CodeNullsAt fresh st.ntexts ss ∧ st' = st.coded ss := by
  cases ss with
  | nil =>
    have hsame : st.coded [] = st := by
      rw [State.coded, if_pos rfl, ← hst]
      rfl
    rw [hsame, CodeNullsAt, true_and]
    exact ⟨fun h => (Option.some.inj h).symm, fun h => congrArg some h.symm⟩
  | cons s ss =>
    obtain ⟨hs, hss⟩ := List.forall_mem_cons.1 hss
    rw [List.foldlM_cons, hs.readLine fresh hname, codeLine, hst]
    exact foldlM_append hss { st with opCode := some s } hname rfl hs.nul_notMem

/-! ## Whole records -/

/-- The state at the end of a record, before the blank line. -/
def State.pending (st : State) (r : Record) (idx : List Char) : State :=
  ({ st.headed r idx with opDesc := r.desc }).coded r.codeStrings

/-- The line behind the header is the description, and it is kept without its newline. -/
lemma readLine_desc (fresh : ℕ → ℕ → Char) {st : State} (hname : st.opName ≠ none) {d e : List Char}
    (hd : d ≠ []) (htab : d.head? ≠ some '\t') (hnl : '\n' ∉ d) (he : Ending e) :
    readLine fresh st (d ++ e) = some { st with opDesc := some d } := by
  have hhead : (d ++ e).head? = d.head? := List.head?_append_of_ne_nil d hd
  have hne : ¬(d ++ e = [] ∨ d ++ e = ['\n']) := by
    rintro (h | h)
    · exact List.append_ne_nil_of_left_ne_nil hd e h
    · rw [h] at hhead
      exact hnl (List.mem_of_mem_head? (Option.mem_def.2 hhead.symm))
  have hdesc : descLine (d ++ e) st = { st with opDesc := some d } := by
    unfold descLine
    rcases he with rfl | rfl
    · rw [List.append_nil, if_neg fun h => hnl (List.mem_of_getLast? h.2)]
    · have hlen : 1 < (d ++ ['\n']).length := by
        rw [List.length_append, List.length_singleton]
        exact Nat.succ_lt_succ (List.length_pos_iff.2 hd)
      rw [if_pos ⟨hlen, by rw [List.getLast?_append, List.getLast?_singleton]; rfl⟩,
        List.dropLast_concat]
  rw [readLine, if_neg hne, if_neg hname, hhead, if_neg htab, hdesc]

/-- The lines of code of a record are lines of code. -/
lemma Record.isCode (r : Record) : ∀ s ∈ r.codeStrings, IsCode s := by
  intro s hs
  obtain ⟨l, hl, e, he, rfl⟩ := mem_withNewlines hs
  obtain ⟨c, hc, rfl⟩ := List.mem_map.1 hl
  have hplain : Plain ('\t' :: c) :=
    r.plain _ (List.mem_cons_of_mem _ (List.mem_append_right _ hl))
  exact ⟨rfl, fun h => (List.mem_append.1 h).elim hplain.2 he.nul_notMem⟩

/-- The lines after the header leave the record with its description and its code. -/
lemma foldlM_rest {fresh : ℕ → ℕ → Char} (st : State) {st' : State} (hname : st.opName ≠ none)
    (hdesc : st.opDesc = none) (hcode : st.opCode = none) (r : Record) :
    (withNewlines r.ended (r.desc.toList ++ r.code.map ('\t' :: ·))).foldlM (readLine fresh) st =
      some st' ↔ CodeNullsAt fresh st.ntexts r.codeStrings ∧
        st' = ({ st with opDesc := r.desc } : State).coded r.codeStrings := by
  cases hd : r.desc with
  | none =>
    have hsame : ({ st with opDesc := none } : State) = st := by
      rw [← hdesc]
    rw [hsame]
    exact foldlM_code r.isCode st hname hcode
  | some d =>
    have hmem : d ∈ r.lines := List.mem_cons_of_mem _
      (List.mem_append_left _ (by rw [hd]; exact List.mem_singleton_self d))
    obtain ⟨e, he, heq⟩ := withNewlines_cons r.ended d (r.code.map ('\t' :: ·))
    have hline := readLine_desc fresh hname (r.desc_ne_nil d hd) (r.desc_tab d hd)
      (r.plain d hmem).1 he
    rw [Option.toList_some, List.singleton_append, heq, List.foldlM_cons, hline,
      Option.bind_eq_bind, Option.bind_some]
    exact foldlM_code r.isCode { st with opDesc := some d } hname hcode

/-- The lines of a record leave it open, with everything it says. -/
theorem foldlM_record (fresh : ℕ → ℕ → Char) {st : State} (hst : Cleared st) (r : Record) :
    ∃ e, Ending e ∧ ∀ st', (r.strings.foldlM (readLine fresh) st = some st' ↔
      CodeNullsAt fresh st.ntexts r.codeStrings ∧
        st' = st.pending r (Parts.joined r.first r.others ++ e)) := by
  obtain ⟨e, he, heq⟩ := withNewlines_cons r.ended
    (r.name ++ ',' :: Parts.joined r.first r.others ++ r.bytesField)
    (r.desc.toList ++ r.code.map ('\t' :: ·))
  obtain ⟨e', he', hheader⟩ := header_record hst r he
  refine ⟨e', he', fun st' => ?_⟩
  have hlen : 2 ≤ (r.name ++ ',' :: Parts.joined r.first r.others ++ r.bytesField ++ e).length := by
    have hname := List.length_pos_iff.2 r.name_ne_nil
    simp only [List.length_append, List.length_cons]
    omega
  have hne : ¬(r.name ++ ',' :: Parts.joined r.first r.others ++ r.bytesField ++ e = [] ∨
      r.name ++ ',' :: Parts.joined r.first r.others ++ r.bytesField ++ e = ['\n']) := by
    rintro (h | h)
    · rw [h] at hlen
      exact absurd hlen (by decide)
    · rw [h] at hlen
      exact absurd hlen (by decide)
  have hread : readLine fresh st (r.name ++ ',' :: Parts.joined r.first r.others ++ r.bytesField
      ++ e) = some (st.headed r (Parts.joined r.first r.others ++ e')) := by
    rw [readLine, if_neg hne, if_pos hst.opName, hheader]
  have hstrings : r.strings = withNewlines r.ended r.lines := rfl
  rw [hstrings, Parts.lines, heq, List.foldlM_cons, hread, Option.bind_eq_bind, Option.bind_some]
  exact foldlM_rest (st.headed r _) (Option.some_ne_none _) hst.opDesc hst.opCode r

/-! ## Indices -/

/-- The text of an index, with or without a newline. -/
lemma Index.parse (n : Index) {e : List Char} (he : Ending e) :
    (atoi (n.digits ++ e)).bind opIndex = some n.entry := by
  have hlt : n.value < 256 := n.lt
  rw [atoi_digits n.ne_nil n.isDigit he.not_isDigit (by
      change n.value < 0x80000000
      omega), Option.bind_some]
  exact dif_pos ⟨Int.natCast_nonneg _, Int.ofNat_lt.2 n.lt⟩

/-- The text after an index, without the colon. -/
def remaining (e : List Char) : List Index → List Char
  | [] => []
  | n :: ns => Parts.joined n ns ++ e

/-- The first of some indices is the token that ends at the first colon. -/
lemma strtok_joined (n : Index) (ns : List Index) {e : List Char} (he : Ending e) (saved : Saved)
    (s : Option (List Char)) (hs : saved.start s = some (Parts.joined n ns ++ e)) :
    ∃ t, strtok ':' s saved = some (some t, .rest (remaining e ns)) ∧
      (atoi t).bind opIndex = some n.entry := by
  have hcolon : ':' ∉ n.digits := Parts.notMem_digits _ (by decide)
  cases ns with
  | nil =>
    refine ⟨n.digits ++ e, ?_, n.parse he⟩
    exact strtok_last hs (List.append_ne_nil_of_left_ne_nil n.ne_nil e) fun h =>
      (List.mem_append.1 h).elim hcolon he.colon_notMem
  | cons n' ns' =>
    have hparse := n.parse (.inl rfl : Ending [])
    rw [List.append_nil] at hparse
    refine ⟨n.digits, strtok_delim ?_ n.ne_nil hcolon, hparse⟩
    rw [hs, Parts.joined, List.append_assoc]
    rfl

/-- The indices after the first one share its structure. -/
lemma addIndices_others (ns : List Index) {e : List Char} (he : Ending e) {st : State}
    (hs : st.saved = .rest (remaining e ns)) (j : Fin 256) {fuel : ℕ} (hfuel : ns.length < fuel) :
    addIndices fuel none (some j) st = some { st with
      saved := .rest []
      opmap := fun i => if i ∈ ns.map Index.entry then st.opmap j else st.opmap i } := by
  induction ns generalizing st j fuel with
  | nil =>
    obtain ⟨fuel, rfl⟩ : ∃ k, fuel = k + 1 := ⟨fuel - 1, by omega⟩
    rw [addIndices, hs, remaining, strtok_nil]
    rfl
  | cons n ns ih =>
    obtain ⟨fuel, rfl⟩ : ∃ k, fuel = k + 1 := ⟨fuel - 1, by omega⟩
    obtain ⟨t, htok, hparse⟩ := strtok_joined n ns he st.saved none (by rw [hs]; rfl)
    rw [addIndices, htok]
    simp only [Option.bind_eq_bind, Option.bind_some, hparse]
    rw [ih rfl n.entry (Nat.lt_of_succ_lt_succ hfuel)]
    refine congrArg some ?_
    have hmap : (fun i => if i ∈ ns.map Index.entry then
        Function.update st.opmap n.entry (st.opmap j) n.entry
          else Function.update st.opmap n.entry (st.opmap j) i) =
        fun i => if i ∈ (n :: ns).map Index.entry then st.opmap j else st.opmap i := by
      funext i
      rw [Function.update_self, Function.update_apply]
      by_cases hi : i = n.entry <;> by_cases hmem : i ∈ ns.map Index.entry <;> simp [hi, hmem]
    rw [hmap]

/-- The state after a record: one new structure, which all its entries share. -/
def State.finish (st : State) (r : Record) : State :=
  { st with
    ops := Function.update st.ops st.nops r.op
    nops := st.nops + 1
    opmap := fun i => if i ∈ r.entries then some st.nops else st.opmap i
    saved := .rest []
    ntexts := st.ntexts + r.ntexts }

/-- The number of indices is at most the length of their text. -/
lemma length_le_joined (n : Index) (ns : List Index) :
    ns.length + 1 ≤ (Parts.joined n ns).length := by
  induction ns generalizing n with
  | nil => exact List.length_pos_iff.2 n.ne_nil
  | cons n' ns ih =>
    have hrest := ih n'
    rw [Parts.joined, List.length_append, List.length_cons, List.length_cons]
    omega

/-- The end of a record enters its indices into the table and clears what was open. -/
theorem endRecord_pending {st : State} (hst : Cleared st) (r : Record) {e : List Char}
    (he : Ending e) :
    endRecord (st.pending r (Parts.joined r.first r.others ++ e)) = some (st.finish r) := by
  obtain ⟨ops, nops, opmap, opName, opCode, opDesc, opIdx, opBytes, saved, ntexts⟩ := st
  obtain ⟨rfl, rfl, rfl, rfl, rfl⟩ := hst
  have hlen := length_le_joined r.first r.others
  obtain ⟨t, htok, hparse⟩ := strtok_joined r.first r.others he .stale
    (some (Parts.joined r.first r.others ++ e)) rfl
  -- the first index gets the structure
  have hfirst : ∀ st : State, st.saved = .stale → st.opName = some r.name →
      st.opCode = r.codeText → st.opDesc = r.desc → st.opBytes = r.byteCount →
      addIndices ((Parts.joined r.first r.others ++ e).length + 1)
        (some (Parts.joined r.first r.others ++ e)) none st =
      addIndices (Parts.joined r.first r.others ++ e).length none (some r.first.entry)
        { st with
          ops := Function.update st.ops st.nops r.op
          nops := st.nops + 1
          opmap := Function.update st.opmap r.first.entry (some st.nops)
          saved := .rest (remaining e r.others) } := by
    intro st hsaved hname hcode hdesc hbytes
    rw [addIndices, hsaved, htok]
    simp only [Option.bind_eq_bind, Option.bind_some, hparse, hname, hcode, hdesc, hbytes]
    rfl
  have hmap : (fun i => if i ∈ r.others.map Index.entry then
      Function.update opmap r.first.entry (some nops) r.first.entry
        else Function.update opmap r.first.entry (some nops) i) =
      fun i => if i ∈ r.entries then some nops else opmap i := by
    funext i
    rw [Function.update_self, Function.update_apply]
    by_cases hi : i = r.first.entry <;> by_cases hmem : i ∈ r.others.map Index.entry <;>
      simp [Record.entries, hi, hmem]
  change (addIndices ((Parts.joined r.first r.others ++ e).length + 1)
    (some (Parts.joined r.first r.others ++ e)) none (State.pending _ r _)).bind _ = _
  rw [hfirst _ rfl rfl rfl rfl rfl, addIndices_others r.others he rfl r.first.entry
    (by rw [List.length_append]; omega), Option.bind_some]
  dsimp only
  exact congrArg some (congrArg (fun f => State.mk _ _ f none none none none 0 _ _) hmap)

/-- A second blank line changes nothing, and neither does the end of the file. -/
lemma endRecord_cleared {st : State} (hst : Cleared st) (hs : st.saved = .rest []) :
    endRecord st = some st := by
  obtain ⟨ops, nops, opmap, opName, opCode, opDesc, opIdx, opBytes, saved, ntexts⟩ := st
  obtain ⟨rfl, rfl, rfl, rfl, rfl⟩ := hst
  obtain rfl := hs
  rfl

/-! ## Files -/

/-- With a newline at the end of the file, every line has one. -/
lemma withNewlines_true (ls : List (List Char)) : withNewlines true ls = ls.map (· ++ ['\n']) := by
  induction ls with
  | nil => rfl
  | cons l ls ih =>
    cases ls with
    | nil => rfl
    | cons l' ls => exact congrArg ((l ++ ['\n']) :: ·) ih

/-- Lines that are ended are read one by one. -/
lemma fgetsFrom_ended {ls : List (List Char)} (hplain : ∀ l ∈ ls, Plain l)
    (hfits : ∀ l ∈ ls, l.length < 79) (rest : List Char) :
    fgetsFrom 79 [] ((ls.map (· ++ ['\n'])).flatten ++ rest) =
      ls.map (· ++ ['\n']) ++ fgetsFrom 79 [] rest := by
  induction ls with
  | nil => rfl
  | cons l ls ih =>
    obtain ⟨hl, hplain⟩ := List.forall_mem_cons.1 hplain
    obtain ⟨hlen, hfits⟩ := List.forall_mem_cons.1 hfits
    have hlen' : ([] : List Char).length + l.length < 79 := by simpa using hlen
    have hline := fgetsFrom_line ((ls.map (· ++ ['\n'])).flatten ++ rest) hl.1 hl.2 hlen'
    rw [List.map_cons, List.flatten_cons, List.append_assoc, List.append_assoc,
      List.singleton_append, hline, ih hplain hfits]
    rfl

/-- The lines of a record are read one by one, also at the end of the file. -/
lemma fgetsAll_strings (r : Record) : fgetsAll 79 r.strings.flatten = r.strings := by
  have hne : ∀ l ∈ r.lines, l ≠ [] := by
    intro l hl
    rcases List.mem_cons.1 hl with rfl | hl
    · rw [List.append_assoc]
      exact List.append_ne_nil_of_left_ne_nil r.name_ne_nil _
    · rcases List.mem_append.1 hl with hl | hl
      · exact r.desc_ne_nil l (Option.mem_toList.1 hl)
      · obtain ⟨c, -, rfl⟩ := List.mem_map.1 hl
        exact List.cons_ne_nil _ _
  have hall : ∀ ls : List (List Char), (∀ l ∈ ls, Plain l) → (∀ l ∈ ls, l.length < 79) →
      (∀ l ∈ ls, l ≠ []) →
      fgetsFrom 79 [] (withNewlines r.ended ls).flatten = withNewlines r.ended ls := by
    intro ls hplain hfits hne
    induction ls with
    | nil => rfl
    | cons l ls ih =>
      obtain ⟨hl, hplain⟩ := List.forall_mem_cons.1 hplain
      obtain ⟨hlen, hfits⟩ := List.forall_mem_cons.1 hfits
      obtain ⟨hl', hne⟩ := List.forall_mem_cons.1 hne
      have hlen' : ([] : List Char).length + l.length < 79 := by simpa using hlen
      cases ls with
      | cons l' ls =>
        have hline := fgetsFrom_line (withNewlines r.ended (l' :: ls)).flatten hl.1 hl.2
          hlen'
        rw [withNewlines, List.flatten_cons, List.append_assoc, List.singleton_append, hline,
          ih hplain hfits hne]
        rfl
      | nil =>
        cases r.ended with
        | true =>
          have hline := fgetsFrom_line [] hl.1 hl.2 hlen'
          rw [withNewlines, if_pos rfl, List.flatten_singleton, hline]
          rfl
        | false =>
          have hlast := fgetsFrom_last hl.1 hl.2 hlen' hl'
          rw [withNewlines, if_neg Bool.false_ne_true, List.flatten_singleton, hlast]
          rfl
  exact hall _ r.plain r.fits hne

/-- The file is read line by line, as no line is too long for the buffer. -/
theorem fgetsAll_renders {rs : List Record} {ls : List (List Char)} (h : Renders rs ls) :
    fgetsAll 79 ls.flatten = ls := by
  induction h with
  | nil => rfl
  | last r => exact fgetsAll_strings r
  | @cons r hr n rs ls h ih =>
    have hstrings : r.strings = r.lines.map (· ++ ['\n']) := by
      rw [Record.strings, hr, withNewlines_true]
    have hblank : List.replicate (n + 1) ['\n'] =
        (List.replicate (n + 1) ([] : List Char)).map (· ++ ['\n']) := by
      rw [List.map_replicate, List.nil_append]
    have hplain : ∀ l ∈ r.lines ++ List.replicate (n + 1) [], Plain l := by
      intro l hl
      rcases List.mem_append.1 hl with hl | hl
      · exact r.plain l hl
      · obtain rfl := List.eq_of_mem_replicate hl
        exact ⟨List.not_mem_nil, List.not_mem_nil⟩
    have hfits : ∀ l ∈ r.lines ++ List.replicate (n + 1) [], l.length < 79 := by
      intro l hl
      rcases List.mem_append.1 hl with hl | hl
      · exact r.fits l hl
      · obtain rfl := List.eq_of_mem_replicate hl
        exact Nat.zero_lt_succ _
    rw [hstrings, hblank, ← List.map_append, List.flatten_append]
    change fgetsFrom 79 [] _ = _
    rw [fgetsFrom_ended hplain hfits]
    exact congrArg (_ ++ ·) ih

/-- A blank line after a record, or more of them, ends the record and does nothing else. -/
lemma foldlM_blank (fresh : ℕ → ℕ → Char) {st : State} (hst : Cleared st) (r : Record)
    {e : List Char} (he : Ending e) (n : ℕ) :
    (List.replicate (n + 1) ['\n']).foldlM (readLine fresh)
      (st.pending r (Parts.joined r.first r.others ++ e)) = some (st.finish r) := by
  have hcleared : Cleared (st.finish r) :=
    ⟨hst.opName, hst.opCode, hst.opDesc, hst.opIdx, hst.opBytes⟩
  have hmore : (List.replicate n ['\n']).foldlM (readLine fresh) (st.finish r) =
      some (st.finish r) := by
    induction n with
    | zero => rfl
    | succ n ih =>
      have hline : readLine fresh (st.finish r) ['\n'] = some (st.finish r) :=
        (if_pos (.inr rfl)).trans (endRecord_cleared hcleared rfl)
      rw [List.replicate_succ, List.foldlM_cons, hline]
      exact ih
  have hline : readLine fresh (st.pending r (Parts.joined r.first r.others ++ e)) ['\n'] =
      some (st.finish r) := (if_pos (.inr rfl)).trans (endRecord_pending hst r he)
  rw [List.replicate_succ, List.foldlM_cons, hline]
  exact hmore

/-- The lines of a record and what comes after them. -/
lemma bind_foldlM_record (fresh : ℕ → ℕ → Char) {st : State} (hst : Cleared st) (r : Record) :
    ∃ e, Ending e ∧ ∀ (k : State → Option State) (st' : State),
      (r.strings.foldlM (readLine fresh) st).bind k = some st' ↔
        CodeNullsAt fresh st.ntexts r.codeStrings ∧
          k (st.pending r (Parts.joined r.first r.others ++ e)) = some st' := by
  obtain ⟨e, he, hread⟩ := foldlM_record fresh hst r
  refine ⟨e, he, fun k st' => ?_⟩
  rw [Option.bind_eq_some_iff]
  constructor
  · rintro ⟨st₁, hst₁, hk⟩
    obtain ⟨hnulls, rfl⟩ := (hread st₁).1 hst₁
    exact ⟨hnulls, hk⟩
  · rintro ⟨hnulls, hk⟩
    exact ⟨_, (hread _).2 ⟨hnulls, rfl⟩, hk⟩

/-- Reading the lines of a file. If there are no records, there must have been some before. -/
theorem foldlM_renders (fresh : ℕ → ℕ → Char) {rs : List Record} {ls : List (List Char)}
    (h : Renders rs ls) {st : State} (hst : Cleared st) (hrs : rs ≠ [] ∨ st.saved = .rest [])
    (st' : State) : (ls.foldlM (readLine fresh) st).bind endRecord = some st' ↔
      AllNullsAt fresh st.ntexts rs ∧ st' = rs.foldl State.finish st := by
  induction h generalizing st with
  | nil =>
    have hs : st.saved = .rest [] := hrs.resolve_left (not_not.2 rfl)
    change endRecord st = some st' ↔ True ∧ st' = st
    rw [endRecord_cleared hst hs, true_and, Option.some.injEq, eq_comm]
  | last r =>
    obtain ⟨e, he, hread⟩ := bind_foldlM_record fresh hst r
    rw [hread, endRecord_pending hst r he, Option.some.injEq, eq_comm (b := st')]
    exact and_congr_left' (iff_of_eq (and_true _).symm)
  | @cons r hr n rs ls h ih =>
    obtain ⟨e, he, hread⟩ := bind_foldlM_record fresh hst r
    have hcleared : Cleared (st.finish r) :=
      ⟨hst.opName, hst.opCode, hst.opDesc, hst.opIdx, hst.opBytes⟩
    rw [List.append_assoc, List.foldlM_append, Option.bind_eq_bind, Option.bind_assoc, hread,
      List.foldlM_append, foldlM_blank fresh hst r he n, Option.bind_eq_bind, Option.bind_some,
      ih hcleared (.inr rfl), AllNullsAt, and_assoc]
    rfl

/-- Reading a file. Without a record, `strtok` is called with a null pointer at once. -/
theorem readFile_renders (fresh : ℕ → ℕ → Char) {rs : List Record} {ls : List (List Char)}
    (h : Renders rs ls) (st : State) : readFile fresh ls.flatten = some st ↔
      (rs ≠ [] ∧ AllNullsAt fresh 0 rs) ∧ st = rs.foldl State.finish init := by
  have hread : readFile fresh ls.flatten = (ls.foldlM (readLine fresh) init).bind endRecord := by
    rw [readFile, fgetsAll_renders h]
    rfl
  rw [hread]
  by_cases hrs : rs = []
  · subst hrs
    cases h
    exact ⟨fun h => absurd h (Option.some_ne_none st).symm, fun h => absurd rfl h.1.1⟩
  · have hinit : Cleared init := ⟨rfl, rfl, rfl, rfl, rfl⟩
    rw [foldlM_renders fresh h hinit (.inl hrs), and_iff_right hrs]
    rfl

end Generator

end Emu51

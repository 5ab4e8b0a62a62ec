import Mathlib.Data.List.Basic
import Mathlib.Data.Int.Notation
import Mathlib.Data.Nat.Notation
import Mathlib.Tactic.Common

/-!
# C strings

A string is the list of its characters without the null at the end. The functions of `string.h`,
`stdio.h` and `stdlib.h` return `none` where the language leaves their behaviour undefined.
-/

namespace CString

/-- The null character. -/
def nul : Char := Char.ofNat 0

/-! ## Lines -/

/-- What the calls of `fgets` with a buffer of `n + 1` characters return one after the other, where
`cur` is what the present one has read. A null in the file ends a string early. -/
def fgetsFrom (n : ℕ) : List Char → List Char → List (List Char)
  | cur, [] => if cur = [] then [] else [cur.takeWhile (· ≠ nul)]
  | cur, c :: cs =>
    if c = '\n' ∨ cur.length + 1 = n then
      (cur ++ [c]).takeWhile (· ≠ nul) :: fgetsFrom n [] cs
    else fgetsFrom n (cur ++ [c]) cs

/-- All strings `fgets` returns for a file. -/
def fgetsAll (n : ℕ) (file : List Char) : List (List Char) := fgetsFrom n [] file

section Lines

variable {n : ℕ} {cur line : List Char}

/-- A string without a null is all of it. -/
lemma takeWhile_of_nul_notMem {s t : List Char} (hs : nul ∉ s) :
    (s ++ t).takeWhile (· ≠ nul) = s ++ t.takeWhile (· ≠ nul) := by
  refine List.takeWhile_append_of_pos fun c hc => decide_eq_true ?_
  rintro rfl
  exact hs hc

/-- A line that fits is read up to its end. -/
lemma fgetsFrom_line (rest : List Char) (hline : '\n' ∉ line) (hnul : nul ∉ cur ++ line)
    (hfit : cur.length + line.length < n) :
    fgetsFrom n cur (line ++ '\n' :: rest) = (cur ++ line ++ ['\n']) :: fgetsFrom n [] rest := by
  induction line generalizing cur with
  | nil =>
    rw [List.append_nil] at hnul
    rw [List.nil_append, fgetsFrom, if_pos (.inl rfl), takeWhile_of_nul_notMem hnul,
      List.append_nil]
    rfl
  | cons c line ih =>
    obtain ⟨hc, hline⟩ := not_or.1 (mt List.mem_cons.2 hline)
    have hlen : cur.length + 1 ≠ n := by
      rw [List.length_cons] at hfit
      omega
    rw [List.cons_append, fgetsFrom, if_neg (not_or.2 ⟨Ne.symm hc, hlen⟩), ih hline,
      List.append_assoc cur]
    · rfl
    · rwa [List.append_assoc]
    · rw [List.length_append, List.length_singleton]
      rw [List.length_cons] at hfit
      omega

/-- The last line of a file need not be ended by a newline. -/
lemma fgetsFrom_last (hline : '\n' ∉ line) (hnul : nul ∉ cur ++ line)
    (hfit : cur.length + line.length < n) (hne : cur ++ line ≠ []) :
    fgetsFrom n cur line = [cur ++ line] := by
  induction line generalizing cur with
  | nil =>
    rw [List.append_nil] at hnul hne
    have hall := takeWhile_of_nul_notMem (t := []) hnul
    rw [List.takeWhile_nil, List.append_nil] at hall
    rw [fgetsFrom, if_neg hne, hall, List.append_nil]
  | cons c line ih =>
    obtain ⟨hc, hline⟩ := not_or.1 (mt List.mem_cons.2 hline)
    have hlen : cur.length + 1 ≠ n := by
      rw [List.length_cons] at hfit
      omega
    have happend : cur ++ [c] ++ line = cur ++ c :: line := by
      rw [List.append_assoc]
      rfl
    rw [fgetsFrom, if_neg (not_or.2 ⟨Ne.symm hc, hlen⟩), ih hline, happend]
    · rwa [happend]
    · rw [List.length_append, List.length_singleton]
      rw [List.length_cons] at hfit
      omega
    · rwa [happend]

end Lines

/-! ## Tokens -/

/-- Where the next call of `strtok` with a null pointer goes on: nowhere, at the given rest of a
string, or in an array that has been written to in between. -/
inductive Saved where
  | null
  | rest (s : List Char)
  | stale

/-- The string a call of `strtok` works on. -/
def Saved.start (saved : Saved) : Option (List Char) → Option (List Char)
  | some s => some s
  | none => match saved with
    | .rest s => some s
    | _ => none

/-- `strtok(s, d)` for one delimiter: the token, if there is one, and where to go on. -/
def strtok (d : Char) (s : Option (List Char)) (saved : Saved) :
    Option (Option (List Char) × Saved) :=
  (saved.start s).map fun s =>
    let s := s.dropWhile (· = d)
    if s = [] then (none, .rest [])
    else (some (s.takeWhile (· ≠ d)), .rest ((s.dropWhile (· ≠ d)).drop 1))

section Tokens

variable {d : Char} {saved : Saved} {s : Option (List Char)} {t rest : List Char}

/-- A token starts where it is looked for, if there is no delimiter there. -/
lemma strtok_eq (hs : saved.start s = some (t ++ rest)) (hne : t ≠ []) (hd : d ∉ t)
    (hrest : ∀ c ∈ rest.head?, c = d) :
    strtok d s saved = some (some t, .rest (rest.drop 1)) := by
  have hskip : (t ++ rest).dropWhile (· = d) = t ++ rest := by
    cases t with
    | nil => exact absurd rfl hne
    | cons c t =>
      have hc : c ≠ d := fun hc => hd (hc ▸ List.mem_cons_self)
      rw [List.cons_append, List.dropWhile_cons_of_neg (by simp [hc])]
  have hfind : ∀ c ∈ t, decide (c ≠ d) = true := by
    intro c hc
    refine decide_eq_true ?_
    rintro rfl
    exact hd hc
  have hstop : rest.takeWhile (· ≠ d) = [] ∧ rest.dropWhile (· ≠ d) = rest := by
    cases rest with
    | nil => exact ⟨rfl, rfl⟩
    | cons c rest =>
      obtain rfl : c = d := hrest c rfl
      exact ⟨List.takeWhile_cons_of_neg (by simp), List.dropWhile_cons_of_neg (by simp)⟩
  rw [strtok, hs, Option.map_some]
  dsimp only
  rw [hskip, if_neg (List.append_ne_nil_of_left_ne_nil hne rest),
    List.takeWhile_append_of_pos hfind, List.dropWhile_append_of_pos hfind, hstop.1, hstop.2,
    List.append_nil]

/-- A token ends at the first delimiter, and the rest behind it is saved. -/
lemma strtok_delim (hs : saved.start s = some (t ++ d :: rest)) (hne : t ≠ []) (hd : d ∉ t) :
    strtok d s saved = some (some t, .rest rest) :=
  strtok_eq hs hne hd fun _ hc => (Option.some.inj hc).symm

/-- The last token ends with the string, and nothing is saved behind it. -/
lemma strtok_last (hs : saved.start s = some t) (hne : t ≠ []) (hd : d ∉ t) :
    strtok d s saved = some (some t, .rest []) :=
  strtok_eq (by rw [hs, List.append_nil]) hne hd fun c (hc : c ∈ ([] : List Char).head?) =>
    absurd hc (Option.not_mem_none c)

end Tokens

/-- With nothing left there is no token, however often one is asked for. -/
lemma strtok_nil (d : Char) : strtok d none (.rest []) = some (none, .rest []) := rfl

/-! ## Numbers -/

/-- `isspace`. -/
def isspace (c : Char) : Bool :=
  c = ' ' || c = '\t' || c = '\n' || c.toNat = 11 || c.toNat = 12 || c.toNat = 13

/-- The number the leading digits of a string make. -/
def digitsValue (s : List Char) : ℕ :=
  (s.takeWhile Char.isDigit).foldl (fun v c => 10 * v + (c.toNat - '0'.toNat)) 0

/-- `atoi`. A number that is no `int` is undefined behaviour. -/
def atoi (s : List Char) : Option ℤ :=
  let v : ℤ := match s.dropWhile isspace with
    | '-' :: t => -digitsValue t
    | '+' :: t => digitsValue t
    | t => digitsValue t
  if -0x80000000 ≤ v ∧ v < 0x80000000 then some v else none

/-- Digits are read as far as they go, and what follows them does not matter. -/
lemma digitsValue_append {s t : List Char} (hs : ∀ c ∈ s, c.isDigit)
    (ht : ∀ c ∈ t.head?, ¬c.isDigit) : digitsValue (s ++ t) = digitsValue s := by
  have hall : s.takeWhile Char.isDigit = s := by
    have happend : (s ++ []).takeWhile Char.isDigit = s ++ [] := List.takeWhile_append_of_pos hs
    rwa [List.append_nil] at happend
  have hstop : t.takeWhile Char.isDigit = [] := by
    cases t with
    | nil => rfl
    | cons c t => exact List.takeWhile_cons_of_neg (ht c rfl)
  rw [digitsValue, List.takeWhile_append_of_pos hs, hstop, List.append_nil, digitsValue, hall]

/-- A digit is not a white-space character. -/
lemma isspace_of_isDigit {c : Char} (hc : c.isDigit) : isspace c = false := by
  have hge : 48 ≤ c.toNat := of_decide_eq_true (Bool.and_eq_true_iff.1 hc).1
  have hlow : ∀ a : Char, a.toNat < 48 → c ≠ a := by
    rintro a ha rfl
    exact absurd ha (Nat.not_lt.2 hge)
  have hspace : c ≠ ' ' := hlow _ (by decide)
  have htab : c ≠ '\t' := hlow _ (by decide)
  have hnewline : c ≠ '\n' := hlow _ (by decide)
  have hothers : c.toNat ≠ 11 ∧ c.toNat ≠ 12 ∧ c.toNat ≠ 13 := by omega
  simp [isspace, hspace, htab, hnewline, hothers]

/-- A number without a sign is read up to the first character that is no digit. -/
lemma atoi_digits {s t : List Char} (hne : s ≠ []) (hs : ∀ c ∈ s, c.isDigit)
    (ht : ∀ c ∈ t.head?, ¬c.isDigit) (hv : digitsValue s < 0x80000000) :
    atoi (s ++ t) = some (digitsValue s : ℤ) := by
  have hvalue := digitsValue_append hs ht
  cases s with
  | nil => exact absurd rfl hne
  | cons c s =>
    have hc : c.isDigit := hs c List.mem_cons_self
    unfold atoi
    rw [List.cons_append, List.dropWhile_cons_of_neg (by simp [isspace_of_isDigit hc])]
    split
    · next heq =>
      obtain ⟨rfl, -⟩ := List.cons.inj heq
      exact absurd hc (by decide)
    · next heq =>
      obtain ⟨rfl, -⟩ := List.cons.inj heq
      exact absurd hc (by decide)
    · rw [← List.cons_append, hvalue]
      exact if_pos (by omega)

/-! ## Blocks of memory -/

/-- `strcat` of a string to the one that starts the block. It must find the end of that one, and the
result must fit. -/
def strcat (block s : List Char) : Option (List Char) :=
  let old := block.takeWhile (· ≠ nul)
  if old.length + s.length + 1 ≤ block.length then some (old ++ s) else none

/-- In a block of just the size needed, `strcat` is defined exactly if the null stands where the
string is to begin. -/
theorem strcat_exact {a b s : List Char} (ha : nul ∉ a) (hb : b.length = s.length + 1) :
    strcat (a ++ b) s = if b.head? = some nul then some (a ++ s) else none := by
  cases b with
  | nil => exact absurd hb (Nat.succ_ne_zero _).symm
  | cons c b =>
    unfold strcat
    have hsize : (a ++ c :: b).length = a.length + (s.length + 1) := by
      rw [List.length_append, hb]
    rw [takeWhile_of_nul_notMem ha, List.head?_cons, hsize]
    by_cases hc : c = nul
    · rw [List.takeWhile_cons_of_neg (by simp [hc]), List.append_nil, if_pos (congrArg some hc)]
      exact if_pos (by omega)
    · rw [List.takeWhile_cons_of_pos (by simp [hc]), if_neg fun h => hc (Option.some.inj h)]
      refine if_neg ?_
      rw [List.length_append, List.length_cons]
      omega

end CString

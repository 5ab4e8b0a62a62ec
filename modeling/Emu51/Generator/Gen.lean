import Mathlib.Data.List.FinRange
import Mathlib.Logic.Function.Basic
import Emu51.Library.CString

/-!
# `gen.c`

The generator reads the records of `allops.txt` and prints the table `insnmap` and the code behind
its labels. Where the program's behaviour is undefined, its model is `none`. The blocks `malloc`
returns hold what they like: `fresh n` is what is found in the block for the `n`-th text that is
longer than a line. All other blocks are written before they are read.
-/

namespace Emu51

namespace Generator

open CString

/-- `struct op`. -/
structure Op where
  name : List Char
  code : Option (List Char)
  desc : Option (List Char)
  bytes : ℤ
  emitted : Bool
  deriving Inhabited

/-- The variables of `gen` while it reads. -/
structure State where
  /-- The structures `addop` has allocated, numbered in order. -/
  ops : ℕ → Op
  nops : ℕ
  opmap : Fin 256 → Option ℕ
  opName : Option (List Char)
  opCode : Option (List Char)
  opDesc : Option (List Char)
  opIdx : Option (List Char)
  opBytes : ℤ
  /-- The state `strtok` keeps. -/
  saved : Saved
  /-- The number of longer texts so far. -/
  ntexts : ℕ

/-- The variables before the first line. -/
def init : State where
  ops := default
  nops := 0
  opmap := fun _ => none
  opName := none
  opCode := none
  opDesc := none
  opIdx := none
  opBytes := 0
  saved := .null
  ntexts := 0

/-! ## Reading -/

/-- `addop`. -/
def addop (op : Fin 256) (name : List Char) (bytes : ℤ) (code desc : Option (List Char))
    (st : State) : State :=
  { st with
    ops := Function.update st.ops st.nops ⟨name, code, desc, bytes, false⟩
    nops := st.nops + 1
    opmap := Function.update st.opmap op (some st.nops) }

/-- An index of `opmap`; others are out of bounds. -/
def opIndex (idx : ℤ) : Option (Fin 256) :=
  if h : 0 ≤ idx ∧ idx < 256 then some ⟨idx.toNat, by omega⟩ else none

/-- The loop over the indices of a record, where `last` is `last_idx` if that is not `-1`. A token
takes a character at least, so `fuel` need not be more than there are characters. Where there is an
index, there is a name. -/
def addIndices : (fuel : ℕ) → (idx : Option (List Char)) → (last : Option (Fin 256)) → State →
    Option State
  | 0, _, _, _ => none
  | fuel + 1, idx, last, st => do
      let (t, saved) ← strtok ':' idx st.saved
      let st := { st with saved := saved }
      match t with
      | none => some st
      | some t =>
          let i ← (atoi t).bind opIndex
          match last with
          | none =>
              let name ← st.opName
              addIndices fuel none (some i) (addop i name st.opBytes st.opCode st.opDesc st)
          | some j =>
              addIndices fuel none (some i)
                { st with opmap := Function.update st.opmap i (st.opmap j) }

/-- The branch of a blank line and of the end of the file. -/
def endRecord (st : State) : Option State := do
  let fuel := ((st.saved.start st.opIdx).getD []).length + 1
  let st ← addIndices fuel st.opIdx none st
  some { st with opIdx := none, opName := none, opCode := none, opDesc := none, opBytes := 0 }

/-- The branch of a header. Afterwards `strtok` points into `buf`, which the next line replaces. -/
def header (s : List Char) (st : State) : Option State := do
  let (name, saved) ← strtok ',' (some s) st.saved
  let name ← name
  let (idx, saved) ← strtok ',' none saved
  let (bytes, _) ← strtok ',' none saved
  let opBytes ← match bytes with
    | none => some st.opBytes
    | some t => atoi t
  some { st with
    opName := some name
    opIdx := idx.or st.opIdx
    opBytes := opBytes
    saved := .stale }

/-- `malloc(strlen(op_code) + strlen(s) + 1)`, `memcpy` of `op_code` without its null, and
`strcat`. -/
def appendCode (fresh : ℕ → Char) (code s : List Char) : Option (List Char) :=
  let new := (List.range (code.length + s.length + 1)).map fresh
  strcat (code ++ new.drop code.length) s

/-- The branch of a line of code. -/
def codeLine (fresh : ℕ → ℕ → Char) (s : List Char) (st : State) : Option State :=
  match st.opCode with
  | none => some { st with opCode := some s }
  | some code => (appendCode (fresh st.ntexts) code s).map fun new =>
      { st with opCode := some new, ntexts := st.ntexts + 1 }

/-- The branch of any other line. -/
def descLine (s : List Char) (st : State) : State :=
  { st with opDesc := some (if 1 < s.length ∧ s.getLast? = some '\n' then s.dropLast else s) }

/-- One round of the loop, for a line. -/
def readLine (fresh : ℕ → ℕ → Char) (st : State) (s : List Char) : Option State :=
  if s = [] ∨ s = ['\n'] then endRecord st
  else if st.opName = none then header s st
  else if s.head? = some '\t' then codeLine fresh s st
  else some (descLine s st)

/-- The whole loop. In the last round `s` is `NULL`. -/
def readFile (fresh : ℕ → ℕ → Char) (file : List Char) : Option State := do
  let st ← (fgetsAll 79 file).foldlM (readLine fresh) init
  endRecord st

/-! ## Writing -/

/-- What is printed for one structure. -/
structure Body where
  label : List Char
  desc : Option (List Char)
  code : Option (List Char)
  bytes : ℤ

/-- The text of it. -/
def Body.text (b : Body) : List Char :=
  b.label ++ ":".toList ++ (match b.desc with
    | none => []
    | some desc => " /* ".toList ++ desc ++ " */".toList) ++ "\n".toList ++ b.code.getD [] ++
    (if b.bytes ≠ 0 then "\tpc += ".toList ++ (toString b.bytes).toList ++ ";\n".toList else []) ++
    "\tFETCH;\n".toList

/-- The output: the labels in `insnmap` and the code behind them. -/
structure Output where
  insnmap : Fin 256 → List Char
  bodies : List Body

/-- `%02x` of a number below 256. -/
def hex2 (n : ℕ) : List Char := [Nat.digitChar (n / 16), Nat.digitChar (n % 16)]

/-- The text of the output. -/
def Output.text (out : Output) : List Char :=
  "\tstatic void *insnmap[256] = \x7b\n".toList ++
    (List.finRange 32).flatMap (fun (i : Fin 32) =>
      "\t\t/* ".toList ++ hex2 (8 * i) ++ " */".toList ++
      (List.finRange 8).flatMap (fun (j : Fin 8) =>
        " &&".toList ++ out.insnmap ⟨8 * i + j, by omega⟩ ++
          ",".toList) ++ "\n".toList) ++
    "\t\x7d;\n".toList ++ "\tFETCH;\n".toList ++ out.bodies.flatMap Body.text

/-- The label in the table. -/
def State.label (st : State) (i : Fin 256) : List Char :=
  match st.opmap i with
  | none => "unimpl".toList
  | some p => (st.ops p).name

/-- One round of the second loop: `emitted` is in the structure, which several entries may share. -/
def emit (opmap : Fin 256 → Option ℕ) (acc : (ℕ → Op) × List Body) (i : Fin 256) :
    (ℕ → Op) × List Body :=
  match opmap i with
  | none => acc
  | some p =>
    let op := acc.1 p
    if op.emitted then acc
    else (Function.update acc.1 p { op with emitted := true },
      acc.2 ++ [⟨op.name, op.desc, op.code, op.bytes⟩])

/-- What is printed. -/
def State.output (st : State) : Output where
  insnmap := st.label
  bodies := ((List.finRange 256).foldl (emit st.opmap) (st.ops, [])).2

/-- The program. -/
def gen (fresh : ℕ → ℕ → Char) (file : List Char) : Option Output :=
  (readFile fresh file).map State.output

end Generator

end Emu51

import Emu51.Firmware.HexdumpPartial
import Emu51.Firmware.PortInit

/-!
# The register dump

The main program of `hello.s` prints all switch registers below 0x2000, and then the registers of
the PHY of port 0 with their addresses. Both loops use the routines for printing as well as those
for the switch registers, which are linked into the program here.
-/

namespace Emu51

open Chip Chip.Rtl8367s

/-! ## The listing -/

/-- The labels of the program up to `rx_loop`. -/
inductive HelloLabel where
  | serial (l : PartialLabel)
  | port (l : PortLabel)
  | portInit1 | dumpRegisterLoop | dumpPhyLoop | rxLoop
  deriving DecidableEq

open HelloLabel PartialLabel SerialLabel PortLabel RegLabel Insn in
/-- From `dump_register_loop` on. -/
def dumpRegisterInsns : List (Insn HelloLabel) := [
  lcall (serial (.serial hexaddr)),
  lcall (port (.reg regRead)),
  movA (.dir INDACC_RDATA_H),
  lcall (serial (.serial serialHex)),
  movA (.dir INDACC_RDATA_L),
  lcall (serial (.serial serialHex)),
  lcall (serial (.serial serialNewline)),
  incDptr,
  movA (.dir DPH0),
  cjneA 0x20 dumpRegisterLoop,
  movRegImm 7 0,
  movDptr 0xa400]

open HelloLabel PartialLabel SerialLabel PortLabel RegLabel Insn in
/-- From `dump_phy_loop` on. -/
def dumpPhyInsns : List (Insn HelloLabel) := [
  acall (serial (.serial hexaddr)),
  push DPL0,
  push DPH0,
  acall (port (.reg phyocpRegAddr)),
  acall (serial (.serial hexaddr)),
  acall (port (.reg regRead)),
  pop DPH0,
  pop DPL0,
  movA (.dir INDACC_RDATA_H),
  acall (serial (.serial serialHex)),
  movA (.dir INDACC_RDATA_L),
  acall (serial (.serial serialHex)),
  acall (serial (.serial serialNewline)),
  incDptr,
  incDptr,
  movA (.dir DPH0),
  cjneA 0xd4 dumpPhyLoop]

/-- The routines before `port_init1`. -/
def helloRoutines : Listing HelloLabel :=
  SerialSource.helloS.partialListing.relabel .serial ++ portListing.relabel .port

/-- The rest, up to `rx_loop`. The code between `port_init1` and the dump is not modelled, and any
code can stand there. -/
def dumpListing (gap : List (Insn HelloLabel)) : Listing HelloLabel := [
  (.portInit1, gap),
  (.dumpRegisterLoop, dumpRegisterInsns),
  (.dumpPhyLoop, dumpPhyInsns),
  (.rxLoop, [])]

/-- The listing of `hello.s` up to `rx_loop`. -/
def helloListing (gap : List (Insn HelloLabel)) : Listing HelloLabel :=
  helloRoutines ++ dumpListing gap

/-- The position is outside of the gap. -/
def Modelled (gap : List (Insn HelloLabel)) (p : ℕ) : Prop :=
  p < (helloListing gap).pos .portInit1 ∨ (helloListing gap).pos .dumpRegisterLoop ≤ p

instance (gap : List (Insn HelloLabel)) : DecidablePred (Modelled gap) :=
  fun _ => inferInstanceAs (Decidable (_ ∨ _))

namespace Dump

variable (m : Machine G) (gap : List (Insn HelloLabel))

/-- A step of the listing. -/
abbrev step : Config G → Option (Config G) :=
  Config.stepOn (Modelled gap) (m.scope indaccDevice true 10) (helloListing gap).code

/-- The position of a label. -/
abbrev place (l : HelloLabel) : ℕ := (helloListing gap).pos l

/-! ## The loops in the program -/

/-- The instructions are in the program. -/
def Has (o : ℕ) (is : List (Insn HelloLabel)) : Prop :=
  ∀ p i, is[p]? = some i → Modelled gap (o + p) ∧
    (helloListing gap).code[o + p]? = some (i.map (place gap))

variable {gap}

/-- A stretch of instructions that are in the program is in the program, too. -/
lemma Has.sub {o p r : ℕ} {is : List (Insn HelloLabel)} (h : Has gap o is) :
    Has gap (o + p) ((is.drop p).take r) := by
  intro j i hi
  rw [List.getElem?_take] at hi
  obtain ⟨-, hdrop⟩ := Option.ite_none_right_eq_some.1 hi
  rw [List.getElem?_drop] at hdrop
  rw [Nat.add_assoc]
  exact h _ _ hdrop

/-- An instruction that is in the program is performed as the listing says. -/
lemma Has.step {o p : ℕ} {is : List (Insn HelloLabel)} {i : Insn HelloLabel} {s : Regs G}
    {k : List Slot} {n : ℕ} {c : Config G} (h : Has gap o is) (hi : is[p]? = some i)
    (hc : Config.exec (m.scope indaccDevice true 10) ⟨some (o + p), s, k, n⟩ (o + p + 1)
      (i.map (place gap)) = some c) :
    Leads (step m gap) ⟨some (o + p), s, k, n⟩ c := by
  obtain ⟨hon, hinsn⟩ := h _ _ hi
  refine .single ?_
  rw [Dump.step, Config.stepOn, if_pos ⟨o + p, rfl, hon⟩, Config.step]
  dsimp only
  rw [hinsn]
  exact hc

variable (gap)

/-- The loop over the registers is in the program where its label is. -/
lemma has_register : Has gap (place gap .dumpRegisterLoop) dumpRegisterInsns :=
  fun _ _ hi => ⟨.inr (Nat.le_add_right ..), Listing.code_lookup rfl hi⟩

/-- The second loop is behind the twelve instructions of the first one. -/
lemma place_dumpPhyLoop : place gap .dumpPhyLoop = place gap .dumpRegisterLoop + 12 := by
  have hfresh : ∀ l ∈ [HelloLabel.dumpRegisterLoop, .dumpPhyLoop],
      l ∉ helloRoutines.map Prod.fst := by decide
  have hregister : (dumpListing gap).pos .dumpRegisterLoop = gap.length := rfl
  have hphy : (dumpListing gap).pos .dumpPhyLoop = gap.length + 12 := rfl
  rw [place, place, helloListing, Listing.pos_append (hfresh _ (by decide)),
    Listing.pos_append (hfresh _ (by decide)), hregister, hphy, Nat.add_assoc]

/-- The loop over the registers of a PHY is in the program where its label is. -/
lemma has_phy : Has gap (place gap .dumpPhyLoop) dumpPhyInsns :=
  fun _ _ hi => ⟨.inr (by rw [place_dumpPhyLoop, Nat.add_assoc]; exact Nat.le_add_right ..),
    Listing.code_lookup rfl hi⟩

/-! ## The routines in the program -/

/-- Every label of the printing routines is in their listing. -/
lemma mem_partialLabels (l : PartialLabel) :
    l ∈ SerialSource.helloS.partialListing.map Prod.fst := by
  cases l with
  | serial l => cases l <;> decide
  | hexdumpPartial => decide

/-- Every label of the routines for the ports is in their listing. -/
lemma mem_portLabels (l : PortLabel) : l ∈ portListing.map Prod.fst := by
  cases l with
  | reg l => cases l <;> decide
  | portInitPhyocp => decide
  | portInitPhyocpExit => decide

/-- How far on the routines for the switch registers are. -/
def regOffset : ℕ := Listing.size (SerialSource.helloS.partialListing.relabel HelloLabel.serial)

/-- No label of the routines for the ports is one of the printing routines. -/
lemma port_fresh (l : PortLabel) : HelloLabel.port l ∉
    (SerialSource.helloS.partialListing.relabel HelloLabel.serial).map Prod.fst := by
  intro hmem
  rw [Listing.relabel, List.map_map] at hmem
  obtain ⟨x, -, hx⟩ := List.mem_map.1 hmem
  exact HelloLabel.noConfusion hx

/-- The printing routines are at the very start of the program. -/
lemma linked_serial : Linked SerialSource.helloS.listing.code 0 (helloListing gap).code := by
  have hpartial : Linked SerialSource.helloS.partialListing.code 0 (helloListing gap).code := by
    rw [helloListing, helloRoutines, List.append_assoc]
    exact Listing.linked (f := HelloLabel.serial) (fun _ _ h => HelloLabel.serial.inj h)
      mem_partialLabels [] _ fun _ => List.not_mem_nil
  exact (Serial.linked_partialListing .helloS).trans hpartial

/-- The routines for the switch registers are in the program, behind the printing routines. -/
lemma linked_reg : Linked regListing.code regOffset (helloListing gap).code := by
  have hport : Linked portListing.code regOffset (helloListing gap).code := by
    rw [helloListing, helloRoutines, List.append_assoc]
    exact Listing.linked (f := HelloLabel.port) (fun _ _ h => HelloLabel.port.inj h)
      mem_portLabels _ _ port_fresh
  have hreg := Switch.linked_port.trans hport
  rwa [Nat.zero_add] at hreg

/-- A label of the printing routines is where it is in their own listing. -/
lemma place_serial (l : SerialLabel) :
    place gap (.serial (.serial l)) = SerialSource.helloS.listing.pos l := by
  rw [place, helloListing, helloRoutines, List.append_assoc,
    Listing.pos_relabel (fun _ _ h => HelloLabel.serial.inj h) _ (mem_partialLabels _),
    SerialSource.partialListing,
    Listing.pos_relabel (fun _ _ h => PartialLabel.serial.inj h) _ (Serial.mem_labels _ l)]

/-- A label of the routines for the switch registers is as far behind the printing routines as it is
in their own listing. -/
lemma place_reg (l : RegLabel) :
    place gap (.port (.reg l)) = regListing.pos l + regOffset := by
  rw [place, helloListing, helloRoutines, List.append_assoc,
    Listing.pos_linked (fun _ _ h => HelloLabel.port.inj h) (mem_portLabels _) (port_fresh _),
    portListing, Listing.pos_relabel (fun _ _ h => PortLabel.reg.inj h) _ (Switch.mem_labels l)]
  rfl

/-- The routines are in front of the gap, so their positions are all modelled. -/
lemma place_portInit1 : place gap .portInit1 = helloRoutines.size := by
  have hfresh : .portInit1 ∉ helloRoutines.map Prod.fst := by decide
  have hfirst : (dumpListing gap).pos .portInit1 = 0 := rfl
  rw [place, helloListing, Listing.pos_append hfresh, hfirst, Nat.add_zero]

/-- What the routines for printing do. They leave the switch registers alone. -/
lemma serialLinks {l : SerialLabel} {s s' : Regs G} {n n' : ℕ}
    (h : Leads (Serial.step m .helloS) ⟨Serial.place .helloS l, s, [.ret none], n⟩
      ⟨none, s', [], n'⟩) (q : Option ℕ) (k : List Slot) :
    Leads (step m gap) ⟨some (place gap (.serial (.serial l))), s, .ret q :: k, n⟩
      ⟨q, s', k, n'⟩ ∧ s'.lua = s.lua := by
  have hsize : SerialSource.helloS.listing.code.length ≤ helloRoutines.size := by decide +kernel
  have hon : ∀ p < SerialSource.helloS.listing.code.length, Modelled gap (p + 0) :=
    fun p hp => .inl (Nat.lt_of_lt_of_le hp (hsize.trans_eq (place_portInit1 gap).symm))
  have hscope : (Serial.scope m).Le (m.scope indaccDevice true 10) :=
    ⟨rfl, rfl, Device.none_le _, id⟩
  rw [place_serial gap]
  exact ⟨Leads.link hscope (linked_serial gap) hon h q k, Leads.lua_eq rfl h⟩

/-- What `reg_read` and `phyocp_reg_addr` do. They do not print. -/
lemma regLinks {l : RegLabel} {s s' : Regs G} {n n' : ℕ}
    (h : Leads (Switch.step m true) ⟨Switch.place l, s, [.ret none], n⟩ ⟨none, s', [], n'⟩)
    (q : Option ℕ) (k : List Slot) :
    Leads (step m gap) ⟨some (place gap (.port (.reg l))), s, .ret q :: k, n⟩ ⟨q, s', k, n'⟩ ∧
      s'.out = s.out ∧ s'.r 7 = s.r 7 := by
  have hsize : regListing.code.length + regOffset ≤ helloRoutines.size := by decide +kernel
  have hon : ∀ p < regListing.code.length, Modelled gap (p + regOffset) := fun p hp =>
    .inl (Nat.lt_of_lt_of_le (Nat.add_lt_add_right hp _)
      (hsize.trans_eq (place_portInit1 gap).symm))
  rw [place_reg gap]
  exact Switch.links m q k (Modelled gap) (linked_reg gap) hon h

/-! ## A line of the dump -/

section Lines

variable {gap} {o p : ℕ} {is : List (Insn HelloLabel)} (s : Regs G) (k : List Slot) (n : ℕ)

/-- A call that is in the program, of either kind, goes to its label and will return behind it. -/
lemma Has.call {x : HelloLabel} (h : Has gap o is)
    (hi : is[p]? = some (.acall x) ∨ is[p]? = some (.lcall x)) :
    Leads (Dump.step m gap) ⟨some (o + p), s, k, n + 2⟩
      ⟨some (place gap x), s, .ret (some (o + p + 1)) :: k, n⟩ := by
  rcases hi with hi | hi
  · exact h.step m hi rfl
  · exact h.step m hi rfl

/-- A call of a routine that prints, where it is in the program, prints its text and goes on. -/
lemma Has.prints {l : SerialLabel} {text : List Byte} (h : Has gap o is)
    (hi : is[p]? = some (.acall (.serial (.serial l))) ∨
      is[p]? = some (.lcall (.serial (.serial l))))
    (hroutine : ∃ s', Leads (Serial.step m .helloS) ⟨Serial.place .helloS l, s, [.ret none], n⟩
      ⟨none, s', [], n + 2⟩ ∧ Prints s text s') :
    ∃ s', Leads (Dump.step m gap) ⟨some (o + p), s, k, n + 2⟩ ⟨some (o + p + 1), s', k, n + 2⟩ ∧
      Prints s text s' ∧ s'.lua = s.lua := by
  obtain ⟨s', hlead, hprints⟩ := hroutine
  obtain ⟨hlink, hlua⟩ := serialLinks m gap hlead (some (o + p + 1)) k
  exact ⟨s', (h.call m s k n hi).trans hlink, hprints, hlua⟩

open HelloLabel PartialLabel SerialLabel Insn in
/-- The end of a round prints the data registers and a line end. -/
def dataInsns (call : HelloLabel → Insn HelloLabel) : List (Insn HelloLabel) := [
  movA (.dir INDACC_RDATA_H),
  call (serial (.serial serialHex)),
  movA (.dir INDACC_RDATA_L),
  call (serial (.serial serialHex)),
  call (serial (.serial serialNewline))]

/-- Printing the two data registers prints four digits, the high byte first. -/
lemma Has.data {call : HelloLabel → Insn HelloLabel} (h : Has gap o (dataInsns call))
    (hcall : call = .acall ∨ call = .lcall) {v : Word}
    (hhigh : byteOfLua s.lua.indacc.rdataH = hi v) (hlow : byteOfLua s.lua.indacc.rdataL = lo v) :
    ∃ s', Leads (Dump.step m gap) ⟨some o, s, k, n + 4⟩ ⟨some (o + 5), s', k, n + 4⟩ ∧
      Prints s (hexDigits 4 v.toNat ++ [13, 10]) s' ∧ s'.lua = s.lua := by
  have hkind : ∀ {p : ℕ} {l : HelloLabel}, (dataInsns call)[p]? = some (call l) →
      (dataInsns call)[p]? = some (.acall l) ∨ (dataInsns call)[p]? = some (.lcall l) := by
    rintro p l hi
    rcases hcall with rfl | rfl
    · exact .inl hi
    · exact .inr hi
  have hload₁ : Leads (Dump.step m gap) ⟨some o, s, k, n + 4⟩
      ⟨some (o + 1), { s with acc := hi v }, k, n + 4⟩ := by
    rw [← hhigh]
    exact h.step m (p := 0) rfl rfl
  obtain ⟨s₁, hlead₁, hprints₁, hlua₁⟩ := h.prints m (p := 1) { s with acc := hi v } k (n + 2)
    (hkind rfl) (Serial.serialHex m .helloS _ none [] n)
  have hload₂ : Leads (Dump.step m gap) ⟨some (o + 2), s₁, k, n + 4⟩
      ⟨some (o + 3), { s₁ with acc := lo v }, k, n + 4⟩ := by
    rw [← hlow, ← show s₁.lua = s.lua from hlua₁]
    exact h.step m (p := 2) rfl rfl
  obtain ⟨s₂, hlead₂, hprints₂, hlua₂⟩ := h.prints m (p := 3) { s₁ with acc := lo v } k (n + 2)
    (hkind rfl) (Serial.serialHex m .helloS _ none [] n)
  obtain ⟨s₃, hlead₃, hprints₃, hlua₃⟩ := h.prints m (p := 4) s₂ k (n + 2) (hkind rfl)
    (Serial.serialNewline m .helloS _ none [] n)
  refine ⟨s₃, hload₁.trans (hlead₁.trans (hload₂.trans (hlead₂.trans hlead₃))), ?_,
    hlua₃.trans (hlua₂.trans hlua₁)⟩
  rw [hexDigits_word]
  exact (((Prints.of_acc s (hi v) s.b rfl).trans hprints₁).trans
    ((Prints.of_acc s₁ (lo v) s₁.b rfl).trans hprints₂)).trans hprints₃

/-- `INC DPTR` adds 1 to the data pointer. -/
lemma Has.inc (h : Has gap o is) (hi : is[p]? = some .incDptr) {a : Word} (hdptr : s.dptr = a) :
    Leads (Dump.step m gap) ⟨some (o + p), s, k, n⟩
      ⟨some (o + p + 1), { s with dph := Emu51.hi (a + 1), dpl := lo (a + 1) }, k, n⟩ := by
  rw [← hdptr]
  exact h.step m hi rfl

/-- The end of a loop: `mov a, dph` and `cjne a, #v, l`. -/
lemma Has.again {v : Byte} {l : HelloLabel} (h : Has gap o is)
    (hmov : is[p]? = some (.movA (.dir DPH0))) (hcjne : is[p + 1]? = some (.cjneA v l)) :
    ∃ s', Leads (Dump.step m gap) ⟨some (o + p), s, k, n⟩
      ⟨some (if s.dph = v then o + p + 2 else place gap l), s', k, n⟩ ∧
        s'.dptr = s.dptr ∧ s'.out = s.out ∧ s'.r = s.r ∧ s'.lua = s.lua := by
  have hload : Leads (Dump.step m gap) ⟨some (o + p), s, k, n⟩
      ⟨some (o + (p + 1)), { s with acc := s.dph }, k, n⟩ := h.step m hmov rfl
  have htest : Leads (Dump.step m gap) ⟨some (o + (p + 1)), { s with acc := s.dph }, k, n⟩
      ⟨some (if (aluCmp s.dph v s.psw).1 ≠ 0 then place gap l else o + p + 2),
        { s with acc := s.dph, psw := (aluCmp s.dph v s.psw).2 }, k, n⟩ := h.step m hcjne rfl
  have hequal : (aluCmp s.dph v s.psw).1 = 0 ↔ s.dph = v := by
    rw [aluCmp, BitVec.sub_eq_iff_eq_add, show (0 : Byte) + v = v from BitVec.zero_add v]
  rw [ite_not, if_congr hequal rfl rfl] at htest
  exact ⟨_, hload.trans htest, rfl, rfl, rfl, rfl⟩

end Lines

/-- The addresses, each with a colon, and the value. -/
def dumpLine (addrs : List Word) (v : Word) : List Byte :=
  addrs.flatMap (fun a => hexDigits 4 a.toNat ++ [ascii ':']) ++ (hexDigits 4 v.toNat ++ [13, 10])

/-! ## The switch registers -/

/-- What reading a register below 0x2000 makes of the registers. -/
def readReg (a : Word) (regs : LuaInt → Option LuaInt) : LuaInt → Option LuaInt :=
  if a = 0x1a04 then Function.update regs (luaOfWord a) (some 0) else regs

/-- Below `0x2000` a register reads as the table has it, or as `0xdead`. -/
lemma socregValue_low {a : Word} (ha : a < 0x2000) (phyocp : LuaInt → LuaInt) (g : G) :
    ∃ g', socregValue phyocp (luaOfWord a) g = some ((g.socRegs (luaOfWord a)).getD 0xdead, g') ∧
      g'.socRegs = readReg a g.socRegs := by
  have houtside : ((0x2000 : LuaInt).sle (luaOfWord a) && (luaOfWord a).slt 0x3000) = false := by
    rw [window_luaOfWord, decide_eq_false (BitVec.not_le.2 ha), Bool.false_and]
  have hclear : luaOfWord a = 0x1a04 ↔ a = 0x1a04 := luaOfWord_inj (b := 0x1a04)
  refine ⟨_, by rw [socregValue, houtside, if_neg Bool.false_ne_true], ?_⟩
  rw [readReg, if_congr hclear rfl rfl]
  split_ifs <;> rfl

/-- One round of the first loop prints the address of a register and its value. -/
lemma registerRound (s : Regs G) (k : List Slot) (n : ℕ) {a : Word} (hdptr : s.dptr = a)
    (ha : a < 0x2000) :
    ∃ s', Leads (step m gap) ⟨some (place gap .dumpRegisterLoop), s, k, n + 6⟩
      ⟨some (if hi (a + 1) = 0x20 then place gap .dumpRegisterLoop + 10
        else place gap .dumpRegisterLoop), s', k, n + 6⟩ ∧
          s'.out = s.out ++ dumpLine [a] (regWord s.lua.socRegs a) ∧ s'.dptr = a + 1 ∧
          s'.lua.socRegs = readReg a s.lua.socRegs := by
  have hcode := has_register gap
  obtain ⟨s₁, hlead₁, hprints₁, hlua₁⟩ := hcode.prints m (p := 0) s k (n + 4) (.inr rfl)
    (Serial.hexaddr m .helloS s none [] n)
  rw [Nat.add_zero] at hlead₁
  obtain ⟨g, hvalue, hregs⟩ := socregValue_low ha phyocpRead (withAddr s₁.dph s₁.dpl s₁.lua)
  have hdptr₁ : s₁.dptr = a := hprints₁.dptr.trans hdptr
  obtain ⟨s₂, hlead₂, h₂⟩ := Switch.regReadValue m true s₁ none [] (n + 4) hdptr₁ hvalue
  obtain ⟨hlink₂, hout₂, -⟩ := regLinks m gap hlead₂ (some (place gap .dumpRegisterLoop + 2)) k
  have hcall₂ := hcode.call m (p := 1) s₁ k (n + 4) (.inr rfl)
  have hkept : (withAddr s₁.dph s₁.dpl s₁.lua).socRegs = s.lua.socRegs := by
    rw [← hlua₁]
    rfl
  rw [hkept] at hregs
  have hdata : Has gap (place gap .dumpRegisterLoop + 2) (dataInsns .lcall) :=
    hcode.sub (p := 2) (r := 5)
  obtain ⟨s₃, hlead₃, hprints₃, hlua₃⟩ := hdata.data m s₂ k (n + 2) (.inr rfl)
    (v := regWord s.lua.socRegs a)
    (by rw [h₂.lua, hkept]; exact byteOfLua_high _) (by rw [h₂.lua, hkept]; exact byteOfLua_low _)
  have hdptr₃ : s₃.dptr = a := hprints₃.dptr.trans h₂.dptr
  have hnext := hcode.inc m (p := 7) s₃ k (n + 6) rfl hdptr₃
  obtain ⟨s₄, hlead₄, hdptr₄, hout₄, -, hlua₄⟩ := hcode.again m (p := 8) (v := 0x20)
    { s₃ with dph := hi (a + 1), dpl := lo (a + 1) } k (n + 6) rfl rfl
  refine ⟨s₄, hlead₁.trans (hcall₂.trans (hlink₂.trans (hlead₃.trans (hnext.trans hlead₄)))),
    ?_, hdptr₄.trans (word_hi_lo _), ?_⟩
  · have hout₃ : s₄.out = s₃.out := hout₄
    rw [hout₃, hprints₃.out, hout₂, hprints₁.out, hdptr, dumpLine, List.flatMap_cons,
      List.flatMap_nil, List.append_nil, List.append_assoc]
  · rw [hlua₄, hlua₃, h₂.lua]
    exact hregs

/-- The registers below 0x2000, a line each. -/
def registerText (regs : LuaInt → Option LuaInt) : List Byte :=
  (List.range 0x2000).flatMap fun i =>
    dumpLine [BitVec.ofNat 16 i] (regWord regs (BitVec.ofNat 16 i))

/-- The registers after `i` rounds: one of them has been cleared on the way. -/
def readRegs (i : ℕ) (regs : LuaInt → Option LuaInt) : LuaInt → Option LuaInt :=
  if 0x1a04 < i then Function.update regs (luaOfWord 0x1a04) (some 0) else regs

/-- Numbers of 16 bits are the same as words exactly if they are the same. -/
lemma ofNat_eq_iff {i j : ℕ} (hi : i < 0x10000) (hj : j < 0x10000) :
    BitVec.ofNat 16 i = BitVec.ofNat 16 j ↔ i = j := by
  rw [← BitVec.toNat_inj, BitVec.toNat_ofNat, BitVec.toNat_ofNat, Nat.mod_eq_of_lt hi,
    Nat.mod_eq_of_lt hj]

/-- A register is cleared after it has been printed. -/
lemma regWord_readRegs {i : ℕ} (hi : i < 0x2000) (regs : LuaInt → Option LuaInt) :
    regWord (readRegs i regs) (BitVec.ofNat 16 i) = regWord regs (BitVec.ofNat 16 i) := by
  rw [readRegs]
  split_ifs with hcleared
  · have hne : luaOfWord (BitVec.ofNat 16 i) ≠ luaOfWord 0x1a04 := by
      rw [Ne, luaOfWord_inj]
      intro heq
      have hvalue := (ofNat_eq_iff (j := 0x1a04) (by omega) (by decide)).1 heq
      omega
    rw [regWord, regWord, Function.update_of_ne hne]
  · rfl

/-- Reading one more register after the first of them is reading the first ones and that one. -/
lemma readReg_readRegs {i : ℕ} (hi : i < 0x2000) (regs : LuaInt → Option LuaInt) :
    readReg (BitVec.ofNat 16 i) (readRegs i regs) = readRegs (i + 1) regs := by
  have hword : BitVec.ofNat 16 i = 0x1a04 ↔ i = 0x1a04 :=
    ofNat_eq_iff (j := 0x1a04) (by omega) (by decide)
  rw [readReg, if_congr hword rfl rfl, readRegs, readRegs]
  rcases Nat.lt_trichotomy i 0x1a04 with hlt | rfl | hgt
  · rw [if_neg (by omega), if_neg (by omega), if_neg (by omega)]
  · rfl
  · rw [if_neg (by omega), if_pos hgt, if_pos (by omega)]

/-- The last round is that of the register 0x1fff. -/
lemma hi_succ_eq {i : ℕ} (hi : i < 0x2000) :
    Emu51.hi (BitVec.ofNat 16 i + 1) = 0x20 ↔ i + 1 = 0x2000 := by
  have hvalue : (BitVec.ofNat 16 i + 1).toNat = i + 1 := by bv_omega
  rw [← BitVec.toNat_inj, toNat_hi, hvalue]
  have hconst : (0x20 : Byte).toNat = 0x20 := rfl
  rw [hconst]
  omega

/-- All rounds of the first loop print the registers from 0 to `0x1fff` in order. -/
lemma registers (s : Regs G) (k : List Slot) (n : ℕ) (hdptr : s.dptr = 0) :
    ∃ s', Leads (step m gap) ⟨some (place gap .dumpRegisterLoop), s, k, n + 6⟩
      ⟨some (place gap .dumpRegisterLoop + 10), s', k, n + 6⟩ ∧
        s'.out = s.out ++ registerText s.lua.socRegs ∧
        s'.lua.socRegs = Function.update s.lua.socRegs (luaOfWord 0x1a04) (some 0) := by
  obtain ⟨c, hlead, s', rfl, hout, -, hregs⟩ := Leads.rounds (f := step m gap) (n := 0x2000)
    (I := fun i c => ∃ s', c = ⟨some (if i = 0x2000 then place gap .dumpRegisterLoop + 10
        else place gap .dumpRegisterLoop), s', k, n + 6⟩ ∧
      s'.out = s.out ++ (List.range i).flatMap (fun i =>
        dumpLine [BitVec.ofNat 16 i] (regWord s.lua.socRegs (BitVec.ofNat 16 i))) ∧
      s'.dptr = BitVec.ofNat 16 i ∧ s'.lua.socRegs = readRegs i s.lua.socRegs)
    (fun i hi c hc => by
      obtain ⟨s₁, rfl, hout₁, hdptr₁, hregs₁⟩ := hc
      have ha : BitVec.ofNat 16 i < 0x2000 := by
        rw [BitVec.lt_def, BitVec.toNat_ofNat]
        exact Nat.lt_of_le_of_lt (Nat.mod_le ..) hi
      obtain ⟨s₂, hround, hout₂, hdptr₂, hregs₂⟩ := registerRound m gap s₁ k n hdptr₁ ha
      rw [if_congr (hi_succ_eq hi) rfl rfl] at hround
      rw [if_neg (Nat.ne_of_lt hi)]
      refine ⟨_, hround, s₂, rfl, ?_, ?_, ?_⟩
      · rw [hout₂, hout₁, hregs₁, regWord_readRegs hi, List.range_succ, List.flatMap_append,
          List.flatMap_singleton, List.append_assoc]
      · rw [hdptr₂, BitVec.ofNat_add]
        rfl
      · rw [hregs₂, hregs₁, readReg_readRegs hi])
    ⟨s, rfl, (List.append_nil _).symm, hdptr, rfl⟩
  exact ⟨s', hlead, hout, hregs⟩

/-! ## The registers of the PHY -/

/-- The address is printed, saved on the stack and taken apart, and the address in the window of the
PHYs is printed. -/
lemma phyAddrs (s : Regs G) (k : List Slot) (n : ℕ) {a : Word} (hdptr : s.dptr = a)
    (hport : s.r 7 = 0) :
    ∃ s', Leads (step m gap) ⟨some (place gap .dumpPhyLoop), s, k, n + 8⟩
      ⟨some (place gap .dumpPhyLoop + 5), s', .byte (hi a) :: .byte (lo a) :: k, n + 6⟩ ∧
        s'.out = s.out ++ [a, phyReg a 0].flatMap (fun a => hexDigits 4 a.toNat ++ [ascii ':']) ∧
        s'.dptr = phyReg a 0 ∧ s'.r 7 = 0 ∧
        s'.lua.socRegs = Function.update s.lua.socRegs 0x1d15
          (some (luaOfWord (ocpMsb (regWord s.lua.socRegs 0x1d15) a))) := by
  have hcode := has_phy gap
  obtain ⟨s₁, hlead₁, hprints₁, hlua₁⟩ := hcode.prints m (p := 0) s k (n + 6) (.inl rfl)
    (Serial.hexaddr m .helloS s none [] (n + 2))
  rw [Nat.add_zero] at hlead₁
  have hdptr₁ : s₁.dptr = a := hprints₁.dptr.trans hdptr
  have hport₁ : s₁.r 7 = 0 := (congrFun hprints₁.r 7).trans hport
  have hpush : Leads (step m gap) ⟨some (place gap .dumpPhyLoop + 1), s₁, k, n + 8⟩
      ⟨some (place gap .dumpPhyLoop + 3), s₁, .byte (hi a) :: .byte (lo a) :: k, n + 6⟩ := by
    rw [← hdptr₁, Regs.dptr, hi_word, lo_word]
    exact (hcode.step m (p := 1) rfl rfl).trans (hcode.step m (p := 2) rfl rfl)
  obtain ⟨s₂, hlead₂, hdptr₂, hregs₂⟩ := Switch.phyocpRegAddr_fields m s₁ [] (n + 2)
    (by rw [hport₁]; decide) none
  rw [hdptr₁, hport₁] at hdptr₂
  rw [hdptr₁, hlua₁] at hregs₂
  obtain ⟨hlink₂, hout₂, hr₂⟩ := regLinks m gap hlead₂ (some (place gap .dumpPhyLoop + 4))
    (.byte (hi a) :: .byte (lo a) :: k)
  have hcall₂ := hcode.call m (p := 3) s₁ (.byte (hi a) :: .byte (lo a) :: k) (n + 4) (.inl rfl)
  obtain ⟨s₃, hlead₃, hprints₃, hlua₃⟩ := hcode.prints m (p := 4) s₂
    (.byte (hi a) :: .byte (lo a) :: k) (n + 4) (.inl rfl) (Serial.hexaddr m .helloS s₂ none [] n)
  refine ⟨s₃, hlead₁.trans (hpush.trans (hcall₂.trans (hlink₂.trans hlead₃))), ?_,
    hprints₃.dptr.trans hdptr₂, ?_, ?_⟩
  · rw [hprints₃.out, hout₂, hprints₁.out, hdptr, hdptr₂, List.flatMap_cons,
      List.flatMap_singleton, List.append_assoc]
  · rw [congrFun hprints₃.r 7, hr₂, hport₁]
  · rw [hlua₃, hregs₂]

/-- A round prints a register of the PHY, with both its addresses. -/
lemma phyRound (s : Regs G) (k : List Slot) (n : ℕ) {a : Word} (hdptr : s.dptr = a)
    (heven : a.toNat % 2 = 0) (hport : s.r 7 = 0) :
    ∃ s', Leads (step m gap) ⟨some (place gap .dumpPhyLoop), s, k, n + 8⟩
      ⟨some (if hi (a + 1 + 1) = 0xd4 then place gap .dumpPhyLoop + 17
        else place gap .dumpPhyLoop), s', k, n + 8⟩ ∧
          s'.out = s.out ++ dumpLine [a, phyReg a 0] ((phyocpRead (luaOfWord a)).setWidth 16) ∧
          s'.dptr = a + 1 + 1 ∧ s'.r 7 = 0 ∧
          s'.lua.socRegs = Function.update s.lua.socRegs 0x1d15
            (some (luaOfWord (ocpMsb (regWord s.lua.socRegs 0x1d15) a))) := by
  have hcode := has_phy gap
  obtain ⟨s₁, hlead₁, hout₁, hdptr₁, hport₁, hregs₁⟩ := phyAddrs m gap s k n hdptr hport
  -- the read puts the address together again
  have hmsb : (withAddr s₁.dph s₁.dpl s₁.lua).socRegs 0x1d15 =
      some (luaOfWord (ocpMsb (regWord s.lua.socRegs 0x1d15) a)) :=
    (congrFun hregs₁ _).trans (Function.update_self ..)
  obtain ⟨s₂, hlead₂, h₂⟩ := Switch.regReadValue m true s₁ none [] (n + 4) hdptr₁
    (Switch.socregValue_phyReg heven hmsb phyocpRead)
  obtain ⟨hlink₂, hout₂, hr₂⟩ := regLinks m gap hlead₂ (some (place gap .dumpPhyLoop + 6))
    (.byte (hi a) :: .byte (lo a) :: k)
  have hcall₂ := hcode.call m (p := 5) s₁ (.byte (hi a) :: .byte (lo a) :: k) (n + 4) (.inl rfl)
  set s₃ : Regs G := { s₂ with dph := hi a, dpl := lo a } with hs₃
  have hpop : Leads (step m gap) ⟨some (place gap .dumpPhyLoop + 6), s₂,
      .byte (hi a) :: .byte (lo a) :: k, n + 6⟩
        ⟨some (place gap .dumpPhyLoop + 8), s₃, k, n + 8⟩ :=
    (hcode.step m (p := 6) rfl rfl).trans (hcode.step m (p := 7) rfl rfl)
  have hdata : Has gap (place gap .dumpPhyLoop + 8) (dataInsns .acall) :=
    hcode.sub (p := 8) (r := 5)
  obtain ⟨s₄, hlead₄, hprints₄, hlua₄⟩ := hdata.data m s₃ k (n + 4) (.inl rfl)
    (v := (phyocpRead (luaOfWord a)).setWidth 16)
    (by rw [hs₃, h₂.lua]; exact byteOfLua_high _) (by rw [hs₃, h₂.lua]; exact byteOfLua_low _)
  have hinc := hcode.inc m (p := 13) s₄ k (n + 8) rfl (hprints₄.dptr.trans (word_hi_lo a))
  have hinc' := hcode.inc m (p := 14) { s₄ with dph := hi (a + 1), dpl := lo (a + 1) } k (n + 8) rfl
    (word_hi_lo (a + 1))
  obtain ⟨s₅, hlead₅, hdptr₅, hout₅, hr₅, hlua₅⟩ := hcode.again m (p := 15) (v := 0xd4)
    { s₄ with dph := hi (a + 1 + 1), dpl := lo (a + 1 + 1) } k (n + 8) rfl rfl
  refine ⟨s₅, hlead₁.trans (hcall₂.trans (hlink₂.trans (hpop.trans (hlead₄.trans (hinc.trans
    (hinc'.trans hlead₅)))))), ?_, hdptr₅.trans (word_hi_lo _), ?_, ?_⟩
  · have hline : s₅.out = s₄.out := hout₅
    have hread : s₃.out = s₂.out := rfl
    rw [hline, hprints₄.out, hread, hout₂, hout₁, List.append_assoc, dumpLine]
  · have hkept : s₅.r 7 = s₂.r 7 := (congrFun hr₅ 7).trans (congrFun hprints₄.r 7)
    rw [hkept, hr₂, hport₁]
  · have hkept : s₅.lua = s₂.lua := hlua₅.trans hlua₄
    rw [hkept, h₂.lua]
    exact hregs₁

/-- The address in round `j`. -/
def phyAddr (j : ℕ) : Word := BitVec.ofNat 16 (0xa400 + 2 * j)

/-- The registers of the PHY, a line each. -/
def phyText : List Byte :=
  (List.range 0x1800).flatMap fun j =>
    dumpLine [phyAddr j, phyReg (phyAddr j) 0] ((phyocpRead (luaOfWord (phyAddr j))).setWidth 16)

/-- The switch registers after `j` rounds: one of them holds a part of the last address. -/
def phyRegs (regs : LuaInt → Option LuaInt) : ℕ → LuaInt → Option LuaInt
  | 0 => regs
  | j + 1 => Function.update regs 0x1d15
      (some (luaOfWord (ocpMsb (regWord regs 0x1d15) (phyAddr j))))

/-- Reading one more register of the PHY leaves its address in the address register. -/
lemma phyRegs_succ (regs : LuaInt → Option LuaInt) (j : ℕ) :
    Function.update (phyRegs regs j) 0x1d15
      (some (luaOfWord (ocpMsb (regWord (phyRegs regs j) 0x1d15) (phyAddr j)))) =
        phyRegs regs (j + 1) := by
  cases j with
  | zero => rfl
  | succ j =>
    have hvalue : regWord (phyRegs regs (j + 1)) 0x1d15 =
        ocpMsb (regWord regs 0x1d15) (phyAddr j) := by
      have hupdated : phyRegs regs (j + 1) 0x1d15 =
          some (luaOfWord (ocpMsb (regWord regs 0x1d15) (phyAddr j))) := by
        rw [phyRegs, Function.update_self]
      have hget : regWord (phyRegs regs (j + 1)) 0x1d15 =
          ((phyRegs regs (j + 1) 0x1d15).getD 0xdead).setWidth 16 := rfl
      rw [hget, hupdated, Option.getD_some, setWidth_luaOfWord]
    rw [hvalue, ocpMsb_ocpMsb, phyRegs, phyRegs, Function.update_idem]

/-- The addresses of the PHY start at `0xa400` and go on in steps of 2, without wrapping around. -/
lemma toNat_phyAddr {j : ℕ} (hj : j < 0x1800) : (phyAddr j).toNat = 0xa400 + 2 * j := by
  rw [phyAddr, BitVec.toNat_ofNat]
  omega

/-- The next address is 2 further on. -/
lemma phyAddr_succ (j : ℕ) : phyAddr j + 1 + 1 = phyAddr (j + 1) := by
  rw [phyAddr, phyAddr]
  bv_omega

/-- The last round is that of the address 0xd3fe. -/
lemma hi_phyAddr_eq {j : ℕ} (hj : j < 0x1800) : hi (phyAddr (j + 1)) = 0xd4 ↔ j + 1 = 0x1800 := by
  have hvalue : (phyAddr (j + 1)).toNat = 0xa400 + 2 * (j + 1) := by
    rw [phyAddr, BitVec.toNat_ofNat]
    omega
  have hconst : (0xd4 : Byte).toNat = 0xd4 := rfl
  rw [← BitVec.toNat_inj, toNat_hi, hvalue, hconst]
  omega

/-- All rounds of the second loop print the registers of the PHY in order. -/
lemma phys (s : Regs G) (k : List Slot) (n : ℕ) (hdptr : s.dptr = 0xa400) (hport : s.r 7 = 0) :
    ∃ s', Leads (step m gap) ⟨some (place gap .dumpPhyLoop), s, k, n + 8⟩
      ⟨some (place gap .dumpPhyLoop + 17), s', k, n + 8⟩ ∧ s'.out = s.out ++ phyText ∧
        s'.lua.socRegs = phyRegs s.lua.socRegs 0x1800 := by
  obtain ⟨c, hlead, s', rfl, hout, -, -, hregs⟩ := Leads.rounds (f := step m gap) (n := 0x1800)
    (I := fun j c => ∃ s', c = ⟨some (if j = 0x1800 then place gap .dumpPhyLoop + 17
        else place gap .dumpPhyLoop), s', k, n + 8⟩ ∧
      s'.out = s.out ++ (List.range j).flatMap (fun j => dumpLine
        [phyAddr j, phyReg (phyAddr j) 0] ((phyocpRead (luaOfWord (phyAddr j))).setWidth 16)) ∧
      s'.dptr = phyAddr j ∧ s'.r 7 = 0 ∧ s'.lua.socRegs = phyRegs s.lua.socRegs j)
    (fun j hj c hc => by
      obtain ⟨s₁, rfl, hout₁, hdptr₁, hport₁, hregs₁⟩ := hc
      have heven : (phyAddr j).toNat % 2 = 0 := by
        rw [toNat_phyAddr hj]
        omega
      obtain ⟨s₂, hround, hout₂, hdptr₂, hport₂, hregs₂⟩ :=
        phyRound m gap s₁ k n hdptr₁ heven hport₁
      rw [phyAddr_succ, if_congr (hi_phyAddr_eq hj) rfl rfl] at hround
      rw [if_neg (Nat.ne_of_lt hj)]
      refine ⟨_, hround, s₂, rfl, ?_, ?_, hport₂, ?_⟩
      · rw [hout₂, hout₁, List.range_succ, List.flatMap_append, List.flatMap_singleton,
          List.append_assoc]
      · rw [hdptr₂, phyAddr_succ]
      · rw [hregs₂, hregs₁, phyRegs_succ])
    ⟨s, rfl, (List.append_nil _).symm, hdptr, hport, rfl⟩
  exact ⟨s', hlead, hout, hregs⟩

/-! ## The dump -/

/-- The label `rx_loop` is behind the 17 instructions of the loop over the PHY. -/
lemma place_rxLoop : place gap .rxLoop = place gap .dumpPhyLoop + 17 := by
  have hfresh : ∀ l ∈ [HelloLabel.dumpPhyLoop, .rxLoop],
      l ∉ helloRoutines.map Prod.fst := by decide
  have hphy : (dumpListing gap).pos .dumpPhyLoop = gap.length + 12 := rfl
  have hrx : (dumpListing gap).pos .rxLoop = gap.length + 29 := rfl
  rw [place, place, helloListing, Listing.pos_append (hfresh _ (by decide)),
    Listing.pos_append (hfresh _ (by decide)), hphy, hrx, Nat.add_assoc, Nat.add_assoc]

/-- Both loops, one after the other, print the registers and then those of the PHY. -/
lemma dump (s : Regs G) (k : List Slot) (n : ℕ) (hdptr : s.dptr = 0) :
    ∃ s', Leads (step m gap) ⟨some (place gap .dumpRegisterLoop), s, k, n + 8⟩
      ⟨some (place gap .rxLoop), s', k, n + 8⟩ ∧
        s'.out = s.out ++ (registerText s.lua.socRegs ++ phyText) ∧
        s'.lua.socRegs = phyRegs (Function.update s.lua.socRegs (luaOfWord 0x1a04) (some 0))
          0x1800 := by
  obtain ⟨s₁, hlead₁, hout₁, hregs₁⟩ := registers m gap s k (n + 2) hdptr
  set s₂ : Regs G := { s₁ with
    r := Function.update s₁.r 7 0
    dph := hi 0xa400
    dpl := lo 0xa400 } with hs₂
  have hbetween : Leads (step m gap) ⟨some (place gap .dumpRegisterLoop + 10), s₁, k, n + 8⟩
      ⟨some (place gap .dumpRegisterLoop + 12), s₂, k, n + 8⟩ :=
    ((has_register gap).step m (p := 10) rfl rfl).trans
      ((has_register gap).step m (p := 11) rfl rfl)
  rw [← place_dumpPhyLoop] at hbetween
  obtain ⟨s₃, hlead₃, hout₃, hregs₃⟩ := phys m gap s₂ k n (word_hi_lo _) rfl
  rw [place_rxLoop]
  refine ⟨s₃, hlead₁.trans (hbetween.trans hlead₃), ?_, ?_⟩
  · have hkept : s₂.out = s₁.out := rfl
    rw [hout₃, hkept, hout₁, List.append_assoc]
  · have hkept : s₂.lua.socRegs = s₁.lua.socRegs := rfl
    rw [hregs₃, hkept, hregs₁]

end Dump

/-! ## The dump on the machine -/

namespace Machine

open Dump

/-- The program prints all registers and goes on to `rx_loop`, whatever stands in the gap. -/
theorem dump_prints {socRegs : LuaInt → Option LuaInt} {m : Machine G} {base : Word}
    {gap : List (Insn HelloLabel)} (hready : m.Ready) (happart : m.StackApart 10)
    (hload : LoadedOn (Modelled gap) m.readc (helloListing gap).code base)
    (hpc : m.pc = codeAddr (helloListing gap).code base
      ((helloListing gap).pos .dumpRegisterLoop)) (hdptr : m.dptr = 0) :
    ∃ m', Leads (step (Rtl8367s.script socRegs)) m m' ∧
      m'.pc = codeAddr (helloListing gap).code base ((helloListing gap).pos .rxLoop) ∧
      m'.sfr SP = m.sfr SP ∧
      m'.uartOut = m.uartOut ++ (registerText m.lua.socRegs ++ phyText) ∧
      m'.lua.socRegs = Function.update (Function.update m.lua.socRegs 0x1a04 (some 0)) 0x1d15
        (some (luaOfWord (ocpMsb (regWord m.lua.socRegs 0x1d15) 0xd3fe))) := by
  rw [← hready.regs_dptr] at hdptr
  obtain ⟨s, hlead, hout, hregs⟩ := dump m gap m.regs [.ret none] 0 hdptr
  obtain ⟨m', hreach, hreached⟩ := program_reaches hready (indaccDevice_models socRegs)
    (fun _ => happart) (by decide) (by decide) hload hpc hlead
  refine ⟨m', hreach, hreached.pc, ?_, hreached.out.trans hout, ?_⟩
  · exact hreached.sp.trans (BitVec.sub_add_cancel ..)
  · have hne : luaOfWord 0x1d15 ≠ luaOfWord 0x1a04 := by
      rw [Ne, luaOfWord_inj]
      decide
    have hvalue : regWord (Function.update m.lua.socRegs (luaOfWord 0x1a04) (some 0)) 0x1d15 =
        regWord m.lua.socRegs 0x1d15 := by
      rw [regWord, Function.update_of_ne hne, regWord]
    have hlast : phyAddr 0x17ff = 0xd3fe := rfl
    rw [hreached.lua, hregs, phyRegs, hlast, ← hvalue]
    rfl

/-- The code at address 0, without anything in the gap. -/
def helloRom : List Byte := (assemble (helloListing []).code 0).getD []

/-- About to dump the registers, of which only the first one is set. -/
def dumpingRegs : Machine G :=
  calling (initGlobals ⟨0, 0, 0, 0⟩ fun a => if a = 0 then some 0x1234 else none) helloRom
    (codeAddr (helloListing []).code 0 ((helloListing []).pos .dumpRegisterLoop))

/-- The theorem for a chip with one register set, whose dump starts with this register and then
`dead`. -/
theorem dump_prints_first : ∃ m',
    Leads (step (Rtl8367s.script fun a => if a = 0 then some 0x1234 else none)) dumpingRegs m' ∧
      m'.uartOut.take 22 = "0000:1234\r\n0001:dead\r\n".toList.map ascii ∧
      m'.lua.socRegs 0x1a04 = some 0 := by
  have hrom : assemble (helloListing []).code 0 = some helloRom := by decide +kernel
  have hready : dumpingRegs.Ready := ⟨⟨rfl, false, rfl, rfl, rfl⟩, rfl, rfl⟩
  have happart : ∀ i < 10, ∀ n, iramCell (dumpingRegs.sfr SP - 1 + BitVec.ofNat 8 i) ≠
      regCell dumpingRegs.reg n := by decide +kernel
  have hload : Loaded dumpingRegs.readc (helloListing []).code 0 :=
    ⟨helloRom, hrom, calling_bytesAt dumpingRegs.lua dumpingRegs.pc (by decide +kernel)⟩
  have hpc : dumpingRegs.pc = codeAddr (helloListing []).code 0
      ((helloListing []).pos .dumpRegisterLoop) := rfl
  have hdptr : dumpingRegs.dptr = 0 := by decide +kernel
  obtain ⟨m', hlead, -, -, hout, hregs⟩ := dump_prints hready happart (hload.on _) hpc hdptr
  have hfirst : (dumpingRegs.uartOut ++ (registerText dumpingRegs.lua.socRegs ++ phyText)).take 22 =
      "0000:1234\r\n0001:dead\r\n".toList.map ascii := by decide +kernel
  exact ⟨m', hlead, by rw [hout, hfirst], by rw [hregs]; decide +kernel⟩

end Machine

end Emu51

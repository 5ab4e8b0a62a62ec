import Emu51.Firmware.Indacc

/-!
# `reg_from_initlist`

An init list in the code memory is a list of big-endian words: for each register its address and its
value, or its address with the uppermost bit set, an and-mask and an or-mask. The list ends with a
zero word.
-/

namespace Emu51

open Chip Chip.Rtl8367s

/-! ## Init lists -/

/-- An entry of an init list. -/
inductive InitEntry where
  | write (a v : Word)
  | modify (a mask bits : Word)

namespace InitEntry

/-- The words of an entry. -/
def words : InitEntry → List Word
  | write a v => [a, v]
  | modify a mask bits => [a ||| 0x8000, mask, bits]

/-- The address can be told from the end of the list and from the mark, and it is the address of a
plain register. -/
def Valid : InitEntry → Prop
  | write a _ => 0 < a ∧ a < 0x8000 ∧ PlainReg a
  | modify a _ _ => a < 0x8000 ∧ PlainReg a

/-- What the entry makes of the switch registers. -/
def apply (regs : LuaInt → Option LuaInt) : InitEntry → LuaInt → Option LuaInt
  | write a v => Function.update regs (luaOfWord a) (some (luaOfWord v))
  | modify a mask bits => Function.update regs (luaOfWord a)
      (some ((regs (luaOfWord a)).getD 0xdead &&& luaOfWord mask ||| luaOfWord bits))

end InitEntry

/-- Words in big-endian order. -/
def bigEndian (ws : List Word) : List Byte := ws.flatMap fun w => [hi w, lo w]

/-- The bytes of an init list. -/
def initlist (entries : List InitEntry) : List Byte :=
  bigEndian (entries.flatMap InitEntry.words ++ [0])

/-- An entry of a list is in front of the others, its words with the high byte first. -/
lemma initlist_cons (i : InitEntry) (entries : List InitEntry) :
    initlist (i :: entries) = bigEndian i.words ++ initlist entries := by
  rw [initlist, List.flatMap_cons, List.append_assoc, bigEndian, List.flatMap_append]
  rfl

/-! ## Masks -/

/-- The high byte of a conjunction is the conjunction of the high bytes. -/
lemma hi_and (a b : Word) : hi (a &&& b) = hi a &&& hi b := by
  simp [hi, BitVec.ushiftRight_and_distrib]

/-- The high byte of a disjunction is the disjunction of the high bytes. -/
lemma hi_or (a b : Word) : hi (a ||| b) = hi a ||| hi b := by
  simp [hi, BitVec.ushiftRight_or_distrib]

/-- The low byte of a conjunction is the conjunction of the low bytes. -/
lemma lo_and (a b : Word) : lo (a &&& b) = lo a &&& lo b := BitVec.setWidth_and

/-- The low byte of a disjunction is the disjunction of the low bytes. -/
lemma lo_or (a b : Word) : lo (a ||| b) = lo a ||| lo b := BitVec.setWidth_or

/-- The masks are applied byte by byte, to 16 bits of the register. -/
lemma luaOfWord_masked (v : LuaInt) (mask bits : Word) :
    luaOfWord (word (hi mask &&& hi (v.setWidth 16) ||| hi bits)
      (lo mask &&& lo (v.setWidth 16) ||| lo bits)) = v &&& luaOfWord mask ||| luaOfWord bits := by
  rw [← hi_and, ← hi_or, ← lo_and, ← lo_or, word_hi_lo, luaOfWord, luaOfWord, luaOfWord,
    BitVec.setWidth_or, BitVec.setWidth_and]
  congr 1
  apply BitVec.eq_of_getLsbD_eq
  intro i hi
  by_cases h : i < 16
  · simp [h, hi, Bool.and_comm]
  · simp [h, BitVec.getLsbD_of_ge mask i (Nat.not_lt.1 h)]

/-! ## Addresses -/

/-- The mark is the uppermost bit of the upper byte, and an address has none. -/
lemma mark_of_lt {a : Word} (h : a < 0x8000) :
    hi a &&& Cpu.bitMask B_7 = 0 ∧ Cpu.withBit (hi a) (Cpu.bitMask ACC_7) false = hi a ∧
      ¬(hi a ||| 0x80) &&& Cpu.bitMask B_7 = 0 ∧
        Cpu.withBit (hi a ||| 0x80) (Cpu.bitMask ACC_7) false = hi a := by
  have hall : ∀ x : Byte, x.toNat < 0x80 → x &&& Cpu.bitMask B_7 = 0 ∧
      Cpu.withBit x (Cpu.bitMask ACC_7) false = x ∧ ¬(x ||| 0x80) &&& Cpu.bitMask B_7 = 0 ∧
        Cpu.withBit (x ||| 0x80) (Cpu.bitMask ACC_7) false = x := by decide
  refine hall _ ?_
  have ha : a.toNat < 0x8000 := h
  rw [toNat_hi]
  omega

/-- Only the end of a list has a zero word. -/
lemma lo_or_hi_eq_zero {a : Word} : lo a ||| hi a = 0 ↔ a = 0 := by
  constructor
  · intro hor
    obtain ⟨hlow, hhigh⟩ := BitVec.or_eq_zero_iff.1 hor
    rw [← word_hi_lo a, hlow, hhigh]
    rfl
  · rintro rfl
    rfl

/-- Where words lie with their high bytes first, the first word is read from its two bytes. -/
lemma BytesAt.word {readc : Word → Byte} {w x : Word} {ws : List Word}
    (h : BytesAt readc w (bigEndian (x :: ws))) :
    readc w = hi x ∧ readc (w + 1) = lo x ∧ BytesAt readc (w + 1 + 1) (bigEndian ws) := by
  have hcons : BytesAt readc w (hi x :: lo x :: bigEndian ws) := h
  exact ⟨hcons.zero, hcons.cons.2.cons⟩

/-! ## Blocks of the routine -/

namespace Switch

variable (m : Machine G) (w : Bool) (s : Regs G) (k : List Slot) (n : ℕ)

/-- `clr a`, `movc a, @a+dptr` and `inc dptr` fetch a byte. -/
lemma nextByte {p : ℕ} (hclr : regListing.code[p]? = some (.onA .clr))
    (hmovc : regListing.code[p + 1]? = some .movcA)
    (hinc : regListing.code[p + 2]? = some .incDptr) :
    ∃ s', Leads (step m w) ⟨some p, s, k, n⟩ ⟨some (p + 3), s', k, n⟩ ∧
      s'.acc = m.readc s.dptr ∧ s'.b = s.b ∧ Leaves s (s.dptr + 1) s.lua s' := by
  have hinsn : ∀ {q : ℕ} {i : Insn ℕ} (t : Regs G), regListing.code[q]? = some i →
      step m w ⟨some q, t, k, n⟩ =
        Config.exec (m.scope indaccDevice w 4) ⟨some q, t, k, n⟩ (q + 1) i := by
    intro q i t hi
    rw [step, Config.step]
    dsimp only
    rw [hi]
  exact ⟨_, (Leads.single (hinsn s hclr)).trans ((Leads.single (hinsn _ hmovc)).trans
    (.single (hinsn _ hinc))), congrArg m.readc (BitVec.add_zero _), rfl, word_hi_lo _, rfl, rfl⟩

/-- A byte is fetched, and the instructions after that make `f` of it. -/
lemma nextByteInto {p d c : ℕ} {f : Byte → G → G}
    (hclr : regListing.code[p]? = some (.onA .clr))
    (hmovc : regListing.code[p + 1]? = some .movcA)
    (hinc : regListing.code[p + 2]? = some .incDptr)
    (hstore : ∀ t : Regs G, ∃ y, stepIter (step m w) c ⟨some (p + 3), t, k, n⟩ =
      some ⟨some d, { t with acc := y, lua := f t.acc t.lua }, k, n⟩) :
    ∃ s', Leads (step m w) ⟨some p, s, k, n⟩ ⟨some d, s', k, n⟩ ∧
      Leaves s (s.dptr + 1) (f (m.readc s.dptr) s.lua) s' := by
  obtain ⟨s₁, hlead, hacc, -, hleaves⟩ := nextByte m w s k n hclr hmovc hinc
  obtain ⟨y, hy⟩ := hstore s₁
  refine ⟨_, hlead.trans (.of_iter hy), hleaves.dptr, hleaves.r, ?_⟩
  dsimp only
  rw [hacc, hleaves.lua]

/-- The address of an entry goes into the address registers without its uppermost bit, which decides
what follows. -/
lemma initlistAddr : ∃ s', Leads (step m w) ⟨place .regFromInitlist, s, k, n⟩
    ⟨some (if m.readc s.dptr &&& Cpu.bitMask B_7 ≠ 0 then regListing.pos .regFromInitlistRmw
      else regListing.pos .regFromInitlist + 11), s', k, n⟩ ∧
        s'.acc = m.readc (s.dptr + 1) ∧ Leaves s (s.dptr + 1 + 1)
          (withAddr (Cpu.withBit (m.readc s.dptr) (Cpu.bitMask ACC_7) false)
            (m.readc (s.dptr + 1)) s.lua) s' := by
  obtain ⟨s₁, hlead₁, hacc₁, -, h₁⟩ :=
    nextByte m w s k n (p := regListing.pos .regFromInitlist) rfl rfl rfl
  have hhigh : ∀ t : Regs G, stepIter (step m w) 3
      ⟨some (regListing.pos .regFromInitlist + 3), t, k, n⟩ =
        some ⟨some (regListing.pos .regFromInitlist + 6), { t with
          acc := Cpu.withBit t.acc (Cpu.bitMask ACC_7) false
          b := t.acc
          lua := { t.lua with
            indaccAddrH := luaOfByte (Cpu.withBit t.acc (Cpu.bitMask ACC_7) false) } }, k, n⟩ :=
    fun _ => rfl
  obtain ⟨s₂, hlead₂, hacc₂, hb₂, h₂⟩ := nextByte m w { s₁ with
      acc := Cpu.withBit s₁.acc (Cpu.bitMask ACC_7) false
      b := s₁.acc
      lua := { s₁.lua with
        indaccAddrH := luaOfByte (Cpu.withBit s₁.acc (Cpu.bitMask ACC_7) false) } } k n
    (p := regListing.pos .regFromInitlist + 6) rfl rfl rfl
  have hlow : ∀ t : Regs G, stepIter (step m w) 2
      ⟨some (regListing.pos .regFromInitlist + 9), t, k, n⟩ =
        some ⟨some (if t.b &&& Cpu.bitMask B_7 ≠ 0 then regListing.pos .regFromInitlistRmw
          else regListing.pos .regFromInitlist + 11),
          { t with lua := { t.lua with indaccAddrL := luaOfByte t.acc } }, k, n⟩ := fun _ => rfl
  have hacc : s₂.acc = m.readc (s.dptr + 1) := hacc₂.trans (congrArg m.readc h₁.dptr)
  have hmark : s₂.b = m.readc s.dptr := hb₂.trans hacc₁
  have hjump := hlow s₂
  rw [hmark] at hjump
  refine ⟨_, hlead₁.trans ((Leads.of_iter (hhigh s₁)).trans (hlead₂.trans (.of_iter hjump))), hacc,
    ?_, h₂.r.trans h₁.r, ?_⟩
  · exact h₂.dptr.trans (congrArg (· + 1) h₁.dptr)
  · dsimp only
    rw [h₂.lua, hacc₁, hacc, h₁.lua]
    rfl

/-- The value of an entry goes into the data registers. -/
lemma initlistData : ∃ s',
    Leads (step m w) ⟨some (regListing.pos .regFromInitlist + 13), s, k, n⟩
      ⟨place .regFromInitlistWrite, s', k, n⟩ ∧ Leaves s (s.dptr + 1 + 1)
        (withDataL (m.readc (s.dptr + 1)) (withDataH (m.readc s.dptr) s.lua)) s' := by
  obtain ⟨s₁, hlead₁, h₁⟩ := nextByteInto m w s k n
    (p := regListing.pos .regFromInitlist + 13) (d := regListing.pos .regFromInitlist + 17) (c := 1)
    (f := withDataH) rfl rfl rfl fun t => ⟨t.acc, rfl⟩
  obtain ⟨s₂, hlead₂, h₂⟩ := nextByteInto m w s₁ k n
    (p := regListing.pos .regFromInitlist + 17) (d := regListing.pos .regFromInitlistWrite) (c := 1)
    (f := withDataL) rfl rfl rfl fun t => ⟨t.acc, rfl⟩
  rw [h₁.dptr, h₁.lua] at h₂
  exact ⟨s₂, hlead₁.trans hlead₂, h₁.trans h₂⟩

/-- The masks of an entry are combined with the register in the data registers. -/
lemma initlistMasks : ∃ s',
    Leads (step m w) ⟨some (regListing.pos .regFromInitlistRmw + 2), s, k, n⟩
      ⟨place .regFromInitlistWrite, s', k, n⟩ ∧ Leaves s (s.dptr + 1 + 1 + 1 + 1)
        (withDataL (m.readc (s.dptr + 1) &&& byteOfLua s.lua.indacc.rdataL |||
          m.readc (s.dptr + 1 + 1 + 1))
            (withDataH (m.readc s.dptr &&& byteOfLua s.lua.indacc.rdataH |||
              m.readc (s.dptr + 1 + 1)) s.lua)) s' := by
  obtain ⟨s₁, hlead₁, h₁⟩ := nextByteInto m w s k n
    (p := regListing.pos .regFromInitlistRmw + 2) (d := regListing.pos .regFromInitlistRmw + 7)
    (c := 2) (f := fun x g => withDataH (x &&& byteOfLua g.indacc.rdataH) g) rfl rfl rfl
    fun _ => ⟨_, rfl⟩
  obtain ⟨s₂, hlead₂, h₂⟩ := nextByteInto m w s₁ k n
    (p := regListing.pos .regFromInitlistRmw + 7) (d := regListing.pos .regFromInitlistRmw + 12)
    (c := 2) (f := fun x g => withDataL (x &&& byteOfLua g.indacc.rdataL) g) rfl rfl rfl
    fun _ => ⟨_, rfl⟩
  rw [h₁.dptr, h₁.lua] at h₂
  obtain ⟨s₃, hlead₃, h₃⟩ := nextByteInto m w s₂ k n
    (p := regListing.pos .regFromInitlistRmw + 12) (d := regListing.pos .regFromInitlistRmw + 17)
    (c := 2) (f := fun x g => withDataH (x ||| byteOfLua g.indacc.wdataH) g) rfl rfl rfl
    fun _ => ⟨_, rfl⟩
  rw [h₂.dptr, h₂.lua] at h₃
  obtain ⟨s₄, hlead₄, h₄⟩ := nextByteInto m w s₃ k n
    (p := regListing.pos .regFromInitlistRmw + 17) (d := regListing.pos .regFromInitlistRmw + 22)
    (c := 2) (f := fun x g => withDataL (x ||| byteOfLua g.indacc.wdataL) g) rfl rfl rfl
    fun _ => ⟨_, rfl⟩
  rw [h₃.dptr, h₃.lua] at h₄
  have hjump : stepIter (step m w) 1 ⟨some (regListing.pos .regFromInitlistRmw + 22), s₄, k, n⟩ =
      some ⟨place .regFromInitlistWrite, s₄, k, n⟩ := rfl
  refine ⟨s₄, hlead₁.trans (hlead₂.trans (hlead₃.trans (hlead₄.trans (.of_iter hjump)))),
    h₄.dptr, ((h₁.trans h₂).trans (h₃.trans h₄)).r, ?_⟩
  rw [h₄.lua]
  simp only [withDataH, withDataL, byteOfLua_luaOfByte, BitVec.or_comm (m.readc _)]

/-- A command to the switch is carried out at once, and the wait after it ends in its first
round. -/
lemma command {p : ℕ} {x : Byte} {g : G}
    (hinsn : regListing.code[p]? = some (.movDirImm INDACC_CMD x))
    (hcall : regListing.code[p + 1]? = some (.acall (regListing.pos .regStatusLoop)))
    (hg : indaccCommand x s.lua = some g) :
    ∃ s', Leads (step m w) ⟨some p, s, k, n + 2⟩ ⟨some (p + 2), s', k, n + 2⟩ ∧
      Leaves s s.dptr g s' := by
  have hacall : step m w ⟨some (p + 1), { s with lua := g }, k, n + 2⟩ =
      some ⟨place .regStatusLoop, { s with lua := g }, .ret (some (p + 2)) :: k, n⟩ := by
    rw [step, Config.step]
    dsimp only
    rw [hcall]
    rfl
  obtain ⟨s', hloop, hleaves⟩ := regStatusLoop m w { s with lua := g } (some (p + 2)) k n
  exact ⟨s', (Leads.single (step_command m w s k (n + 2) hinsn hg)).trans
    ((Leads.single hacall).trans hloop), hleaves.dptr, hleaves.r, hleaves.lua⟩

/-- The two data registers are stored in the switch register that is addressed. -/
lemma initlistWrite {a : Word} (haddr : indaccAddr s.lua = luaOfWord a) :
    ∃ s', Leads (step m w) ⟨place .regFromInitlistWrite, s, k, n + 2⟩
      ⟨place .regFromInitlist, s', k, n + 2⟩ ∧
        Leaves s s.dptr (withReg (luaOfWord a) (indaccData s.lua) s.lua) s' := by
  obtain ⟨s', hlead, hleaves⟩ := command m w s k n (p := regListing.pos .regFromInitlistWrite) rfl
    rfl (indaccCommand_write haddr)
  have hjump : stepIter (step m w) 1
      ⟨some (regListing.pos .regFromInitlistWrite + 2), s', k, n + 2⟩ =
        some ⟨place .regFromInitlist, s', k, n + 2⟩ := rfl
  exact ⟨s', hlead.trans (.of_iter hjump), hleaves⟩

/-- After an address without a mark the value comes next, and a zero ends the list. -/
lemma initlistUnmarked {a : Word} (ha : a < 0x8000) (hhigh : m.readc s.dptr = hi a)
    (hlow : m.readc (s.dptr + 1) = lo a) :
    ∃ s', Leads (step m w) ⟨place .regFromInitlist, s, k, n⟩
      ⟨some (if a = 0 then regListing.pos .regFromInitlistDone
        else regListing.pos .regFromInitlist + 13), s', k, n⟩ ∧
          Leaves s (s.dptr + 1 + 1) (withAddr (hi a) (lo a) s.lua) s' := by
  obtain ⟨s₁, hlead, hacc, hleaves⟩ := initlistAddr m w s k n
  rw [hhigh, if_neg (not_not.2 (mark_of_lt ha).1)] at hlead
  rw [hhigh, hlow, (mark_of_lt ha).2.1] at hleaves
  have htest : stepIter (step m w) 2 ⟨some (regListing.pos .regFromInitlist + 11), s₁, k, n⟩ =
      some ⟨some (if s₁.acc ||| byteOfLua s₁.lua.indaccAddrH == 0 then
        regListing.pos .regFromInitlistDone else regListing.pos .regFromInitlist + 13),
        { s₁ with acc := s₁.acc ||| byteOfLua s₁.lua.indaccAddrH }, k, n⟩ := rfl
  have hor : s₁.acc ||| byteOfLua s₁.lua.indaccAddrH = lo a ||| hi a := by
    rw [hacc, hlow, hleaves.lua]
    exact congrArg (lo a ||| ·) (byteOfLua_luaOfByte _)
  simp only [hor, beq_iff_eq, lo_or_hi_eq_zero] at htest
  exact ⟨_, hlead.trans (.of_iter htest), hleaves.dptr, hleaves.r, hleaves.lua⟩

/-- A marked address says that the masks come next, before the value to set. -/
lemma initlistMarked {a : Word} (ha : a < 0x8000)
    (hhigh : m.readc s.dptr = hi (a ||| 0x8000)) (hlow : m.readc (s.dptr + 1) = lo (a ||| 0x8000)) :
    ∃ s', Leads (step m w) ⟨place .regFromInitlist, s, k, n⟩ ⟨place .regFromInitlistRmw, s', k, n⟩ ∧
      Leaves s (s.dptr + 1 + 1) (withAddr (hi a) (lo a) s.lua) s' := by
  have hhi : hi (a ||| 0x8000) = hi a ||| 0x80 := hi_or ..
  have hlo : lo (a ||| 0x8000) = lo a := by
    rw [lo_or]
    exact BitVec.or_zero
  obtain ⟨s₁, hlead, -, hleaves⟩ := initlistAddr m w s k n
  rw [hhigh, hhi, if_pos (mark_of_lt ha).2.2.1] at hlead
  rw [hhigh, hlow, hhi, hlo, (mark_of_lt ha).2.2.2] at hleaves
  exact ⟨s₁, hlead, hleaves⟩

/-! ## The list -/

/-- One entry of the list is applied to its register, and `DPTR` is behind it then. -/
lemma initlistEntry (i : InitEntry) (hvalid : i.Valid)
    (hbytes : BytesAt m.readc s.dptr (bigEndian i.words)) :
    ∃ s', Leads (step m w) ⟨place .regFromInitlist, s, k, n + 2⟩
      ⟨place .regFromInitlist, s', k, n + 2⟩ ∧
        s'.dptr = s.dptr + BitVec.ofNat 16 (bigEndian i.words).length ∧
        s'.lua.socRegs = i.apply s.lua.socRegs := by
  cases i with
  | write a v =>
    obtain ⟨hpos, ha, -⟩ := hvalid
    obtain ⟨ha₀, ha₁, hrest⟩ := hbytes.word
    obtain ⟨hv₀, hv₁, -⟩ := hrest.word
    have hne : a ≠ 0 := by
      rintro rfl
      exact absurd hpos (by decide)
    obtain ⟨s₁, hlead₁, h₁⟩ := initlistUnmarked m w s k (n + 2) ha ha₀ ha₁
    rw [if_neg hne] at hlead₁
    obtain ⟨s₂, hlead₂, h₂⟩ := initlistData m w s₁ k (n + 2)
    rw [h₁.dptr, h₁.lua, hv₀, hv₁] at h₂
    have haddr : indaccAddr s₂.lua = luaOfWord a := by
      rw [h₂.lua]
      exact luaOfWord_halves a
    have hdata : indaccData s₂.lua = luaOfWord v := by
      rw [h₂.lua]
      exact luaOfWord_halves v
    obtain ⟨s₃, hlead₃, h₃⟩ := initlistWrite m w s₂ k n haddr
    rw [hdata, h₂.dptr, h₂.lua] at h₃
    refine ⟨s₃, hlead₁.trans (hlead₂.trans hlead₃), ?_, ?_⟩
    · rw [h₃.dptr]
      simp only [BitVec.add_assoc]
      rfl
    · rw [h₃.lua]
      rfl
  | modify a mask bits =>
    obtain ⟨ha, hplain⟩ := hvalid
    obtain ⟨ha₀, ha₁, hrest⟩ := hbytes.word
    obtain ⟨hm₀, hm₁, hrest⟩ := hrest.word
    obtain ⟨hb₀, hb₁, -⟩ := hrest.word
    set v := (s.lua.socRegs (luaOfWord a)).getD 0xdead with hv
    obtain ⟨s₁, hlead₁, h₁⟩ := initlistMarked m w s k (n + 2) ha ha₀ ha₁
    have haddr₁ : indaccAddr s₁.lua = luaOfWord a := by
      rw [h₁.lua]
      exact luaOfWord_halves a
    obtain ⟨s₂, hlead₂, h₂⟩ := command m w s₁ k n (p := regListing.pos .regFromInitlistRmw) rfl rfl
      (indaccCommand_read haddr₁ hplain)
    have hregs : s₁.lua.socRegs = s.lua.socRegs := by
      rw [h₁.lua]
      rfl
    rw [h₁.dptr, hregs, ← hv, h₁.lua] at h₂
    obtain ⟨s₃, hlead₃, h₃⟩ := initlistMasks m w s₂ k (n + 2)
    rw [h₂.dptr, hm₀, hm₁, hb₀, hb₁, h₂.lua] at h₃
    have haddr₃ : indaccAddr s₃.lua = luaOfWord a := by
      rw [h₃.lua]
      exact luaOfWord_halves a
    have hdata : indaccData s₃.lua = v &&& luaOfWord mask ||| luaOfWord bits := by
      rw [h₃.lua, ← luaOfWord_masked, ← byteOfLua_high, ← byteOfLua_low, ← luaOfWord_word]
      rfl
    obtain ⟨s₄, hlead₄, h₄⟩ := initlistWrite m w s₃ k n haddr₃
    rw [hdata, h₃.dptr, h₃.lua] at h₄
    refine ⟨s₄, hlead₁.trans (hlead₂.trans (hlead₃.trans hlead₄)), ?_, ?_⟩
    · rw [h₄.dptr]
      simp only [BitVec.add_assoc]
      rfl
    · rw [h₄.lua]
      rfl

/-- The routine applies all the entries, one after the other, and stops at the end of the list. -/
lemma regFromInitlist (entries : List InitEntry) (hvalid : ∀ i ∈ entries, i.Valid)
    (hlist : BytesAt m.readc s.dptr (initlist entries)) (q : Option ℕ) :
    ∃ s', Leads (step m w) ⟨place .regFromInitlist, s, .ret q :: k, n + 2⟩ ⟨q, s', k, n + 4⟩ ∧
      s'.dptr = s.dptr + BitVec.ofNat 16 (initlist entries).length ∧
      s'.lua.socRegs = entries.foldl InitEntry.apply s.lua.socRegs := by
  induction entries generalizing s with
  | nil =>
    have hend : BytesAt m.readc s.dptr (bigEndian [0]) := hlist
    obtain ⟨hhigh, hlow, -⟩ := hend.word
    obtain ⟨s', hlead, hleaves⟩ := initlistUnmarked m w s (.ret q :: k) (n + 2) (a := 0) (by decide)
      hhigh hlow
    rw [if_pos rfl] at hlead
    have hret : stepIter (step m w) 1 ⟨place .regFromInitlistDone, s', .ret q :: k, n + 2⟩ =
        some ⟨q, s', k, n + 4⟩ := rfl
    refine ⟨s', hlead.trans (.of_iter hret), ?_, ?_⟩
    · rw [hleaves.dptr, BitVec.add_assoc]
      rfl
    · rw [hleaves.lua]
      rfl
  | cons i entries ih =>
    rw [initlist_cons] at hlist
    obtain ⟨hentry, hrest⟩ := hlist.append
    obtain ⟨s₁, hlead₁, hdptr₁, hregs₁⟩ := initlistEntry m w s (.ret q :: k) n i
      (hvalid i List.mem_cons_self) hentry
    rw [← hdptr₁] at hrest
    obtain ⟨s', hlead, hdptr, hregs⟩ := ih s₁ (fun j hj => hvalid j (List.mem_cons_of_mem i hj))
      hrest
    refine ⟨s', hlead₁.trans hlead, ?_, ?_⟩
    · rw [hdptr, hdptr₁, initlist_cons, List.length_append, BitVec.ofNat_add, BitVec.add_assoc]
    · rw [hregs, hregs₁, List.foldl_cons]

end Switch

/-! ## The routine on the machine -/

namespace Machine

/-- `reg_from_initlist` carries out the list `DPTR` points at, wherever the code has been placed,
and returns with `DPTR` behind the list. -/
theorem regFromInitlist_applies {socRegs : LuaInt → Option LuaInt} {m : Machine G} {base : Word}
    {entries : List InitEntry} (hready : m.Ready) (hload : Loaded m.readc regListing.code base)
    (hpc : m.pc = codeAddr regListing.code base (regListing.pos .regFromInitlist))
    (hvalid : ∀ i ∈ entries, i.Valid) (hlist : BytesAt m.readc m.dptr (initlist entries)) :
    ∃ m', Leads (step (Rtl8367s.script socRegs)) m m' ∧ m'.pc = m.caller ∧
      m'.sfr SP = m.sfr SP - 2 ∧
      m'.lua.socRegs = entries.foldl InitEntry.apply m.lua.socRegs ∧
      m'.dptr = m.dptr + BitVec.ofNat 16 (initlist entries).length := by
  have hpair := hready.regs_dptr
  rw [← hpair] at hlist
  obtain ⟨s, hlead, hdptr, hregs⟩ := Switch.regFromInitlist m false m.regs [] 0 entries hvalid hlist
    none
  obtain ⟨m', hreach, hreturned⟩ := routine_returns hready (indaccDevice_models socRegs)
    (fun h => absurd h Bool.false_ne_true) (by decide) (by decide) hload hpc hlead
  refine ⟨m', hreach, hreturned.pc, hreturned.sp, ?_, ?_⟩
  · rw [hreturned.lua, hregs]
    rfl
  · rw [hreturned.dptr, hdptr, hpair]

/-- The code at address 0. -/
def regRom : List Byte := (assemble regListing.code 0).getD []

/-- An init list with one entry of each kind. -/
def smallInitlist : List InitEntry := [.write 0x0018 0x1234, .modify 0x1303 0xff00 0x0056]

/-- About to carry out that list, which is behind the code, with no switch register set. -/
def initializing : Machine G :=
  ((calling (initGlobals ⟨0, 0, 0, 0⟩ fun _ => none) (regRom ++ initlist smallInitlist)
    (codeAddr regListing.code 0 (regListing.pos .regFromInitlist))).setSfr DPH0
      (hi (BitVec.ofNat 16 regRom.length))).setSfr DPL0 (lo (BitVec.ofNat 16 regRom.length))

/-- The theorem for a list with a plain write and one that changes some bits of a register. -/
theorem regFromInitlist_applies_small : ∃ m',
    Leads (step (Rtl8367s.script fun _ => none)) initializing m' ∧
      m'.lua.socRegs 0x0018 = some 0x1234 ∧ m'.lua.socRegs 0x1303 = some 0xde56 := by
  have hrom : assemble regListing.code 0 = some regRom := by decide +kernel
  have hready : initializing.Ready := ⟨⟨rfl, false, rfl, rfl, rfl⟩, rfl, rfl⟩
  have hbytes : BytesAt initializing.readc 0 (regRom ++ initlist smallInitlist) :=
    calling_bytesAt initializing.lua initializing.pc (by decide +kernel)
  obtain ⟨hcode, hlist⟩ := hbytes.append
  have hdptr : 0 + BitVec.ofNat 16 regRom.length = initializing.dptr := by decide +kernel
  rw [hdptr] at hlist
  have hvalid : ∀ i ∈ smallInitlist, i.Valid := by
    rintro i (_ | ⟨_, _ | ⟨_, ⟨⟩⟩⟩)
    · exact ⟨by decide, by decide, .inl (by decide), by decide⟩
    · exact ⟨by decide, .inl (by decide), by decide⟩
  obtain ⟨m', hlead, -, -, hregs, -⟩ :=
    regFromInitlist_applies hready ⟨regRom, hrom, hcode⟩ rfl hvalid hlist
  exact ⟨m', hlead, by rw [hregs]; rfl, by rw [hregs]; rfl⟩

end Machine

end Emu51

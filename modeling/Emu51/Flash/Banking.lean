import Emu51.Flash.CodeMem
import Emu51.Flash.Unpack
import Emu51.Library.Transition
import Emu51.Machine.Setup

/-!
# Code banking

The image unpacked by `unpackrtl.py`, loaded by `main` and mapped by a chip script: what the CPU
fetches above `0x4000` is the 48 KiB of the image that belong to the bank written to `CODE_BANK`
last.
-/

namespace Emu51

open Chip

/-! ## Writes to `CODE_BANK` -/

/-- The value an operation writes to `CODE_BANK`. -/
def CpuOp.codeBank : CpuOp → Option Byte
  | .writed a v => if a = CODE_BANK then some v else none
  | _ => none

namespace Machine

variable {σ : Type}

/-- The values an event writes to `CODE_BANK`. -/
def codeBanks (script : Script σ) (m : Machine σ) : Event → List Byte
  | .insn =>
      match nextop script m with
      | none => []
      | some (op, m') => ((insn op).trace (cpuExec script) m').filterMap fun e => e.1.codeBank
  | .poke addr v => if addr = CODE_BANK then [v] else []
  | .uart _ => []

/-- The history of `CODE_BANK` in a run. -/
def bankHistory (script : Script σ) (tr : List (Machine σ × Event)) : List Byte :=
  tr.flatMap fun e => codeBanks script e.1 e.2

/-- Code memory after the given writes to `CODE_BANK`, with the trap table of `sfr_init`. -/
structure Banked (file banks : List Byte) (m : Machine σ) : Prop where
  mem : CodeMem file banks m
  ramsfrtrap : m.ramsfrtrap = sfrInitTrap

variable {chip : Chip} {file banks : List Byte} {m m' : Machine (Globals chip.Indacc)}

/-- Hooks keep code memory as it is, except that of `CODE_BANK`. -/
lemma codeMem_keeps (chip : Chip) (file banks : List Byte) :
    chip.script.Keeps (CodeMem file banks) fun a _ => a ≠ CODE_BANK :=
  chip.keeps_of_ordinary fun _ _ _ _ ho hoff hm he => hm.luaExec ho hoff he

/-- A write to `CODE_BANK` succeeds and makes its value the bank chosen last. -/
theorem writed_codeBank (h : Banked file banks m) (k : Byte) :
    ∃ m', writed chip.script CODE_BANK k m = some m' ∧ Banked file (banks ++ [k]) m' := by
  have htrap : m.ramsfrtrap CODE_BANK = true := by
    rw [h.ramsfrtrap]
    decide
  have hmem : CodeMem file banks (m.setSfr CODE_BANK k) :=
    codeMem_isOuter _ _ (m.sameOutside_setSfr _ _) h.mem
  have hwrite := writed_of_hook (v := k) htrap (by decide) (by decide) (by decide) (by decide)
    (ramdHooks_codeBank chip m.lua)
  rw [run_sfrCodeBank hmem, Option.map_some] at hwrite
  refine ⟨_, hwrite, ?_, ?_⟩
  · obtain ⟨l0, l1, hl⟩ := sfrNotify_eq ((((m.setSfr CODE_BANK k).setPcx k).mapRom 0 0x40 0xc0
      (0x40 + k.toNat * 0x100)).setSfr CODE_BANK (byteOfLua (luaOfByte k))) CODE_BANK
    rw [hl]
    refine codeMem_isOuter _ _ ?_ (hmem.mapRom k)
    constructor <;> rfl
  · exact (writed_effects (pokesOnly_true _) trivial hwrite).fixed.ramsfrtrap.trans h.ramsfrtrap

/-- A write to any other register leaves the banks of code as they are. -/
lemma Banked.writed (h : Banked file banks m) {a v : Byte} (ha : a ≠ CODE_BANK)
    (hw : writed chip.script a v m = some m') : Banked file banks m' where
  mem := writed_keeps codeMem_isOuter (codeMem_keeps chip file banks) ha h.mem hw
  ramsfrtrap := (writed_effects (pokesOnly_true _) trivial hw).fixed.ramsfrtrap.trans h.ramsfrtrap

/-- A read of any register leaves the banks of code as they are. -/
lemma Banked.readd (h : Banked file banks m) {a : Byte} {y : Byte × Machine (Globals chip.Indacc)}
    (hr : readd chip.script a m = some y) : Banked file banks y.2 where
  mem := readd_keeps codeMem_isOuter (codeMem_keeps chip file banks) h.mem hr
  ramsfrtrap := (readd_effects (pokesOnly_true _) hr).fixed.ramsfrtrap.trans h.ramsfrtrap

/-- What one operation does to code memory is what its write says, if that is to `CODE_BANK`. -/
lemma cpuExec_banked {o : CpuOp} {r : o.Res} (h : Banked file banks m)
    (he : cpuExec chip.script o m = some (r, m')) :
    Banked file (banks ++ o.codeBank.toList) m' := by
  have htrap : m'.ramsfrtrap = sfrInitTrap := (cpuExec_setup he).ramsfrtrap.trans h.ramsfrtrap
  have hother : (∀ a v, o = .writed a v → a ≠ CODE_BANK) → Banked file banks m' := fun ho =>
    ⟨cpuExec_keeps codeMem_isOuter (codeMem_keeps chip file banks) (fun _ a v hm => hm.writex a v)
      ho h.mem he, htrap⟩
  cases o with
  | writed a v =>
    rw [CpuOp.codeBank]
    split_ifs with ha
    · subst ha
      obtain ⟨m₁, hm₁, heq⟩ := Option.map_eq_some_iff.1 he
      obtain ⟨-, rfl⟩ := Prod.mk.inj heq
      obtain ⟨m₂, hm₂, hbanked⟩ := writed_codeBank h v
      obtain rfl := Option.some.inj (hm₁.symm.trans hm₂)
      exact hbanked
    · rw [Option.toList_none, List.append_nil]
      refine hother fun a' v' heq => ?_
      obtain ⟨rfl, -⟩ := CpuOp.writed.inj heq
      exact ha
  | _ =>
    change Banked file (banks ++ []) m'
    rw [List.append_nil]
    exact hother fun _ _ heq => nomatch heq

/-- What one event does to code memory is what its writes to `CODE_BANK` say. -/
theorem happen_banked {e : Event} (h : Banked file banks m)
    (he : Happens chip.script m e m') : Banked file (banks ++ codeBanks chip.script m e) m' := by
  have htrap : m'.ramsfrtrap = sfrInitTrap := (happen_setup he).ramsfrtrap.trans h.ramsfrtrap
  cases e with
  | insn =>
    obtain ⟨op, m₁, hnext, hexec⟩ := step_eq_some he
    have hm₁ : Banked file banks m₁ :=
      ⟨nextop_keeps codeMem_isOuter (codeMem_keeps chip file banks) (fun _ a v hm => hm.writex a v)
        h.mem hnext, (nextop_setup hnext).ramsfrtrap.trans h.ramsfrtrap⟩
    obtain ⟨⟨u, m₂⟩, hrun, rfl⟩ := Option.map_eq_some_iff.1 hexec
    have hbanks : codeBanks chip.script m .insn =
        ((insn op).trace (cpuExec chip.script) m₁).filterMap fun e => e.1.codeBank := by
      rw [codeBanks, hnext]
    rw [hbanks]
    exact Prog.run_logged (I := Banked file) (fun _ _ _ _ _ hs he => cpuExec_banked hs he) hm₁ hrun
  | poke addr v =>
    rw [codeBanks]
    split_ifs with ha
    · subst ha
      obtain ⟨m₁, hm₁, hbanked⟩ := writed_codeBank h v
      obtain rfl := Option.some.inj (he.symm.trans hm₁)
      exact hbanked
    · rw [List.append_nil]
      exact h.writed ha he
  | uart d =>
    obtain rfl := Option.some.inj he
    rw [codeBanks, List.append_nil]
    exact ⟨codeMem_isOuter _ _ (m.sameOutside_uartListener d) h.mem, htrap⟩

/-! ## Start -/

/-- `sfr_init` and the interrupts leave alone what lies outside the CPU. -/
lemma mainInit_outside {σ : Type} {script : Script σ} {heap : ℕ → Buffer} {m : Machine σ}
    (h : mainInit script heap file = some m) :
    SameOutside ((static script.globals heap).loadRom file) m := by
  have hinit : mainInit script heap file = some _ := rfl
  obtain rfl := Option.some.inj (hinit.symm.trans h)
  constructor <;> rfl

/-- The file is in `rom`, the buffer with number 0, from its beginning on. -/
lemma loadRom_mem {σ : Type} (m : Machine σ) (file : List Byte) (i : ℕ) {b : Byte}
    (hb : file[i]? = some b) : ((m.loadRom file).heap m.nbuf).mem i = b := by
  have hi : i < file.length := (List.getElem?_eq_some_iff.1 hb).1
  have hin : (0 : ℤ) ≤ i ∧ (i : ℤ) < file.length := by omega
  unfold loadRom
  dsimp only
  rw [Function.update_self]
  dsimp only
  rw [if_pos hin, Int.toNat_natCast, List.getD_eq_getElem?_getD, hb, Option.getD_some]

/-- Memory as the calls at the end of a script map it. -/
def mapped {σ : Type} (m : Machine σ) : Machine σ :=
  ((m.createBuffer "sram" 0xc000).mapRom 0 0 0x40 0).mapXram 1 0 0xc0 0

/-- The three calls at the end of the scripts succeed and leave the machine that `mapped` says. -/
lemma run_mapMemory_eq {ρ : Type} {m : Machine (Globals ρ)} (bus : Bus (Globals ρ))
    (hnbuf : m.nbuf = 1) (hname : (m.heap 0).name = "rom") :
    mapMemory.run (luaExec bus) m = some ((), m.mapped) := by
  have hnbuf' : (m.createBuffer "sram" 0xc000).nbuf = 2 := congrArg (· + 1) hnbuf
  have hsram : ((m.createBuffer "sram" 0xc000).heap 1).name = "sram" := by
    rw [createBuffer_heap, hnbuf, Function.update_self]
  have hrom : ((m.createBuffer "sram" 0xc000).heap 0).name = "rom" := by
    rw [createBuffer_heap, hnbuf, Function.update_of_ne Nat.zero_ne_one, hname]
  have hmap : luaExec bus (.mapRom "rom" 0x00 0x40 0) (m.createBuffer "sram" 0xc000) =
      some ((), (m.createBuffer "sram" 0xc000).mapRom 0 0 0x40 0) := by
    have hbuf : (m.createBuffer "sram" 0xc000).getBuffer "rom" = some 0 := by
      rw [getBuffer, hnbuf', findBuffer, if_neg (by rw [hsram]; decide), findBuffer, if_pos hrom]
    rw [luaExec, hbuf]
    rfl
  have hmapx : luaExec bus (.mapXram "sram" 0x00 0xc0 0 0)
      ((m.createBuffer "sram" 0xc000).mapRom 0 0 0x40 0) = some ((), m.mapped) := by
    have hbuf : ((m.createBuffer "sram" 0xc000).mapRom 0 0 0x40 0).getBuffer "sram" = some 1 := by
      change findBuffer (m.createBuffer "sram" 0xc000).heap "sram"
        (m.createBuffer "sram" 0xc000).nbuf = some 1
      rw [hnbuf', findBuffer, if_pos hsram]
    rw [luaExec, hbuf]
    rfl
  change (luaExec bus (.mapRom "rom" 0x00 0x40 0) (m.createBuffer "sram" 0xc000)).bind _ = _
  rw [hmap]
  change (luaExec bus (.mapXram "sram" 0x00 0xc0 0 0) _).bind _ = _
  rw [hmapx]
  rfl

/-- `main` succeeds under both scripts, and outside the CPU the machine is the one they map. -/
theorem boot_mapped (chip : Chip) (heap : ℕ → Buffer) (file : List Byte) :
    ∃ m : Machine (Globals chip.Indacc), boot chip.script heap file = some m.mapped ∧
      SameOutside ((static chip.script.globals heap).loadRom file) m ∧
      m.lua = chip.script.globals := by
  obtain ⟨m, hinit, -⟩ := mainInit_started chip.script heap file
  have houtside := mainInit_outside hinit
  have hchunk : chip.script.chunk = mapMemory := by
    cases chip <;> rfl
  have hrun := run_mapMemory_eq (m := m) (busAt chip.script (chip.script.ccalls + 1))
    houtside.nbuf (by rw [houtside.heap]; rfl)
  refine ⟨m, ?_, houtside, ?_⟩
  · rw [boot_eq, hinit, Option.bind_some, runLua, hchunk, hrun, Option.bind_some]
  · have hglobals : mainInit chip.script heap file = some _ := rfl
    obtain rfl := Option.some.inj (hglobals.symm.trans hinit)
    rfl

/-- After these calls the first pages of code memory show the beginning of the image. -/
lemma mapped_rompage {σ : Type} (m : Machine σ) (p : Byte) :
    m.mapped.rompage p = if p < 0x40 then some ⟨0, p.toNat * 0x100⟩ else m.rompage p := by
  have hmapped : m.mapped.rompage p =
      mapPages m.rompage 0 0x40 (fun i => some (pageOf 0 0 i)) p := rfl
  rw [hmapped]
  split_ifs with hp
  · have hpage : p = BitVec.ofInt 8 (0 + (p.toNat : ℕ)) := by simp
    have hfirst := mapPages_apply m.rompage 0 (fun i => some (pageOf 0 0 i))
      (show p.toNat < 0x40 from hp) (by omega)
    rw [← hpage] at hfirst
    refine hfirst.trans ?_
    rw [pageOf, Int.add_zero]
  · refine mapPages_of_ne _ _ fun i hi hpage => hp ?_
    rw [hpage, Int.zero_add, BitVec.ofInt_natCast, BitVec.lt_def, BitVec.toNat_ofNat]
    change _ < 0x40
    omega

/-- After these calls code memory is as it should be when no bank has been chosen. -/
lemma codeMem_mapped {σ : Type} {m : Machine σ} (hnbuf : m.nbuf = 1)
    (hname : (m.heap 0).name = "rom")
    (hbytes : ∀ (i : ℕ) b, file[i]? = some b → (m.heap 0).mem i = b)
    (hxram : m.xrampage = fun _ => none) : CodeMem file [] m.mapped := by
  have hsram : ((m.createBuffer "sram" 0xc000).heap 1).name = "sram" := by
    rw [createBuffer_heap, hnbuf, Function.update_self]
  have hrom : (m.createBuffer "sram" 0xc000).heap 0 = m.heap 0 := by
    rw [createBuffer_heap, hnbuf, Function.update_of_ne Nat.zero_ne_one]
  have hmem : CodeMem file [] ((m.createBuffer "sram" 0xc000).mapRom 0 0 0x40 0) := by
    refine ⟨congrArg (· + 1) hnbuf, ?_, hsram, ?_, ?_, ?_, ?_⟩
    · exact (congrArg Buffer.name hrom).trans hname
    · intro i b hb
      exact (congrFun (congrArg Buffer.mem hrom) i).trans (hbytes i b hb)
    · intro p hp
      exact (m.mapped_rompage p).trans (if_pos hp)
    · intro k hk
      exact absurd hk (Option.some_ne_none k).symm
    · intro p q hq
      have hnone : ((m.createBuffer "sram" 0xc000).mapRom 0 0 0x40 0).xrampage p = none :=
        congrFun hxram p
      exact absurd (hnone.symm.trans hq) (Option.some_ne_none q).symm
  exact hmem.mapXram 0 0xc0 0 fun _ => rfl

/-- `main` succeeds under both scripts, and no bank has been chosen then. -/
theorem boot_banked (chip : Chip) (heap : ℕ → Buffer) (file : List Byte) :
    ∃ m, boot chip.script heap file = some m ∧ Banked file [] m := by
  obtain ⟨m, hboot, houtside, -⟩ := boot_mapped chip heap file
  have hmem : CodeMem file [] m.mapped := by
    refine codeMem_mapped houtside.nbuf (by rw [houtside.heap]; rfl) (fun i b hb => ?_)
      houtside.xrampage
    rw [houtside.heap]
    exact loadRom_mem _ _ i hb
  exact ⟨_, hboot, hmem, (boot_setup hboot).1⟩

/-! ## What the CPU fetches -/

/-- The bits above the program counter in the breakpoint address are `pcx`. -/
lemma fullPc_shiftRight {σ : Type} (m : Machine σ) : m.fullPc >>> 16 = m.pcx.setWidth 32 := by
  have hpc := m.pc.isLt
  have hpcx := m.pcx.isLt
  apply BitVec.eq_of_toNat_eq
  rw [fullPc, BitVec.toNat_ushiftRight, BitVec.toNat_add, BitVec.toNat_shiftLeft,
    BitVec.toNat_setWidth, BitVec.toNat_setWidth, Nat.shiftRight_eq_div_pow, Nat.shiftLeft_eq]
  omega

variable {image : List Byte}

/-- The fixed pages show the beginning of the image without its first two bytes. -/
lemma Banked.readc_low (h : Banked (unpack image) banks m) (hL : 0x4000 ≤ image.length) {c : Word}
    (hc : c < 0x3ffe) : image[c.toNat + 2]? = some (m.readc c) := by
  have hc' : c.toNat < 0x3ffe := hc
  have hplace := getElem?_unpack_low hL hc'
  rw [List.getElem?_eq_getElem (show c.toNat + 2 < image.length by omega)] at hplace ⊢
  rw [h.mem.readc_fixed (BitVec.lt_trans hc (by decide)) hplace]

/-- The banked pages show the bytes of the image that belong to the bank. -/
lemma Banked.readc_high (h : Banked (unpack image) banks m) {k : Byte}
    (hk : banks.getLast? = some k) (hk' : 1 ≤ k) {c : Word} (hc : 0x4000 ≤ c)
    (hlen : 0x4000 + (k.toNat - 1) * 0xc000 + (c.toNat - 0x4000) < image.length) :
    image[0x4000 + (k.toNat - 1) * 0xc000 + (c.toNat - 0x4000)]? = some (m.readc c) := by
  have hone : 1 ≤ k.toNat := hk'
  have hle : 0x4000 ≤ c.toNat := hc
  have hlt := c.isLt
  have hplace := getElem?_unpack_bank
    (show 0x4000 + ((k.toNat - 1) * 0xc000 + (c.toNat - 0x4000)) < image.length by omega)
  have hindex : (((k.toNat - 1) * 0xc000 + (c.toNat - 0x4000)) / 0xc000 + 1) * 0x10000 +
      (0x4000 + ((k.toNat - 1) * 0xc000 + (c.toNat - 0x4000)) % 0xc000) =
      k.toNat * 0x10000 + c.toNat := by
    omega
  rw [hindex, ← Nat.add_assoc] at hplace
  rw [List.getElem?_eq_getElem hlen] at hplace ⊢
  rw [h.mem.readc_bank hk hc hplace]

/-- In every run under either script the beginning of code memory shows the beginning of the image,
and the rest shows the bank written last. -/
theorem run_readc_shown (chip : Chip) (hL : 0x4000 ≤ image.length) {heap : ℕ → Buffer}
    {m₀ m : Machine (Globals chip.Indacc)} (hboot : boot chip.script heap (unpack image) = some m₀)
    {tr : List (Machine (Globals chip.Indacc) × Event)} (hrun : Run (Happens chip.script) m₀ tr m) :
    (∀ c : Word, c < 0x3ffe → image[c.toNat + 2]? = some (m.readc c)) ∧
    ∀ k : Byte, (bankHistory chip.script tr).getLast? = some k → 1 ≤ k →
      m.fullPc >>> 16 = k.setWidth 32 ∧
      ∀ c : Word, 0x4000 ≤ c →
        0x4000 + (k.toNat - 1) * 0xc000 + (c.toNat - 0x4000) < image.length →
        image[0x4000 + (k.toNat - 1) * 0xc000 + (c.toNat - 0x4000)]? = some (m.readc c) := by
  obtain ⟨m₁, hboot', hstart⟩ := boot_banked chip heap (unpack image)
  obtain rfl := Option.some.inj (hboot'.symm.trans hboot)
  have hlast : Banked (unpack image) (bankHistory chip.script tr) m :=
    hrun.logged (I := Banked (unpack image)) (fun _ _ _ _ h he => happen_banked h he) hstart
  refine ⟨fun c hc => hlast.readc_low hL hc, fun k hk hk' => ⟨?_, fun c hc hlen => ?_⟩⟩
  · rw [fullPc_shiftRight, (hlast.mem.bank k hk).1]
  · exact hlast.readc_high hk hk' hc hlen

/-- The theorem at an image with one byte in bank 1. -/
theorem run_readc_shown_bank1 : ∃ m : Machine (Globals Rtl8372.Indacc),
    (List.replicate 0x4001 (0x5a : Byte))[0x4000]? = some (m.readc 0x4000) := by
  obtain ⟨m₀, hboot, hbanked⟩ :=
    boot_banked .rtl8372 (fun _ => default) (unpack (List.replicate 0x4001 0x5a))
  obtain ⟨m, hwrite, -⟩ := writed_codeBank hbanked 1
  have hrun : Run (Happens Chip.rtl8372.script) m₀ [(m₀, .poke CODE_BANK 1)] m :=
    .head hwrite (.refl m)
  have hlen : (List.replicate 0x4001 (0x5a : Byte)).length = 0x4001 := List.length_replicate
  have hlaw := run_readc_shown .rtl8372 (by omega) hboot hrun
  exact ⟨m, (hlaw.2 1 rfl (by decide)).2 0x4000 (by decide) (by rw [hlen]; decide)⟩

end Machine

end Emu51

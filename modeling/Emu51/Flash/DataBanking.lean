import Emu51.Flash.Banking
import Emu51.Flash.DataMem
import Emu51.Machine.Events

/-!
# Data banking

External data memory over whole runs. The map is the one `shown` makes of the writes to `DATA_BANK`
so far, so nothing is ever stored in `rom`. But the map is not determined by the last write alone:
bank 0 does not cover the last 64 pages, where a bank of `rom` selected before stays visible.
-/

namespace Emu51

open Chip

/-- The value a write gives to `DATA_BANK`, if it is one to this register. -/
def dataBank (w : Byte × Byte) : Option Byte := if w.1 = DATA_BANK then some w.2 else none

namespace Machine

/-- The history of `DATA_BANK` in a run. -/
def dataBanks {σ : Type} (script : Script σ) (tr : List (Machine σ × Event)) : List Byte :=
  (writeHistory script tr).filterMap dataBank

/-- External data memory after the given writes to `DATA_BANK`, with the trap table of
`sfr_init`. -/
structure DataBanked {σ : Type} (rom : Buffer) (banks : List Byte) (m : Machine σ) : Prop where
  mem : DataMem rom banks m
  ramsfrtrap : m.ramsfrtrap = sfrInitTrap

variable {chip : Chip} {rom : Buffer} {banks : List Byte}
  {m m' m₀ m₁ : Machine (Globals chip.Indacc)}

/-! ## What one operation does -/

/-- Hooks keep external data memory as it is, except that of `DATA_BANK`. -/
lemma dataMem_keeps (chip : Chip) (rom : Buffer) (banks : List Byte) :
    chip.script.Keeps (DataMem rom banks) fun a _ => a ≠ DATA_BANK := by
  intro g a hook h w d hw
  refine (((hookSpec chip h).pokes w d).and (chip.offXramMap h d hw)).mono fun o ho => ⟨?_, ?_⟩
  · cases o with
    | pokeSfr addr v =>
      change byteOfLua addr ≠ DATA_BANK
      rcases (ho.1 : byteOfLua addr = T2CON ∨ byteOfLua addr = SCON) with ha | ha
      · rw [ha]
        decide
      · rw [ha]
        decide
    | _ => trivial
  · intro hoff bus m y hm he
    exact hm.luaExec ho.2 hoff he

/-- A write to `DATA_BANK` succeeds and makes its value the bank chosen last. -/
theorem writed_dataBank (h : DataBanked rom banks m) (k : Byte) :
    ∃ m', writed chip.script DATA_BANK k m = some m' ∧ DataBanked rom (banks ++ [k]) m' := by
  have htrap : m.ramsfrtrap DATA_BANK = true := by
    rw [h.ramsfrtrap]
    decide
  have hmem : DataMem rom banks (m.setSfr DATA_BANK k) :=
    dataMem_isOuter _ _ (m.sameOutside_setSfr _ _) h.mem
  have hwrite := writed_of_hook (v := k) htrap (by decide) (by decide) (by decide) (by decide)
    (ramdHooks_dataBank chip m.lua)
  obtain ⟨m₁, hrun, hmem₁⟩ := run_sfrDataBank hmem (busAt chip.script chip.script.ccalls) k
  rw [hrun, Option.map_some] at hwrite
  refine ⟨_, hwrite, ?_, ?_⟩
  · obtain ⟨l0, l1, hl⟩ := sfrNotify_eq (m₁.setSfr DATA_BANK (byteOfLua (luaOfByte k))) DATA_BANK
    rw [hl]
    refine dataMem_isOuter _ _ ?_ hmem₁
    constructor <;> rfl
  · exact (writed_effects (pokesOnly_true _) trivial hwrite).fixed.ramsfrtrap.trans h.ramsfrtrap

/-- What one operation does to external data memory is what its write to `DATA_BANK` says, if any.
-/
lemma cpuExec_dataBanked {o : CpuOp} {r : o.Res} (h : DataBanked rom banks m)
    (he : cpuExec chip.script o m = some (r, m')) :
    DataBanked rom (banks ++ o.write.toList.filterMap dataBank) m' := by
  have htrap : m'.ramsfrtrap = sfrInitTrap := (cpuExec_setup he).ramsfrtrap.trans h.ramsfrtrap
  have hother : (∀ a v, o = .writed a v → a ≠ DATA_BANK) → DataBanked rom banks m' := fun ho =>
    ⟨cpuExec_keeps dataMem_isOuter (dataMem_keeps chip rom banks) (fun _ a v hm => hm.writex a v)
      ho h.mem he, htrap⟩
  cases o with
  | writed a v =>
    by_cases ha : a = DATA_BANK
    · subst ha
      obtain ⟨m₁, hm₁, heq⟩ := Option.map_eq_some_iff.1 he
      obtain ⟨-, rfl⟩ := Prod.mk.inj heq
      obtain ⟨m₂, hm₂, hbanked⟩ := writed_dataBank h v
      obtain rfl := Option.some.inj (hm₁.symm.trans hm₂)
      exact hbanked
    · have hnone : dataBank (a, v) = none := if_neg ha
      change DataBanked rom (banks ++ [(a, v)].filterMap dataBank) m'
      rw [List.filterMap_cons_none hnone, List.filterMap_nil, List.append_nil]
      refine hother fun a' v' heq => ?_
      obtain ⟨rfl, -⟩ := CpuOp.writed.inj heq
      exact ha
  | _ =>
    change DataBanked rom (banks ++ []) m'
    rw [List.append_nil]
    exact hother fun _ _ heq => nomatch heq

/-- What one event does to external data memory is what its writes to `DATA_BANK` say. -/
lemma happen_dataBanked {l : List (Byte × Byte)} {e : Event}
    (h : DataBanked rom (l.filterMap dataBank) m) (he : happen chip.script e m = some m') :
    DataBanked rom ((l ++ writes chip.script m e).filterMap dataBank) m' := by
  refine happen_logged (I := fun l => DataBanked rom (l.filterMap dataBank)) ?_ ?_ ?_ h he
  · intro l o m r m' hm hexec
    rw [List.filterMap_append]
    exact cpuExec_dataBanked hm hexec
  · intro l m hm
    exact ⟨dataMem_isOuter _ _ m.sameOutside_pollIrq hm.mem,
      (pollIrq_setup m).ramsfrtrap.trans hm.ramsfrtrap⟩
  · intro l d m hm
    exact ⟨dataMem_isOuter _ _ (m.sameOutside_uartListener d) hm.mem,
      (uartListener_setup d m).ramsfrtrap.trans hm.ramsfrtrap⟩

/-! ## Start -/

/-- `rom` right after loading. -/
def loadedRom {σ : Type} (script : Script σ) (heap : ℕ → Buffer) (file : List Byte) : Buffer :=
  ((static script.globals heap).loadRom file).heap 0

/-- The map the script leaves is the one before any bank has been chosen. -/
lemma dataMem_mapped {σ : Type} {m : Machine σ} (hnbuf : m.nbuf = 1)
    (hname : (m.heap 0).name = "rom")
    (hpage : m.xrampage = fun _ => none) (hfn : m.xramfnwr = fun _ => none) :
    DataMem (m.heap 0) [] m.mapped := by
  have hsram : (m.createBuffer "sram" 0xc000).heap 1 =
      { name := "sram", size := 0xc000, mem := fun i => if 0 ≤ i ∧ i < (0xc000 : ℕ) then 0
        else (m.heap 1).mem i } := by
    rw [createBuffer_heap, hnbuf, Function.update_self]
  have hrom : (m.createBuffer "sram" 0xc000).heap 0 = m.heap 0 := by
    rw [createBuffer_heap, hnbuf, Function.update_of_ne Nat.zero_ne_one]
  refine ⟨congrArg (· + 1) hnbuf, hrom, (congrArg Buffer.name hrom).trans hname,
    congrArg Buffer.name hsram, congrArg Buffer.size hsram, fun p => ?_, fun p => ?_⟩
  · rw [mapped, mapXram_xrampage]
    refine (mapPages_first _ _ p).trans ?_
    change _ = (initialMap p).page p
    unfold initialMap
    split_ifs
    · rw [pageOf, Int.add_zero]
      rfl
    · exact congrFun hpage p
  · rw [mapped, mapXram_xramfnwr]
    refine (mapPages_first _ _ p).trans ?_
    change _ = (initialMap p).handler
    unfold initialMap
    split_ifs
    · rfl
    · exact congrFun hfn p

/-- `main` succeeds under both scripts, and no data bank has been chosen then. -/
theorem boot_dataBanked (chip : Chip) (heap : ℕ → Buffer) (file : List Byte) :
    ∃ m, boot chip.script heap file = some m ∧ DataBanked (loadedRom chip.script heap file)
      [] m := by
  obtain ⟨m, hboot, houtside, -⟩ := boot_mapped chip heap file
  have hmem : DataMem (m.heap 0) [] m.mapped :=
    dataMem_mapped houtside.nbuf (by rw [houtside.heap]; rfl) houtside.xrampage houtside.xramfnwr
  rw [houtside.heap] at hmem
  exact ⟨_, hboot, hmem, (boot_setup hboot).1⟩

/-! ## Runs -/

/-- External data memory in every state of a run is the map of the writes to `DATA_BANK` so far. -/
theorem run_dataBanked {heap : ℕ → Buffer} {file : List Byte}
    (hboot : boot chip.script heap file = some m₀)
    {tr : List (Machine (Globals chip.Indacc) × Event)} (hrun : Run (Happens chip.script) m₀ tr m) :
    DataBanked (loadedRom chip.script heap file) (dataBanks chip.script tr) m := by
  obtain ⟨m₁, hboot', hstart⟩ := boot_dataBanked chip heap file
  obtain rfl := Option.some.inj (hboot'.symm.trans hboot)
  exact hrun.logged
    (I := fun l => DataBanked (loadedRom chip.script heap file) (l.filterMap dataBank))
    (fun _ _ _ _ h he => happen_dataBanked h he) (l := []) hstart

/-! ## The firmware image -/

/-- `rom` has the given contents, the pages that show it are read-only, and what can be written to
lies inside `sram`. -/
structure RomIntact {σ : Type} (rom : Buffer) (m : Machine σ) : Prop where
  buffer : m.getBuffer "rom" = some 0
  contents : m.heap 0 = rom
  readOnly : ∀ p q, m.xrampage p = some q → q.buf = 0 → m.xramfnwr p = some .writexRo
  writable : ∀ p q, m.xrampage p = some q → m.xramfnwr p = none →
    q.buf = 1 ∧ 0 ≤ q.ofs ∧ q.ofs + 0x100 ≤ (m.heap 1).size

/-- While the banks of data are mapped as they should be, the image is as it was loaded. -/
lemma DataBanked.romIntact (h : DataBanked rom banks m) : RomIntact rom m where
  buffer := h.mem.getBuffer_rom
  contents := h.mem.rom
  readOnly _ _ hq hrom := h.mem.readOnly hq hrom
  writable _ _ hq hfn := by
    rw [h.mem.sramSize]
    exact h.mem.writable hq hfn

/-- In every state of every run under either script, the contents of `rom` are those right after
loading. -/
theorem run_romIntact (chip : Chip) {heap : ℕ → Buffer} {file : List Byte}
    {m₀ m : Machine (Globals chip.Indacc)} (hboot : boot chip.script heap file = some m₀)
    {tr : List (Machine (Globals chip.Indacc) × Event)} (hrun : Run (Happens chip.script) m₀ tr m) :
    Run.Throughout (RomIntact (loadedRom chip.script heap file)) tr m := by
  obtain ⟨m₁, hboot', hstart⟩ := boot_dataBanked chip heap file
  obtain rfl := Option.some.inj (hboot'.symm.trans hboot)
  obtain ⟨htr, hlast⟩ := hrun.invariant
    (I := fun m => ∃ l, DataBanked (loadedRom chip.script heap file) (l.filterMap dataBank) m)
    (fun _ _ _ h he => ⟨_, happen_dataBanked h.choose_spec he⟩) ⟨[], hstart⟩
  exact ⟨fun e he => (htr e he).choose_spec.romIntact, hlast.choose_spec.romIntact⟩

/-- The theorem where bank 1 has been selected, which an image of one page does not have. -/
theorem run_romIntact_bank1 : ∃ m : Machine (Globals Rtl8372.Indacc),
    RomIntact (loadedRom Rtl8372.script (fun _ => default) [0x5a]) m := by
  obtain ⟨m₀, hboot, hbanked⟩ := boot_dataBanked .rtl8372 (fun _ => default) [0x5a]
  obtain ⟨m, hwrite, -⟩ := writed_dataBank hbanked 1
  have hrun : Run (Happens Chip.rtl8372.script) m₀ [(m₀, .poke DATA_BANK 1)] m :=
    .head hwrite (.refl m)
  exact ⟨m, (run_romIntact .rtl8372 hboot hrun).2⟩

/-! ## The map and the banks selected before -/

/-- Every page shows the same bytes in both states, and is writable in both or in neither. -/
def SameXramMap {σ : Type} (m m' : Machine σ) : Prop :=
  ∀ p, m'.xrampage p = m.xrampage p ∧
    ((m'.xrampage p).isSome = true ∧ m'.xramfnwr p = none ↔
      (m.xrampage p).isSome = true ∧ m.xramfnwr p = none)

/-- A page shows the same only if it shows the same bank. -/
lemma page_inj {b b' : Backing} {p : Byte} (h : b.page p = b'.page p) : b = b' := by
  have hp := p.isLt
  cases b with
  | unmapped =>
    cases b' with
    | unmapped => rfl
    | sram => exact nomatch h
    | rom k => exact nomatch h
  | sram =>
    cases b' with
    | unmapped => exact nomatch h
    | sram => rfl
    | rom k => exact absurd (congrArg PagePtr.buf (Option.some.inj h)) Nat.one_ne_zero
  | rom k =>
    cases b' with
    | unmapped => exact nomatch h
    | sram => exact absurd (congrArg PagePtr.buf (Option.some.inj h)) Nat.zero_ne_one
    | rom k' =>
      have hofs : ((k.toNat * 0x100 + p.toNat) * 0x100 : ℤ) =
        (k'.toNat * 0x100 + p.toNat) * 0x100 :=
        congrArg PagePtr.ofs (Option.some.inj h)
      have hk : k.toNat = k'.toNat := by omega
      rw [BitVec.eq_of_toNat_eq hk]

/-- The maps of two histories are the same as functions exactly if they are the same in the
emulator. -/
lemma sameXramMap_iff {banks' : List Byte} (h : DataBanked rom banks m)
    (h' : DataBanked rom banks' m') : SameXramMap m m' ↔ shown banks' = shown banks := by
  constructor
  · intro hsame
    funext p
    have hpage := (hsame p).1
    rw [h.mem.xrampage, h'.mem.xrampage] at hpage
    exact page_inj hpage
  · intro hshown p
    rw [h.mem.xrampage, h'.mem.xrampage, h.mem.xramfnwr, h'.mem.xramfnwr, hshown]
    exact ⟨rfl, Iff.rfl⟩

/-- Only the last selection matters exactly if it is a bank of `rom` or no bank of `rom` has been
selected before. -/
lemma shown_eq_iff (banks : List Byte) (k : Byte) :
    shown [k] = shown (banks ++ [k]) ↔ k ≠ 0 ∨ ∀ c ∈ banks, c = 0 := by
  by_cases hk : k = 0
  · subst hk
    constructor
    · intro hsame
      have hhigh : (0xc0 : Byte) ≤ 0xc0 := BitVec.le_refl _
      have hone := (shown_high_iff [0] hhigh).2 (by simp)
      rw [hsame] at hone
      have hall := (shown_high_iff (banks ++ [0]) hhigh).1 hone
      exact .inr fun c hc => hall c (List.mem_append_left _ hc)
    · rintro (hne | hzero)
      · exact absurd rfl hne
      · have hall : ∀ c ∈ banks ++ [0], c = 0 := by
          intro c hc
          rcases List.mem_append.1 hc with hc | hc
          · exact hzero c hc
          · exact List.mem_singleton.1 hc
        rw [shown_of_zero hall]
        exact shown_of_zero (by simp)
  · refine iff_of_true ?_ (.inl hk)
    funext p
    rw [shown_concat, select_of_ne _ hk]
    change select (shown []) k p = _
    rw [select_of_ne _ hk]
    split_ifs with hp
    · rfl
    · rw [shown_low banks (BitVec.not_le.1 hp), shown_low [] (BitVec.not_le.1 hp)]

/-- After a run in which `DATA_BANK` was written, external data memory is mapped as after the last
of these writes alone exactly if this write selects a bank of `rom` or no earlier one does. -/
theorem run_sameXramMap_iff (chip : Chip) {heap : ℕ → Buffer} {file : List Byte}
    {m₀ m m₁ : Machine (Globals chip.Indacc)} (hboot : boot chip.script heap file = some m₀)
    {tr : List (Machine (Globals chip.Indacc) × Event)} (hrun : Run (Happens chip.script) m₀ tr m)
    {banks : List Byte} {k : Byte} (hbanks : dataBanks chip.script tr = banks ++ [k])
    (hone : writed chip.script DATA_BANK k m₀ = some m₁) :
    SameXramMap m m₁ ↔ k ≠ 0 ∨ ∀ c ∈ banks, c = 0 := by
  have hm := run_dataBanked hboot hrun
  have hm₁ := run_dataBanked hboot (.head
    (show Happens chip.script m₀ (.poke DATA_BANK k) m₁ from hone)
    (.refl m₁))
  rw [hbanks] at hm
  rw [sameXramMap_iff hm hm₁]
  exact shown_eq_iff banks k

/-- The theorem where banks 1 and 2 are selected. -/
theorem run_sameXramMap_iff_banks : ∃ m m₁ : Machine (Globals Rtl8372.Indacc),
    SameXramMap m m₁ ↔ (2 : Byte) ≠ 0 ∨ ∀ c ∈ [(1 : Byte)], c = 0 := by
  obtain ⟨m₀, hboot, hbanked⟩ := boot_dataBanked .rtl8372 (fun _ => default) [0x5a]
  obtain ⟨m', hwrite', hbanked'⟩ := writed_dataBank hbanked 1
  obtain ⟨m, hwrite, -⟩ := writed_dataBank hbanked' 2
  obtain ⟨m₁, hone, -⟩ := writed_dataBank hbanked 2
  have hrun : Run (Happens Chip.rtl8372.script) m₀
      [(m₀, .poke DATA_BANK 1), (m', .poke DATA_BANK 2)] m :=
    .head hwrite' (.head hwrite (.refl m))
  exact ⟨m, m₁, run_sameXramMap_iff .rtl8372 hboot hrun
    (show dataBanks Chip.rtl8372.script _ = [1] ++ [2] from rfl) hone⟩

/-- After banks 1 and 0 of an image of two banks, the last pages still show bank 1. -/
theorem bank0_keeps_rom_pages : ¬∀ (file : List Byte) (m₀ m m₁ : Machine (Globals Rtl8372.Indacc))
    (banks : List Byte) (k : Byte), boot Rtl8372.script (fun _ => default) file = some m₀ →
    (∀ c ∈ banks ++ [k], c = 0 ∨ (c.toNat + 1) * 0x10000 ≤ paddedSize file.length) →
    Run.follow (happen Rtl8372.script) ((banks ++ [k]).map (.poke DATA_BANK)) m₀ = some m →
    writed Rtl8372.script DATA_BANK k m₀ = some m₁ → SameXramMap m m₁ := by
  intro hall
  obtain ⟨m₀, hboot, hbanked⟩ :=
    boot_dataBanked .rtl8372 (fun _ => default) (List.replicate 0x20000 0)
  obtain ⟨m', hwrite', hbanked'⟩ := writed_dataBank hbanked 1
  obtain ⟨m, hwrite, hlast⟩ := writed_dataBank hbanked' 0
  obtain ⟨m₁, hone, hlast₁⟩ := writed_dataBank hbanked 0
  have hcontained : ∀ c ∈ [(1 : Byte)] ++ [0],
      c = 0 ∨ (c.toNat + 1) * 0x10000 ≤ paddedSize (List.replicate 0x20000 (0 : Byte)).length := by
    rw [List.length_replicate]
    decide
  have hfollow : Run.follow (happen Rtl8372.script)
      (([(1 : Byte)] ++ [0]).map (.poke DATA_BANK)) m₀ = some m := by
    change (writed Rtl8372.script DATA_BANK 1 m₀).bind _ = _
    rw [show writed Rtl8372.script DATA_BANK 1 m₀ = some m' from hwrite', Option.bind_some]
    change (writed Rtl8372.script DATA_BANK 0 m').bind _ = _
    rw [show writed Rtl8372.script DATA_BANK 0 m' = some m from hwrite]
    rfl
  have hsame := hall _ m₀ m m₁ [1] 0 hboot hcontained hfollow hone
  rw [@sameXramMap_iff .rtl8372 _ _ _ _ _ hlast hlast₁, List.nil_append, shown_eq_iff] at hsame
  revert hsame
  decide

end Machine

end Emu51

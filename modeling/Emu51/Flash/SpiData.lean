import Emu51.Chip.KeptGlobals
import Emu51.Machine.History

/-!
# The data of the flash interface

A flash read is requested by a write to `CACHE_CTRL` with bit 2 set. The hook tests the bit with
`if data & 4 then`, and in Lua the number 0 counts as true. So every write to `CACHE_CTRL` reads the
flash, and the data registers change unasked exactly if firmware clears or leaves clear bit 2 while
`SPI_S_RCMD` holds one of the two commands there are.
-/

namespace Emu51

open Chip Lua

variable {ρ : Type}

/-- `spis_data0` to `spis_data3`. -/
def spiData (g : Globals ρ) : Fin 4 → LuaInt
  | 0 => g.spisData0
  | 1 => g.spisData1
  | 2 => g.spisData2
  | 3 => g.spisData3

/-- Their registers. -/
def spiDataReg : Fin 4 → Byte
  | 0 => SPI_S_DATA0
  | 1 => SPI_S_DATA1
  | 2 => SPI_S_DATA2
  | 3 => SPI_S_DATA3

/-- There is a command for the value of `SPI_S_RCMD`. -/
def SpiCommand (g : Globals ρ) : Prop := g.spisRcmd = 5 ∨ g.spisRcmd = 0xbb

instance (g : Globals ρ) : Decidable (SpiCommand g) :=
  inferInstanceAs (Decidable (g.spisRcmd = 5 ∨ g.spisRcmd = 0xbb))

/-- The operation asks for a change of a data register: it writes the register itself, or it sets
bit 2 of `CACHE_CTRL` and there is a command. -/
def CpuOp.Requests (k : Fin 4) (g : Globals ρ) : CpuOp → Prop
  | .writed a v => a = spiDataReg k ∨ a = CACHE_CTRL ∧ v &&& 4 ≠ 0 ∧ SpiCommand g
  | _ => False

instance (k : Fin 4) (g : Globals ρ) (o : CpuOp) : Decidable (o.Requests k g) :=
  match o with
  | .writed a v =>
      inferInstanceAs (Decidable (a = spiDataReg k ∨ a = CACHE_CTRL ∧ v &&& 4 ≠ 0 ∧ SpiCommand g))
  | .readd _ | .fetch _ | .readc _ | .readx _ | .writex _ _ | .xramP2addr | .readi _ | .writei _ _
  | .getRx _ | .setRx _ _ | .get _ | .set _ _ | .getDptr | .setDph _ | .setDpl _ | .getPc
  | .setPc _ | .irqlevelReti | .setBreakpoint _ _ => inferInstanceAs (Decidable False)

/-- The access may be part of a transfer: it reads the flash or sets globals. -/
def Access.OfTransfer {σ : Type} : Access σ → Prop
  | .lua (.peekRom _) => True
  | .lua (.set _) => True
  | _ => False

namespace Machine

/-- In the event the data registers change on request only: in the single operations, from the
instruction boundary before to the one after, and a write to `CACHE_CTRL` without bit 2 does
nothing at all. -/
structure OnRequest (script : Script (Globals ρ)) (m : Machine (Globals ρ)) (e : Event) :
    Prop where
  ops : ∀ v ∈ visited script m e, ∀ y, cpuExec script v.1 v.2 = some y → ∀ k,
    spiData y.2.lua k ≠ spiData v.2.lua k → v.1.Requests k v.2.lua
  boundary : ∀ m', happen script e m = some m' → ∀ k, spiData m'.lua k ≠ spiData m.lua k →
    ∃ v ∈ visited script m e, v.1.Requests k v.2.lua
  quiet : ∀ v ∈ visited script m e, ∀ x, v.1 = .writed CACHE_CTRL x → x &&& 4 = 0 →
    ∀ u ∈ (cpuSteps script v.1).visits (accessExec script) v.2, ¬u.1.OfTransfer

/-- Whenever the event writes `CACHE_CTRL`, it sets bit 2, or there is no command. -/
def Asks (script : Script (Globals ρ)) (m : Machine (Globals ρ)) (e : Event) : Prop :=
  ∀ v ∈ visited script m e, ∀ x, v.1 = .writed CACHE_CTRL x → x &&& 4 ≠ 0 ∨ ¬SpiCommand v.2.lua

/-- Only the writes among the operations have to be looked at. -/
lemma asks_iff (script : Script (Globals ρ)) (m : Machine (Globals ρ)) (e : Event) :
    Asks script m e ↔ ∀ v ∈ visited script m e, ∀ w ∈ v.1.write,
      w.1 = CACHE_CTRL → w.2 &&& 4 ≠ 0 ∨ ¬SpiCommand v.2.lua := by
  refine forall₂_congr fun v _ => ?_
  obtain ⟨o, s⟩ := v
  constructor
  · rintro h ⟨a, x⟩ hw rfl
    cases o with
    | writed a x =>
      obtain ⟨rfl, rfl⟩ := Prod.mk.inj (Option.some.inj hw)
      exact h _ rfl
    | _ => exact nomatch hw
  · rintro h x rfl
    exact h _ rfl rfl

instance (script : Script (Globals ρ)) (m : Machine (Globals ρ)) (e : Event) :
    Decidable (Asks script m e) :=
  -- one write is tested, not all pairs of bytes
  haveI (v : CpuOp × Machine (Globals ρ)) : Decidable (∀ w ∈ v.1.write,
      w.1 = CACHE_CTRL → w.2 &&& 4 ≠ 0 ∨ ¬SpiCommand v.2.lua) :=
    Option.decidableForallMem _
  decidable_of_iff _ (asks_iff script m e).symm

variable {chip : Chip} {m m' m₀ : Machine (Globals chip.Indacc)} {o : CpuOp} {r : o.Res}
  {x : Byte} {k : Fin 4} {e : Event}

/-! ## What is kept -/

section Contract

variable {script : Script (Globals ρ)} {m m' : Machine (Globals ρ)} {P : Globals ρ → Prop}
  {R : LuaInt → Prop} {Q : LuaOp (Globals ρ) → Prop}

/-- A property of the globals is kept by the accesses the contract allows. -/
lemma accessExec_leaves (hQ : ∀ o, Q o → o.Leaves P R) (o : Access (Globals ρ))
    (m : Machine (Globals ρ)) (r : o.Res) (m' : Machine (Globals ρ)) (ho : Access.Demand Q o)
    (hm : P m.lua) (h : accessExec script o m = some (r, m')) :
    Access.Rely (LuaOp.Finds P) o r ∧ P m'.lua := by
  refine accessExec_contract (I := fun m => P m.lua) (fun m m' _ hlua hm => ?_)
    (fun o m y ho hm he => luaExec_leaves (hQ o ho) hm he) o m r m' ho hm h
  rw [hlua]
  exact hm

/-- So it is kept by an operation that meets the contract. -/
lemma cpuExec_leaves (hQ : ∀ o, Q o → o.Leaves P R)
    (hmeets : (cpuSteps script o).Meets (LuaOp.Finds P) Q) (hm : P m.lua)
    (h : cpuExec script o m = some (r, m')) : P m'.lua := by
  rw [← run_cpuSteps] at h
  exact (hmeets.of_run (I := fun m => P m.lua) (accessExec_leaves hQ) hm h).2

/-- And each of its accesses is one that the contract allows. -/
lemma demand_of_mem_visits (hQ : ∀ o, Q o → o.Leaves P R)
    (hmeets : (cpuSteps script o).Meets (LuaOp.Finds P) Q) (hm : P m.lua) :
    ∀ u ∈ (cpuSteps script o).visits (accessExec script) m, Access.Demand Q u.1 :=
  (hmeets.along (I := fun m => P m.lua) (accessExec_leaves hQ) (fun _ _ ho _ => ho)
    hm).of_mem_visits

end Contract

/-- What is in a data register depends on the registers of the flash interface only. -/
lemma spiOnly_spiData (k : Fin 4) (c : LuaInt) :
    SpiOnly fun g : Globals ρ => spiData g k = c := by
  intro g g' h hg
  obtain ⟨-, -, -, h0, h1, h2, h3, -⟩ := h
  rw [← hg]
  match k with
  | 0 => exact h0
  | 1 => exact h1
  | 2 => exact h2
  | 3 => exact h3

/-- A data register is set by writes to it only. -/
lemma spiData_spiLatch {a : Byte} (ha : a ≠ spiDataReg k) (v : LuaInt) (g : Globals ρ) :
    spiData (spiLatch a v g) k = spiData g k := by
  simp only [spiLatch, apply_ite (spiData · k)]
  match k with
  | 0 => simp only [spiData, if_neg (show a ≠ SPI_S_DATA0 from ha), ite_self]
  | 1 => simp only [spiData, if_neg (show a ≠ SPI_S_DATA1 from ha), ite_self]
  | 2 => simp only [spiData, if_neg (show a ≠ SPI_S_DATA2 from ha), ite_self]
  | 3 => simp only [spiData, if_neg (show a ≠ SPI_S_DATA3 from ha), ite_self]

/-- A latch at another register keeps a data register, unless it is the one that asks for transfers.
-/
lemma latchKeeps_spiData {a : Byte} {c : LuaInt} (ha : a ≠ spiDataReg k) (hctrl : a ≠ CACHE_CTRL) :
    LatchKeeps (fun g : Globals ρ => spiData g k = c) a :=
  ⟨hctrl, fun v g hg => (spiData_spiLatch ha v g).trans hg⟩

/-- The registers that hooks poke are neither data registers nor `CACHE_CTRL`. -/
lemma pokes_ne_spiDataReg : ∀ k, (T2CON ≠ spiDataReg k ∧ T2CON ≠ CACHE_CTRL) ∧
    SCON ≠ spiDataReg k ∧ SCON ≠ CACHE_CTRL := by
  decide

/-- Without a command the hook looks at the globals and does nothing. -/
lemma sfrCacheCtrl_idle {g : Globals ρ} (hg : ¬SpiCommand g) (d : LuaInt) :
    (sfrCacheCtrl true d : LuaProg (Globals ρ) LuaInt).Contract (LuaOp.Finds (· = g))
      (fun o => o = .get ∧ o.OffSfr) fun _ => True := by
  refine ⟨⟨rfl, trivial⟩, fun g' hg' => ?_⟩
  obtain rfl : g' = g := hg'
  obtain ⟨h5, hbb⟩ := not_or.1 hg
  change Prog.Contract _ _ _ ((if g'.spisRcmd = 5 then _ else when (g'.spisRcmd = 0xbb) _) >>= _)
  rw [if_neg h5, decide_eq_false hbb]
  trivial

/-- A step that looks at the globals leaves them, whatever they are. -/
lemma leaves_of_eq_get {o : LuaOp (Globals ρ)} {P : Globals ρ → Prop} (ho : o = .get) :
    o.Leaves P fun _ => False := by
  rw [ho]
  trivial

/-- A step that looks at the globals is not part of a transfer. -/
lemma not_ofTransfer_of_eq_get {o : Access (Globals ρ)} (h : Access.Demand (· = .get) o) :
    ¬o.OfTransfer := by
  cases o with
  | lua o =>
    obtain rfl : o = .get := h
    exact id
  | _ => exact id

/-- So without a command a write to `CACHE_CTRL` looks at the globals and does nothing. -/
lemma cacheCtrl_idle (hm : ¬SpiCommand m.lua) :
    (cpuSteps chip.script (.writed CACHE_CTRL x)).Meets (LuaOp.Finds (· = m.lua)) (· = .get) := by
  refine writedSteps_of_offSfr rfl fun g hook hk v => ?_
  obtain rfl := Option.some.inj ((ramdHooks_cacheCtrl chip g).symm.trans hk)
  exact sfrCacheCtrl_idle hm _

/-- No operation changes a data register unless it is asked to, if writes to `CACHE_CTRL` ask for a
transfer or there is no command. -/
lemma cpuExec_spiData
    (hask : ∀ x, o = .writed CACHE_CTRL x → x &&& 4 ≠ 0 ∨ ¬SpiCommand m.lua)
    (h : cpuExec chip.script o m = some (r, m')) (hno : ¬o.Requests k m.lua) :
    spiData m'.lua k = spiData m.lua k := by
  have hcontract : HookContract chip.script (fun a => a ≠ spiDataReg k ∧ a ≠ CACHE_CTRL)
      (LuaOp.Finds fun g => spiData g k = spiData m.lua k)
      (LuaOp.Leaves (fun g => spiData g k = spiData m.lua k) fun _ => True) :=
    leaves_contract (spiOnly_spiData k _) _ (fun a ha => latchKeeps_spiData ha.1 ha.2)
      (pokes_ne_spiDataReg k).1 (pokes_ne_spiDataReg k).2
  have hbus := accessBusAt_contract hcontract (chip.script.ccalls + 1)
  cases o with
  | readd a =>
    exact cpuExec_leaves (P := fun g => spiData g k = spiData m.lua k) (fun _ => id) (hbus.get a)
      rfl h
  | writed a v =>
    have hreg : a ≠ spiDataReg k := fun ha => hno (.inl ha)
    by_cases hctrl : a = CACHE_CTRL
    · subst hctrl
      have hidle : ¬SpiCommand m.lua := by
        rcases hask v rfl with hv | hidle
        · exact fun hcommand => hno (.inr ⟨rfl, hv, hcommand⟩)
        · exact hidle
      have hlua : m'.lua = m.lua := cpuExec_leaves (P := (· = m.lua))
        (fun o => leaves_of_eq_get) (cacheCtrl_idle hidle) rfl h
      rw [hlua]
    · exact cpuExec_leaves (P := fun g => spiData g k = spiData m.lua k) (fun _ => id)
        (hbus.put a v ⟨hreg, hctrl⟩) rfl h
  | writex a v =>
    obtain ⟨-, rfl⟩ := Prod.mk.inj (Option.some.inj h)
    rw [writex_lua]
  | _ =>
    obtain ⟨-, rfl⟩ := Prod.mk.inj (Option.some.inj h)
    rfl

/-! ## What is not kept -/

/-- With a command the hook does it, whatever it is given. -/
lemma sfrCacheCtrl_transfers (bus : AccessBus (Globals ρ)) (script : Script (Globals ρ))
    {m : Machine (Globals ρ)} (hm : SpiCommand m.lua) (d : LuaInt) :
    ∃ u ∈ ((sfrCacheCtrl true d).expand (luaSteps bus)).visits (accessExec script) m,
      u.1.OfTransfer := by
  by_cases h5 : m.lua.spisRcmd = 5
  · refine ⟨(.lua (.set { m.lua with spisData0 := 0 }), m), List.mem_cons_of_mem _ ?_, trivial⟩
    change _ ∈ (Prog.expand _ ((if m.lua.spisRcmd = 5 then _ else _) >>= _)).visits _ m
    rw [if_pos h5]
    exact Prog.mem_visits_node _ _ _
  · have hbb : m.lua.spisRcmd = 0xbb := hm.resolve_left h5
    refine ⟨(.lua (.peekRom (unpackedAddr ((m.lua.spisAddr2 <<< 16) ||| (m.lua.spisAddr1 <<< 8) |||
      m.lua.spisAddr0) + 0)), m), List.mem_cons_of_mem _ ?_, trivial⟩
    change _ ∈ (Prog.expand _ ((if m.lua.spisRcmd = 5 then _ else
      when (m.lua.spisRcmd = 0xbb) _) >>= _)).visits _ m
    rw [if_neg h5, decide_eq_true hbb, when, if_pos rfl]
    exact Prog.mem_visits_node _ _ _

/-- So with a command every write to `CACHE_CTRL` transfers data, whatever is written. -/
lemma cacheCtrl_transfers (htrap : m.ramsfrtrap CACHE_CTRL = true) (hm : SpiCommand m.lua) :
    ∃ u ∈ (cpuSteps chip.script (.writed CACHE_CTRL x)).visits (accessExec chip.script) m,
      u.1.OfTransfer := by
  obtain ⟨u, hu, htransfer⟩ := sfrCacheCtrl_transfers
    (accessBusAt chip.script chip.script.ccalls) chip.script (m := m.setSfr CACHE_CTRL x) hm
    (luaOfByte ((m.setSfr CACHE_CTRL x).sfr CACHE_CTRL))
  refine ⟨u, Prog.mem_visits_bind_of_some (Accesses.run_trapped _) ?_, htransfer⟩
  rw [htrap, if_pos rfl]
  refine Prog.mem_visits_bind (Prog.mem_visits_bind_of_some (Accesses.run_store _ _) ?_)
  refine Prog.mem_visits_bind_of_some (Accesses.run_lua _) ?_
  rw [ramdHooks_cacheCtrl]
  exact Prog.mem_visits_bind_of_some (Accesses.run_load _) (Prog.mem_visits_bind hu)

/-! ## Events -/

/-- The state an event starts in has the globals of the one before. -/
lemma eventStart_lua (e : Event) : (eventStart m e).lua = m.lua := by
  cases e with
  | insn =>
    rw [eventStart]
    obtain ⟨l, hl | ⟨x, y, z, hl⟩⟩ := m.pollIrq_eq
    · rw [hl]
      rfl
    · rw [hl]
      rfl
  | poke addr v => rfl
  | uart d => rfl

/-- If an event asks whenever it writes `CACHE_CTRL`, nothing happens without a request. -/
lemma Asks.onRequest (h : Asks chip.script m e) : OnRequest chip.script m e where
  ops v hv y hy k hne := by
    by_contra hno
    exact hne (cpuExec_spiData (h v hv) hy hno)
  boundary m' hm' k hne := by
    by_contra hno
    push Not at hno
    rcases run_eventCode hm' with ⟨d, rfl⟩ | hcode
    · obtain rfl := Option.some.inj hm'
      refine hne ?_
      unfold uartListener
      split_ifs
      · rfl
      · rfl
    · refine hne (Prog.run_invariant_of_visits (I := fun m' => spiData m'.lua k = spiData m.lua k)
        (fun v hv y hm hy => ?_) ?_ hcode)
      · exact (cpuExec_spiData (h v hv) hy (hno v hv)).trans hm
      · rw [eventStart_lua]
  quiet v hv x hx hbit := by
    have hidle : ¬SpiCommand v.2.lua := (h v hv x hx).resolve_left (not_not_intro hbit)
    rw [hx]
    intro u hu
    exact not_ofTransfer_of_eq_get
      (demand_of_mem_visits (fun o => leaves_of_eq_get) (cacheCtrl_idle hidle) rfl u hu)

/-- If a write neither sets bit 2 nor finds the interface idle, something is transferred unasked. -/
lemma OnRequest.asks (htrap : ∀ v ∈ visited chip.script m e, v.2.ramsfrtrap = sfrInitTrap)
    (h : OnRequest chip.script m e) : Asks chip.script m e := by
  intro v hv x hx
  by_contra hno
  push Not at hno
  obtain ⟨u, hu, htransfer⟩ := cacheCtrl_transfers (x := x) (by rw [htrap v hv]; rfl) hno.2
  rw [← hx] at hu
  exact h.quiet v hv x hx hno.1 u hu htransfer

/-! ## Runs -/

/-- In every run of every firmware, the data registers change on request only exactly if every write
to `CACHE_CTRL` sets bit 2 or finds no command in `SPI_S_RCMD`. The last event may fail half-way. -/
theorem run_onRequest_iff (chip : Chip) {heap : ℕ → Buffer} {file : List Byte}
    {m₀ m : Machine (Globals chip.Indacc)} (hboot : boot chip.script heap file = some m₀)
    {tr : List (Machine (Globals chip.Indacc) × Event)} (hrun : Run (Happens chip.script) m₀ tr m)
    (e : Event) : (∀ x ∈ tr ++ [(m, e)], OnRequest chip.script x.1 x.2) ↔
      ∀ x ∈ tr ++ [(m, e)], Asks chip.script x.1 x.2 := by
  have htrap := run_visited (I := fun m => m.ramsfrtrap = sfrInitTrap)
    (fun _ _ _ _ hm h => (cpuExec_setup h).ramsfrtrap.trans hm)
    (fun m hm => (pollIrq_setup m).ramsfrtrap.trans hm)
    (fun d m hm => (uartListener_setup d m).ramsfrtrap.trans hm) hrun (boot_setup hboot).1 e
  exact forall₂_congr fun x hx => ⟨fun h => h.asks (htrap x hx), fun h => h.onRequest⟩

/-- The theorem for a firmware that puts `0x11` into `SPI_S_DATA0` and 5 into `SPI_S_RCMD`, and then
asks for the transfer. It clears the register, and nothing else has changed the data. -/
theorem run_onRequest_iff_command : ∃ m₀ m₁ m₂ m : Machine (Globals Rtl8372.Indacc),
    (∀ x ∈ [(m₀, Event.insn), (m₁, .insn)] ++ [(m₂, .insn)], OnRequest Rtl8372.script x.1 x.2) ∧
      spiData m₂.lua 0 = 0x11 ∧ happen Rtl8372.script .insn m₂ = some m ∧
      spiData m.lua 0 = 0 := by
  have heval : ((boot Rtl8372.script (fun _ => default)
      [0x75, 0xac, 0x11, 0x75, 0xb1, 0x05, 0x75, 0x80, 0x04]).bind fun m₀ =>
        (happen Rtl8372.script .insn m₀).bind fun m₁ =>
          (happen Rtl8372.script .insn m₁).bind fun m₂ =>
            (happen Rtl8372.script .insn m₂).map fun m =>
              ([m₀, m₁, m₂].all fun m => decide (Asks Rtl8372.script m .insn),
                spiData m₂.lua 0, spiData m.lua 0)) = some (true, 0x11, 0) := by
    decide +kernel
  obtain ⟨m₀, hboot, heval⟩ := Option.bind_eq_some_iff.1 heval
  obtain ⟨m₁, hdata, heval⟩ := Option.bind_eq_some_iff.1 heval
  obtain ⟨m₂, hrcmd, heval⟩ := Option.bind_eq_some_iff.1 heval
  obtain ⟨m, hctrl, hval⟩ := Option.map_eq_some_iff.1 heval
  simp only [Prod.mk.injEq, List.all_cons, List.all_nil, Bool.and_eq_true, decide_eq_true_eq,
    and_true] at hval
  obtain ⟨⟨hasks, hasks₁, hasks₂⟩, hbefore, hafter⟩ := hval
  have hrun : Run (Happens Rtl8372.script) m₀ [(m₀, .insn), (m₁, .insn)] m₂ :=
    .head hdata (.head hrcmd (.refl m₂))
  refine ⟨m₀, m₁, m₂, m, (run_onRequest_iff .rtl8372 hboot hrun .insn).2 ?_, hbefore, hctrl, hafter⟩
  simpa using ⟨hasks, hasks₁, hasks₂⟩

/-- A firmware that puts `0x11` into `SPI_S_DATA0` and 5 into `SPI_S_RCMD` loses it by writing 0 to
`CACHE_CTRL`. -/
theorem cache_ctrl_zero_transfers : ¬∀ (chip : Chip) (heap : ℕ → Buffer) (file : List Byte)
    (m₀ m : Machine (Globals chip.Indacc)) (tr : List (Machine (Globals chip.Indacc) × Event))
    (e : Event), boot chip.script heap file = some m₀ → Run (Happens chip.script) m₀ tr m →
    ∀ x ∈ tr ++ [(m, e)], OnRequest chip.script x.1 x.2 := by
  intro hall
  have heval : ((boot Rtl8372.script (fun _ => default)
      [0x75, 0xac, 0x11, 0x75, 0xb1, 0x05, 0x75, 0x80, 0x00]).bind fun m₀ =>
        (Run.follow (happen Rtl8372.script) [.insn, .insn] m₀).bind fun m =>
          (happen Rtl8372.script .insn m).map fun m' => (spiData m.lua 0, spiData m'.lua 0,
            (visited Rtl8372.script m .insn).all fun v => !decide (v.1.Requests 0 v.2.lua))) =
      some (0x11, 0, true) := by
    decide +kernel
  obtain ⟨m₀, hboot, hrest⟩ := Option.bind_eq_some_iff.1 heval
  obtain ⟨m, hfollow, hlast⟩ := Option.bind_eq_some_iff.1 hrest
  obtain ⟨m', hstep, hdata⟩ := Option.map_eq_some_iff.1 hlast
  obtain ⟨tr, -, hrun⟩ := Run.of_follow hfollow
  obtain ⟨hbefore, hdata⟩ := Prod.mk.inj hdata
  obtain ⟨hafter, hnone⟩ := Prod.mk.inj hdata
  have hrequest := hall .rtl8372 _ _ m₀ m tr .insn hboot hrun (m, .insn)
    (List.mem_append_right _ List.mem_cons_self)
  obtain ⟨v, hv, hasked⟩ := hrequest.boundary m' hstep 0 (by rw [hbefore, hafter]; decide)
  have hno := List.all_eq_true.1 hnone v hv
  exact absurd hasked (by simpa using hno)

end Machine

end Emu51

import Emu51.Uart.Scon

/-!
# One instruction and one delivery

The instructions that change one bit of `SCON`, taken apart into accesses and followed with the
rules for updates of `SCON`. A delivery gets lost exactly if it comes after the instruction's last
load of `SCON` and before the store of what it has made of it.
-/

namespace Emu51

variable {σ : Type}

/-- Operations that access no register by address. -/
def CpuOp.Plain : CpuOp → Prop
  | .readd _ => False
  | .writed _ _ => False
  | _ => True

namespace Machine

variable {script : Script σ} {d : Byte} {m m' m₀ : Machine σ} {S : Machine σ → Prop}
  {c : Option Byte} {g : Byte → Byte} {α β : Type}

/-- The state offers an instruction the same operands. -/
structure Like (m₀ m : Machine σ) : Prop where
  ramsfrtrap : m.ramsfrtrap = sfrInitTrap
  fetch : ∀ ofs, m.fetch ofs = m₀.fetch ofs
  rx : ∀ n, m.rx n = m₀.rx n
  psw : m.sfr PSW = m₀.sfr PSW

/-- A delivery leaves the operands an instruction finds. -/
lemma closed_like : Closed d (Like m₀) := by
  intro m hm
  have hreg : (m.deliver d).reg = m.reg := by
    unfold deliver uartListener
    split_ifs <;> rfl
  refine ⟨(deliver_ramsfrtrap d m).trans hm.ramsfrtrap, fun ofs => ?_, fun n => ?_, ?_⟩
  · rw [← hm.fetch ofs]
    unfold deliver uartListener
    split_ifs <;> rfl
  · rw [← hm.rx n, rx, hreg]
    exact deliver_cell d m (regCell_ne_sfr _ n (by decide)) (regCell_ne_sfr _ n (by decide))
  · rw [← hm.psw]
    exact deliver_cell d m (by decide) (by decide)

/-! ## Operations -/

/-- An operation that accesses no register by address is a single access. -/
lemma cpuSteps_plain {o : CpuOp} (ho : o.Plain) :
    cpuSteps script o = .node (.cpu o) .done := by
  cases o <;> first | exact absurd ho id | rfl

/-- Such an operation neither loads nor stores `SCON`. -/
lemma quiet_of_plain {o : CpuOp} (ho : o.Plain) : (Access.cpu o : Access σ).Quiet := by
  cases o <;> first | exact absurd ho id | trivial

/-- Code that begins with such an operation begins with that single access. -/
lemma expand_plain {o : CpuOp} (ho : o.Plain) (k : o.Res → Cpu α) :
    (Prog.node o k).expand (cpuSteps script) =
      .node (.cpu o) fun r => (k r).expand (cpuSteps script) := by
  rw [Prog.expand, cpuSteps_plain ho]
  rfl

/-- The rule for reading an operand: the code goes on with the value of the state before. -/
lemma Scons.operand (hg : KeepsRi g) {o : CpuOp} (ho : o.Plain) {k : o.Res → Cpu α} (r₀ : o.Res)
    (h₀ : ∀ m, Like m₀ m → cpuExec script o m = some (r₀, m))
    (hk : Scons script d (Like m₀) c g ((k r₀).expand (cpuSteps script))) :
    Scons script d (Like m₀) c g ((Prog.node o k).expand (cpuSteps script)) := by
  rw [expand_plain ho]
  refine .known closed_like hg (quiet_of_plain ho) r₀ ?_ hk
  intro m r m' hm h
  have hsame : cpuExec script o m = some (r, m') := h
  rw [h₀ m hm] at hsame
  obtain ⟨rfl, rfl⟩ := Prod.mk.inj (Option.some.inj hsame)
  exact ⟨rfl, hm⟩

/-- A fetched byte is that of the state before, and the code goes on with it. -/
lemma Scons.fetch (hg : KeepsRi g) (ofs : Word) {k : Byte → Cpu α}
    (hk : Scons script d (Like m₀) c g ((k (m₀.fetch ofs)).expand (cpuSteps script))) :
    Scons script d (Like m₀) c g ((Prog.node (.fetch ofs) k).expand (cpuSteps script)) := by
  refine .operand hg (o := .fetch ofs) trivial (m₀.fetch ofs) (fun m hm => ?_) hk
  rw [← hm.fetch ofs]
  rfl

/-- A register of the window is that of the state before, and the code goes on with it. -/
lemma Scons.getRx (hg : KeepsRi g) (n : BitVec 3) {k : Byte → Cpu α}
    (hk : Scons script d (Like m₀) c g ((k (m₀.rx n)).expand (cpuSteps script))) :
    Scons script d (Like m₀) c g ((Prog.node (.getRx n) k).expand (cpuSteps script)) := by
  refine .operand hg (o := .getRx n) trivial (m₀.rx n) (fun m hm => ?_) hk
  rw [← hm.rx n]
  rfl

/-- The rule for reading a register whose contents do not matter. -/
lemma Scons.get (hg : KeepsRi g) (q : CoreReg) {k : Byte → Cpu α}
    (hk : ∀ v, Scons script d (Like m₀) c g ((k v).expand (cpuSteps script))) :
    Scons script d (Like m₀) c g ((Prog.node (.get q) k).expand (cpuSteps script)) := by
  refine .skip closed_like hg (o := .cpu (.get q)) trivial ?_ hk
  intro m r m' hm h
  obtain ⟨-, rfl⟩ := Prod.mk.inj (Option.some.inj h)
  exact hm

/-- From here on the operands do not matter, only that the traps are as they were. -/
lemma Scons.forget {p : Accesses σ α} (h : Scons script d Trapping c g p) :
    Scons script d (Like m₀) c g p :=
  h.weaken (fun _ hm => hm.ramsfrtrap) fun _ _ => rfl

/-- Code that accesses no register by address does not matter, and the rest decides. -/
lemma Scons.code (hg : KeepsRi g) {p : Cpu α} (hp : p.All CpuOp.Plain) {q : α → Cpu β}
    (hk : ∀ a, Scons script d Trapping c g ((q a).expand (cpuSteps script))) :
    Scons script d Trapping c g ((p >>= q).expand (cpuSteps script)) := by
  induction p with
  | done a => exact hk a
  | node o k ih =>
    rw [Prog.node_bind, expand_plain hp.1]
    exact .skip closed_trapping hg (quiet_of_plain hp.1) (trapping_step (quiet_of_plain hp.1))
      fun r => ih r (hp.2 r)

/-- Such code at the end of an instruction stores nothing more in `SCON`. -/
lemma Scons.rest {p : Cpu α} (hp : p.All CpuOp.Plain) :
    Scons script d Trapping none id (p.expand (cpuSteps script)) := by
  rw [← Prog.bind_done p]
  exact .code KeepsRi.id hp fun a => .done a

/-! ## Bits -/

/-- The instruction's bit is in `SCON`, and it is not `RI`. -/
lemma bitaddr_scon {bit : Byte} (h : 0x98 < bit ∧ bit ≤ 0x9f) :
    Cpu.bitaddr bit = SCON ∧ Cpu.bitMask bit &&& SCON_RI = 0 := by
  revert bit
  decide

/-- Clearing bits other than `RI` keeps `RI`. -/
lemma keepsRi_andNot {mask : Byte} (h : mask &&& SCON_RI = 0) : KeepsRi (· &&& ~~~mask) where
  set x := by
    have hri : SCON_RI &&& ~~~mask = SCON_RI := andNot_of_and_eq_zero (by rwa [BitVec.and_comm])
    rw [BitVec.and_or_distrib_right, hri]
  clear x hx := by
    rw [BitVec.and_assoc, BitVec.and_comm (~~~mask), ← BitVec.and_assoc, hx]
    exact BitVec.zero_and

/-- Setting bits other than `RI` keeps `RI`. -/
lemma keepsRi_or {mask : Byte} (h : mask &&& SCON_RI = 0) : KeepsRi (· ||| mask) where
  set x := by rw [BitVec.or_assoc, BitVec.or_comm SCON_RI, ← BitVec.or_assoc]
  clear x hx := by
    rw [BitVec.and_or_distrib_right, hx, h]
    exact BitVec.or_zero

/-- Two functions that keep `RI` keep it one after the other. -/
lemma KeepsRi.comp {f : Byte → Byte} (hg : KeepsRi g) (hf : KeepsRi f) :
    KeepsRi fun x => g (f x) where
  set x := by rw [hf.set, hg.set]
  clear x hx := hg.clear _ (hf.clear x hx)

/-- Setting a bit other than `RI` to a value keeps `RI`. -/
lemma keepsRi_withBit {mask : Byte} (h : mask &&& SCON_RI = 0) (b : Bool) :
    KeepsRi fun x => Cpu.withBit x mask b := by
  cases b with
  | false => exact keepsRi_andNot h
  | true => exact (keepsRi_or h).comp (keepsRi_andNot h)

/-- Complementing a bit with its mask is writing the complement of its value. -/
lemma xor_bitMask (bit x : Byte) :
    x ^^^ Cpu.bitMask bit = Cpu.withBit x (Cpu.bitMask bit) (!(x &&& Cpu.bitMask bit != 0)) := by
  have hall : ∀ i : Fin 8, ∀ x : Byte, x ^^^ (1 <<< i.val) =
      Cpu.withBit x (1 <<< i.val) (!(x &&& (1 <<< i.val) != 0)) := by
    decide +kernel
  have hlt : (bit &&& 7).toNat < 8 := by
    have hle : bit.toNat &&& 7 ≤ 7 := Nat.and_le_right
    rw [BitVec.toNat_and]
    exact Nat.lt_succ_of_le hle
  exact hall ⟨(bit &&& 7).toNat, hlt⟩ x

/-- What is known except for `RI` is known under the mask. -/
lemma and_mask_of_or_ri {x v mask : Byte} (hmask : mask &&& SCON_RI = 0)
    (h : x ||| SCON_RI = v ||| SCON_RI) : x &&& mask = v &&& mask := by
  have hri : SCON_RI &&& mask = 0 := by rwa [BitVec.and_comm]
  have hand : ∀ y : Byte, (y ||| SCON_RI) &&& mask = y &&& mask := by
    intro y
    rw [BitVec.and_or_distrib_right, hri]
    exact BitVec.or_zero
  rw [← hand x, h, hand v]

/-- Inverting a bit other than `RI` keeps `RI`. -/
lemma keepsRi_xor (bit : Byte) (h : Cpu.bitMask bit &&& SCON_RI = 0) :
    KeepsRi (· ^^^ Cpu.bitMask bit) where
  set x := by
    have hbit : (x ||| SCON_RI) &&& Cpu.bitMask bit = x &&& Cpu.bitMask bit :=
      and_mask_of_or_ri h (by rw [BitVec.or_assoc, BitVec.or_self])
    rw [xor_bitMask, xor_bitMask, hbit]
    exact (keepsRi_withBit h _).set x
  clear x hx := by
    rw [xor_bitMask]
    exact (keepsRi_withBit h _).clear x hx

/-- `writeb` on a bit of `SCON` loads the register, changes the bit and stores it. -/
lemma Scons.writeb {bit : Byte} (hbit : 0x98 < bit ∧ bit ≤ 0x9f) (b : Bool) {q : Unit → Cpu α}
    (hq : (q ()).All CpuOp.Plain) :
    Scons script d Trapping none (fun x => Cpu.withBit x (Cpu.bitMask bit) b)
      ((Cpu.writeb bit b >>= q).expand (cpuSteps script)) := by
  obtain ⟨haddr, hmask⟩ := bitaddr_scon hbit
  have hri := keepsRi_withBit hmask b
  unfold Cpu.writeb
  rw [haddr]
  exact .readd_scon_store hri hri (fun _ => rfl) fun v => .writed_scon KeepsRi.id (.rest hq)

/-- `CLR` of a bit of `SCON` loads the register, clears the bit and stores it. -/
lemma clrB_scons {q : Unit → Cpu α} (hq : (q ()).All CpuOp.Plain)
    (hbit : 0x98 < m₀.fetch 1 ∧ m₀.fetch 1 ≤ 0x9f) :
    Scons script d (Like m₀) none (· &&& ~~~Cpu.bitMask (m₀.fetch 1))
      ((Ops.clrB.code >>= q).expand (cpuSteps script)) := by
  have hri := keepsRi_andNot (bitaddr_scon hbit).2
  exact .fetch hri 1 (.forget (.writeb hbit false hq))

/-- `SETB` of a bit of `SCON` loads the register, sets the bit and stores it. -/
lemma setB_scons {q : Unit → Cpu α} (hq : (q ()).All CpuOp.Plain)
    (hbit : 0x98 < m₀.fetch 1 ∧ m₀.fetch 1 ≤ 0x9f) :
    Scons script d (Like m₀) none (· ||| Cpu.bitMask (m₀.fetch 1))
      ((Ops.setB.code >>= q).expand (cpuSteps script)) := by
  obtain ⟨haddr, hmask⟩ := bitaddr_scon hbit
  have hri := keepsRi_or hmask
  refine .fetch hri 1 (.forget ?_)
  change Scons script d Trapping none _ ((Prog.node (.readd (Cpu.bitaddr (m₀.fetch 1))) fun v =>
    Cpu.writed (Cpu.bitaddr (m₀.fetch 1)) (v ||| Cpu.bitMask (m₀.fetch 1)) >>= q).expand _)
  rw [haddr]
  exact .readd_scon_store hri hri (fun _ => rfl) fun v => .writed_scon KeepsRi.id (.rest hq)

/-- `MOV bit, C` to a bit of `SCON` loads the register, puts the carry into the bit and stores it.
-/
lemma movBitC_scons {q : Unit → Cpu α} (hq : (q ()).All CpuOp.Plain)
    (hbit : 0x98 < m₀.fetch 1 ∧ m₀.fetch 1 ≤ 0x9f) :
    Scons script d (Like m₀) none
      (fun x => Cpu.withBit x (Cpu.bitMask (m₀.fetch 1)) (m₀.sfr PSW &&& PSW_C != 0))
      ((Ops.movBitC.code >>= q).expand (cpuSteps script)) := by
  have hri := keepsRi_withBit (bitaddr_scon hbit).2 (m₀.sfr PSW &&& PSW_C != 0)
  refine .fetch hri 1 ?_
  refine .operand hri (o := .get .psw) trivial (m₀.sfr PSW) (fun m hm => ?_) ?_
  · rw [← hm.psw]
    rfl
  · exact .forget (.writeb hbit _ hq)

/-- `CPL` reads the bit and then reads `SCON` again to write it. -/
lemma cplBit_scons {q : Unit → Cpu α} (hq : (q ()).All CpuOp.Plain)
    (hbit : 0x98 < m₀.fetch 1 ∧ m₀.fetch 1 ≤ 0x9f) :
    Scons script d (Like m₀) none (· ^^^ Cpu.bitMask (m₀.fetch 1))
      ((Ops.cplBit.code >>= q).expand (cpuSteps script)) := by
  obtain ⟨haddr, hmask⟩ := bitaddr_scon hbit
  have hri := keepsRi_xor (m₀.fetch 1) hmask
  refine .fetch hri 1 (.fetch hri 1 (.forget ?_))
  change Scons script d Trapping none _ ((Prog.node (.readd (Cpu.bitaddr (m₀.fetch 1))) fun v =>
    Cpu.writeb (m₀.fetch 1) (!(v &&& Cpu.bitMask (m₀.fetch 1) != 0)) >>= q).expand _)
  rw [haddr]
  refine .readd_scon hri fun v => ?_
  refine (Scons.writeb hbit (!(v &&& Cpu.bitMask (m₀.fetch 1) != 0)) hq).weaken
    (fun _ hm => hm.1) fun m hm => ?_
  rw [Option.getD_none, xor_bitMask, and_mask_of_or_ri hmask hm.2]

/-- `JBC` reads the bit and, if it is set, reads `SCON` again to clear it. -/
lemma jbc_scons {q : Unit → Cpu α} (hq : (q ()).All CpuOp.Plain)
    (hbit : 0x98 < m₀.fetch 1 ∧ m₀.fetch 1 ≤ 0x9f) :
    Scons script d (Like m₀) none (· &&& ~~~Cpu.bitMask (m₀.fetch 1))
      ((Ops.jbc.code >>= q).expand (cpuSteps script)) := by
  obtain ⟨haddr, hmask⟩ := bitaddr_scon hbit
  have hri := keepsRi_andNot hmask
  have hadvance : (Cpu.advance 3).All CpuOp.Plain :=
    ⟨trivial, fun _ => ⟨trivial, fun _ => trivial⟩⟩
  refine .fetch hri 1 (.fetch hri 2 (.forget ?_))
  change Scons script d Trapping none _ ((Cpu.advance 3 >>= fun _ =>
    Prog.node (.readd (Cpu.bitaddr (m₀.fetch 1))) fun v =>
      (if v &&& Cpu.bitMask (m₀.fetch 1) ≠ 0 then do
        let v' ← Cpu.readd (Cpu.bitaddr (m₀.fetch 1))
        Cpu.writed (Cpu.bitaddr (m₀.fetch 1)) (v' &&& ~~~Cpu.bitMask (m₀.fetch 1))
        Cpu.branch (m₀.fetch 2)
      else pure ()) >>= q).expand _)
  rw [haddr]
  refine .code hri hadvance fun _ => .readd_scon hri fun v => ?_
  dsimp only
  split
  · refine Scons.weaken (T := Trapping) (f := (· &&& ~~~Cpu.bitMask (m₀.fetch 1))) ?_
      (fun _ hm => hm.1) fun _ _ => rfl
    refine .readd_scon_store hri hri (fun _ => rfl) fun v' => .writed_scon KeepsRi.id ?_
    have hbranch : (Cpu.branch (m₀.fetch 2)).All CpuOp.Plain :=
      ⟨trivial, fun _ => ⟨trivial, fun _ => trivial⟩⟩
    exact .code KeepsRi.id hbranch fun _ => .rest hq
  · next hclear =>
    rw [ne_eq, not_not] at hclear
    refine (Scons.rest hq).weaken (fun _ hm => hm.1) fun m hm => ?_
    rw [Option.getD_none, id, andNot_of_and_eq_zero]
    rw [and_mask_of_or_ri hmask hm.2, hclear]

/-! ## Transmissions -/

/-- An instruction that reads `SBUF`, computes and writes `SBUF`. -/
lemma modify_scons {p : Byte → Cpu Byte} (hp : ∀ v, (p v).All CpuOp.Plain) {q : Unit → Cpu α}
    (hq : (q ()).All CpuOp.Plain) :
    Scons script d Trapping none (· ||| SCON_TI)
      ((Prog.node (.readd SBUF) fun v => p v >>= fun w => Prog.node (.writed SBUF w) q).expand
        (cpuSteps script)) :=
  .readd_sbuf closed_trapping (fun _ h => h) keepsRi_ti fun v =>
    .code keepsRi_ti (hp v) fun _ => .writed_sbuf (.rest hq)

/-- `INC SBUF` and the like send a byte, and `poke_sfr` sets `TI` in what it loads. -/
lemma modIram_scons (f : Byte → Byte) {q : Unit → Cpu α} (hq : (q ()).All CpuOp.Plain)
    (hdest : m₀.fetch 1 = SBUF) :
    Scons script d (Like m₀) none (· ||| SCON_TI)
      (((Ops.modIram f).code >>= q).expand (cpuSteps script)) := by
  refine .fetch keepsRi_ti 1 (.fetch keepsRi_ti 1 (.forget ?_))
  rw [hdest]
  exact modify_scons (p := fun v => .done (f v)) (fun _ => trivial) hq

/-- `INC @Ri` and `DEC @Ri` do so where `Ri` holds the address of `SBUF`. -/
lemma modAtr_scons (f : Byte → Byte) (i : BitVec 3) {q : Unit → Cpu α}
    (hq : (q ()).All CpuOp.Plain) (hdest : m₀.rx i = SBUF) :
    Scons script d (Like m₀) none (· ||| SCON_TI)
      (((Ops.modAtr f i).code >>= q).expand (cpuSteps script)) := by
  refine .getRx keepsRi_ti i (.getRx keepsRi_ti i (.forget ?_))
  rw [hdest]
  exact modify_scons (p := fun v => .done (f v)) (fun _ => trivial) hq

/-- `XCHD A, @Ri` does so where `Ri` holds the address of `SBUF`. -/
lemma xchdAtr_scons (i : BitVec 3) {q : Unit → Cpu α} (hq : (q ()).All CpuOp.Plain)
    (hdest : m₀.rx i = SBUF) :
    Scons script d (Like m₀) none (· ||| SCON_TI)
      (((Ops.xchdAtr i).code >>= q).expand (cpuSteps script)) := by
  refine .get keepsRi_ti .acc fun acc => .getRx keepsRi_ti i ?_
  rw [hdest]
  refine .readd_sbuf closed_like (fun _ hm => hm.ramsfrtrap) keepsRi_ti fun v => ?_
  refine .getRx keepsRi_ti i (.forget ?_)
  rw [hdest]
  refine .writed_sbuf (.code (p := Cpu.set .acc _) KeepsRi.id ⟨trivial, fun _ => trivial⟩ ?_)
  exact fun _ => .rest hq

/-- A move to `SBUF` of a byte that is read without `readd`. -/
lemma toIram_scons {x : Cpu Byte} (hx : x.All CpuOp.Plain) (n : ℕ) {q : Unit → Cpu α}
    (hq : (q ()).All CpuOp.Plain) (hdest : m₀.fetch 1 = SBUF) :
    Scons script d (Like m₀) none (· ||| SCON_TI)
      (((Ops.toIram x n).code >>= q).expand (cpuSteps script)) := by
  refine .fetch keepsRi_ti 1 (.forget ?_)
  rw [hdest]
  change Scons script d Trapping none _
    (((x >>= fun v => Cpu.writed SBUF v) >>= q).expand (cpuSteps script))
  rw [Prog.bind_assoc]
  exact .code keepsRi_ti hx fun v => .writed_sbuf (.rest hq)

/-- `MOV SBUF, direct` does so, whatever the source is, as long as its hook copies `SCON` at most.
-/
lemma mov85_scons (hs : script.ReadsCopyScon) {q : Unit → Cpu α} (hq : (q ()).All CpuOp.Plain)
    (hdest : m₀.fetch 2 = SBUF) :
    Scons script d (Like m₀) none (· ||| SCON_TI)
      ((Ops.mov85.code >>= q).expand (cpuSteps script)) := by
  refine .fetch keepsRi_ti 2 (.fetch keepsRi_ti 1 (.forget ?_))
  rw [hdest]
  exact .readd hs keepsRi_ti _ _ fun v => .writed_sbuf (.rest hq)

/-- `XCH A, SBUF` does so with the byte from the accumulator. -/
lemma xchAd_scons {q : Unit → Cpu α} (hq : (q ()).All CpuOp.Plain) (hdest : m₀.fetch 1 = SBUF) :
    Scons script d (Like m₀) none (· ||| SCON_TI)
      ((Ops.xchAd.code >>= q).expand (cpuSteps script)) := by
  refine .get keepsRi_ti .acc fun acc => .fetch keepsRi_ti 1 (.forget ?_)
  rw [hdest]
  refine .readd_sbuf closed_trapping (fun _ h => h) keepsRi_ti fun v => ?_
  refine .code (p := Cpu.set .acc v) keepsRi_ti ⟨trivial, fun _ => trivial⟩ fun _ => ?_
  exact .writed_sbuf (.rest hq)

/-- `DJNZ SBUF, rel` does so with the byte counted down. -/
lemma djnzI_scons {q : Unit → Cpu α} (hq : (q ()).All CpuOp.Plain) (hdest : m₀.fetch 1 = SBUF) :
    Scons script d (Like m₀) none (· ||| SCON_TI)
      ((Ops.djnzI.code >>= q).expand (cpuSteps script)) := by
  refine .fetch keepsRi_ti 1 (.fetch keepsRi_ti 2 (.forget ?_))
  rw [hdest]
  refine .readd_sbuf closed_trapping (fun _ h => h) keepsRi_ti fun v => ?_
  have hbranch : (Cpu.branch (m₀.fetch 2)).All CpuOp.Plain :=
    ⟨trivial, fun _ => ⟨trivial, fun _ => trivial⟩⟩
  change Scons script d Trapping none _ (((if v - 1 ≠ 0 then
      Cpu.branch (m₀.fetch 2) >>= fun _ => Cpu.writed SBUF (v - 1)
    else Cpu.writed SBUF (v - 1)) >>= q).expand (cpuSteps script))
  split
  · rw [Prog.bind_assoc]
    exact .code keepsRi_ti hbranch fun _ => .writed_sbuf (.rest hq)
  · exact .writed_sbuf (.rest hq)

/-- The arithmetic unit accesses no register by address. -/
lemma aluOp_plain (o : AluOp) (x y : Byte) : (Cpu.aluOp o x y).All CpuOp.Plain := by
  cases o <;> simp [Cpu.aluOp, Cpu.alu, Cpu.get, Cpu.set, CpuOp.Plain]

/-- A computation whose result is written to `SBUF` sends it, and `TI` is set then. -/
lemma aluOp_scons (o : AluOp) (x y : Byte) {q : Unit → Cpu α} (hq : (q ()).All CpuOp.Plain) :
    Scons script d Trapping none (· ||| SCON_TI)
      (((Cpu.aluOp o x y >>= fun res => Cpu.writed SBUF res) >>= q).expand (cpuSteps script)) := by
  rw [Prog.bind_assoc]
  exact .code keepsRi_ti (aluOp_plain o x y) fun _ => .writed_sbuf (.rest hq)

/-- `ORL SBUF, A` and the like send a byte and set `TI` in the `SCON` that is loaded then. -/
lemma gen2Ia_scons (o : AluOp) {q : Unit → Cpu α} (hq : (q ()).All CpuOp.Plain)
    (hdest : m₀.fetch 1 = SBUF) :
    Scons script d (Like m₀) none (· ||| SCON_TI)
      (((Ops.gen2Ia o).code >>= q).expand (cpuSteps script)) := by
  refine .fetch keepsRi_ti 1 (.forget ?_)
  rw [hdest]
  refine .readd_sbuf closed_trapping (fun _ h => h) keepsRi_ti fun v => ?_
  refine .code (p := Cpu.get .acc) keepsRi_ti ⟨trivial, fun _ => trivial⟩ fun acc => ?_
  exact aluOp_scons o v acc hq

/-- `ORL SBUF, #imm` and the like do so, too. -/
lemma gen2Id_scons (o : AluOp) {q : Unit → Cpu α} (hq : (q ()).All CpuOp.Plain)
    (hdest : m₀.fetch 1 = SBUF) :
    Scons script d (Like m₀) none (· ||| SCON_TI)
      (((Ops.gen2Id o).code >>= q).expand (cpuSteps script)) := by
  refine .fetch keepsRi_ti 1 (.forget ?_)
  rw [hdest]
  refine .readd_sbuf closed_trapping (fun _ h => h) keepsRi_ti fun v => ?_
  refine .code (p := Cpu.fetch 2) keepsRi_ti ⟨trivial, fun _ => trivial⟩ fun imm => ?_
  exact aluOp_scons o v imm hq

/-! ## All instructions -/

/-- The bit that an instruction changes in `SCON` is not `RI`. -/
lemma keepsRi_updateScon {l : Label} (h : l.ChangesScon m₀) : KeepsRi (l.updateScon m₀) := by
  cases l with
  | jbc => exact keepsRi_andNot (bitaddr_scon h).2
  | clrB => exact keepsRi_andNot (bitaddr_scon h).2
  | setB => exact keepsRi_or (bitaddr_scon h).2
  | cplBit => exact keepsRi_xor _ (bitaddr_scon h).2
  | movBitC => exact keepsRi_withBit (bitaddr_scon h).2 _
  | _ => exact keepsRi_ti

/-- Where the target is a direct one, it is this one. -/
lemma dest_of_or {a b : Byte} (h : some a = some b ∨ none = some b) : a = b :=
  h.elim Option.some.inj fun h => absurd h (Option.some_ne_none b).symm

/-- Where the target is `@Ri`, it is that one. -/
lemma atRi_of_or {a b : Byte} (h : none = some b ∨ some a = some b) : a = b := dest_of_or h.symm

/-- The code of every instruction that changes a bit of `SCON`. -/
theorem record_scons (hs : script.ReadsCopyScon) {l : Label} (h : l.ChangesScon m₀) (op : Byte)
    {q : Unit → Cpu α} (hq : (q ()).All CpuOp.Plain) :
    Scons script d (Like m₀) none (l.updateScon m₀)
      (((l.record op).code >>= q).expand (cpuSteps script)) := by
  have hget : ∀ r, (Cpu.get r).All CpuOp.Plain := fun r => ⟨trivial, fun _ => trivial⟩
  have hfetch : ∀ ofs, (Cpu.fetch ofs).All CpuOp.Plain := fun ofs => ⟨trivial, fun _ => trivial⟩
  have hrx : ∀ n, (Cpu.getRx n).All CpuOp.Plain := fun n => ⟨trivial, fun _ => trivial⟩
  have hindirect : ∀ i, (Ops.indirect i).All CpuOp.Plain := fun i =>
    ⟨trivial, fun _ => ⟨trivial, fun _ => trivial⟩⟩
  have hpop : Cpu.pop.All CpuOp.Plain :=
    ⟨trivial, fun _ => ⟨trivial, fun _ => ⟨trivial, fun _ => trivial⟩⟩⟩
  cases l with
  | jbc => exact jbc_scons hq h
  | clrB => exact clrB_scons hq h
  | setB => exact setB_scons hq h
  | cplBit => exact cplBit_scons hq h
  | movBitC => exact movBitC_scons hq h
  | incIram => exact modIram_scons _ hq (dest_of_or h)
  | decIram => exact modIram_scons _ hq (dest_of_or h)
  | incAtr0 => exact modAtr_scons _ 0 hq (atRi_of_or h)
  | incAtr1 => exact modAtr_scons _ 1 hq (atRi_of_or h)
  | decAtr0 => exact modAtr_scons _ 0 hq (atRi_of_or h)
  | decAtr1 => exact modAtr_scons _ 1 hq (atRi_of_or h)
  | xchdAtr0 => exact xchdAtr_scons 0 hq (atRi_of_or h)
  | xchdAtr1 => exact xchdAtr_scons 1 hq (atRi_of_or h)
  | mov75 => exact toIram_scons (hfetch 2) 3 hq (dest_of_or h)
  | mov86 => exact toIram_scons (hindirect 0) 2 hq (dest_of_or h)
  | mov87 => exact toIram_scons (hindirect 1) 2 hq (dest_of_or h)
  | movDr => exact toIram_scons (hrx _) 2 hq (dest_of_or h)
  | movF5 => exact toIram_scons (hget .acc) 2 hq (dest_of_or h)
  | popD => exact toIram_scons hpop 2 hq (dest_of_or h)
  | mov85 => exact mov85_scons hs hq (dest_of_or h)
  | xchAd => exact xchAd_scons hq (dest_of_or h)
  | djnzI => exact djnzI_scons hq (dest_of_or h)
  | gen2Ia o => exact gen2Ia_scons o hq (dest_of_or h)
  | gen2Id o => exact gen2Id_scons o hq (dest_of_or h)
  | _ => rcases h with h | h <;> exact absurd h (Option.some_ne_none SBUF).symm

/-- So the whole instruction, from its opcode on, updates `SCON` as its label says. -/
lemma insnSteps_scons (hs : script.ReadsCopyScon) {op : Byte} (h : (insnmap op).ChangesScon m₀) :
    Scons script d (Like m₀) none ((insnmap op).updateScon m₀) (insnSteps script op) := by
  refine record_scons hs h op ?_
  split
  · exact ⟨trivial, fun _ => ⟨trivial, fun _ => trivial⟩⟩
  · trivial

/-- What the instruction makes of `SCON` by itself, without a delivery, is its label's update. -/
lemma dispatch_scon (hs : script.ReadsCopyScon) {op : Byte} (h : (insnmap op).ChangesScon m₀)
    (hm : Like m₀ m) (hrun : dispatch script op m = some m') :
    m'.sfr SCON = (insnmap op).updateScon m₀ (m.sfr SCON) := by
  obtain ⟨⟨u, m₁⟩, hrun₁, rfl⟩ := Option.map_eq_some_iff.1 hrun
  rw [← run_insnSteps] at hrun₁
  exact (insnSteps_scons (d := 0) hs h).result hm hrun₁

/-- An instruction that changes a bit of `SCON` other than `RI` and a delivery that succeeds amount
to one after the other exactly if the delivery does not come between the instruction's load of
`SCON` and the store that follows it. -/
theorem interleave_merged_iff (hs : script.ReadsCopyScon) (ht : m.ramsfrtrap = sfrInitTrap)
    (hri : m.sfr SCON &&& SCON_RI = 0) {op : Byte} (hop : (insnmap op).ChangesScon m) {n : ℕ}
    (h : interleave script op d n m = some m') :
    Merged script op d m m' ↔ ¬StoresNext (accessesAfter script op d n m) := by
  obtain ⟨⟨u, m₁⟩, hrun, rfl⟩ := Option.map_eq_some_iff.1 h
  have hlike : Like m m := ⟨ht, fun _ => rfl, fun _ => rfl, rfl⟩
  have hmerges : m₁.sfr SCON = (insnmap op).updateScon m (m.sfr SCON) ||| SCON_RI ↔
      ¬StoresNext (accessesAfter script op d n m) :=
    (insnSteps_scons hs hop).merges hlike hri hri hrun
  refine Iff.trans ⟨fun hmerged => hmerged.bits, fun hbits => ⟨hbits, ?_, ?_⟩⟩ hmerges
  · intro m₂ hm₂
    rw [deliver_scon, dispatch_scon hs hop hlike hm₂]
    exact hbits
  · intro m₂ hm₂
    rw [dispatch_scon hs hop (closed_like m hlike) hm₂, deliver_scon,
      (keepsRi_updateScon hop).set]
    exact hbits

/-- `CLR TI` with `TI` set. -/
def clearingTi : Machine Unit := (running [0xc2, 0x99]).setSfr SCON 0x02

/-- The theorem at `CLR TI` and a delivery inside it, after its store of `SCON` and before it moves
`pc`: no store comes after it, and so `RI` is kept. -/
theorem interleave_merged_iff_clr : ∃ m' : Machine Unit,
    interleave noHooks 0xc2 0x41 5 clearingTi = some m' ∧ Merged noHooks 0xc2 0x41 clearingTi m' ∧
      m'.sfr SCON = SCON_RI := by
  have heval : (interleave noHooks 0xc2 0x41 5 clearingTi).map (fun m => m.sfr SCON) =
      some SCON_RI := by
    decide +kernel
  obtain ⟨m', hm', hscon⟩ := Option.map_eq_some_iff.1 heval
  have hquiet : noHooks.ReadsCopyScon := fun _ _ _ h => nomatch h
  have hop : (insnmap 0xc2).ChangesScon clearingTi :=
    show Label.clrB.ChangesScon clearingTi from ⟨by decide, by decide⟩
  have hlast : ¬StoresNext (accessesAfter noHooks 0xc2 0x41 5 clearingTi) := by decide +kernel
  exact ⟨m', hm', (interleave_merged_iff hquiet rfl (by decide) hop hm').2 hlast, hscon⟩

/-- A delivery after the load of `SCON` by `CLR TI` leaves `RI` clear. -/
theorem clr_ti_loses_delivery : ¬∀ (n : ℕ) (m' : Machine Unit),
    interleave noHooks 0xc2 0x41 n clearingTi = some m' →
      Merged noHooks 0xc2 0x41 clearingTi m' := by
  intro hall
  have heval : (interleave noHooks 0xc2 0x41 3 clearingTi).map (fun m => m.sfr SCON) = some 0 := by
    decide +kernel
  obtain ⟨m', hm', hscon⟩ := Option.map_eq_some_iff.1 heval
  have hbits := (hall 3 m' hm').bits
  rw [hscon] at hbits
  exact absurd hbits (by decide +kernel)

end Machine

end Emu51

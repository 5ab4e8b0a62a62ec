import Emu51.Chip.SecondStack
import Emu51.Flash.ExternalMemory

/-!
# Packets

A write to `PEDMA_LEN` copies from the packet that is always waiting to external data memory, eight
bytes for each unit of the length. The copy goes on at 0 behind `0xffff`, drops what falls on pages
that cannot be written, and reads `0xff` beyond the end of the packet. From packet address `0x8000`
on the transfer goes the other way, and changes nothing.
-/

namespace Emu51

open Chip Lua

/-! ## Blocks of external memory -/

namespace Machine

section Blocks

variable {σ : Type}

/-- Store bytes one after the other from an address on. -/
def writeBlock (m : Machine σ) (a : Word) (f : ℕ → Byte) : ℕ → Machine σ
  | 0 => m
  | n + 1 => (m.writeBlock a f n).writex (a + BitVec.ofNat 16 n) (f n)

variable {rom : Buffer} {banks : List Byte} {m : Machine σ}

/-- Writing a block leaves the mapping of external data memory as it is. -/
lemma DataMem.writeBlock (h : DataMem rom banks m) (a : Word) (f : ℕ → Byte) (n : ℕ) :
    DataMem rom banks (m.writeBlock a f n) := by
  induction n with
  | zero => exact h
  | succ n ih => exact ih.writex _ _

/-- After a block is written the same addresses can be written as before. -/
lemma DataMem.writable_writeBlock (h : DataMem rom banks m) (a : Word) (f : ℕ → Byte) (n : ℕ)
    (b : Word) : (m.writeBlock a f n).Writable b ↔ m.Writable b :=
  (h.writeBlock a f n).writable_iff.trans h.writable_iff.symm

/-- What is read after a block of at most 64 KiB has been stored. -/
theorem DataMem.readx_writeBlock (h : DataMem rom banks m) (a : Word) (f : ℕ → Byte) {n : ℕ}
    (hn : n ≤ 0x10000) (b : Word) : (m.writeBlock a f n).readx b =
      if (b - a).toNat < n ∧ m.Writable b then f (b - a).toNat else m.readx b := by
  induction n with
  | zero => exact (if_neg fun hlt => absurd hlt.1 (Nat.not_lt_zero _)).symm
  | succ n ih =>
    have hlast : b = a + BitVec.ofNat 16 n ↔ (b - a).toNat = n := by
      have ha := a.isLt
      have hb := b.isLt
      rw [← BitVec.toNat_inj, BitVec.toNat_add, BitVec.toNat_ofNat, BitVec.toNat_sub]
      omega
    rw [Machine.writeBlock, (h.writeBlock a f n).readx_writex, ih (by omega)]
    by_cases heq : b = a + BitVec.ofNat 16 n
    · have hw := h.writable_writeBlock a f n (a + BitVec.ofNat 16 n)
      rw [← heq] at hw ⊢
      rw [hlast.1 heq]
      simp [hw]
    · have hne : (b - a).toNat ≠ n := fun he => heq (hlast.2 he)
      rw [if_neg fun hc => heq hc.1]
      refine if_congr (and_congr_left fun _ => ?_) rfl rfl
      omega

/-- The same stores in the memory of the process. -/
def heapWriteBlock (m : Machine σ) (base : ℕ → ℤ) (mem : ℤ → Byte) (a : Word) (f : ℕ → Byte) :
    ℕ → ℤ → Byte
  | 0 => mem
  | n + 1 => m.heapWritex base (m.heapWriteBlock base mem a f n) (a + BitVec.ofNat 16 n) (f n)

/-- Writing a block changes bytes in the buffers, never the buffers themselves. -/
lemma sameBuffers_writeBlock (m : Machine σ) (a : Word) (f : ℕ → Byte) (n : ℕ) :
    SameBuffers m (m.writeBlock a f n) := by
  induction n with
  | zero => exact ⟨rfl, fun _ => rfl⟩
  | succ n ih =>
    have hlast := (m.writeBlock a f n).sameBuffers_writex (a + BitVec.ofNat 16 n) (f n)
    exact ⟨hlast.nbuf.trans ih.nbuf, fun b => (hlast.size b).trans (ih.size b)⟩

/-- Writing a block leaves the pages of external data memory where they are. -/
lemma writeBlock_xrampage (m : Machine σ) (a : Word) (f : ℕ → Byte) (n : ℕ) :
    (m.writeBlock a f n).xrampage = m.xrampage := by
  induction n with
  | zero => rfl
  | succ n ih => exact (writex_xrampage _ _ _).trans ih

/-- They keep up with the machine, as they all go to `sram`. -/
lemma DataMem.holds_writeBlock (h : DataMem rom banks m) {base : ℕ → ℤ} {mem : ℤ → Byte}
    (hapart : m.Apart base) (hmem : m.Holds base mem) (a : Word) (f : ℕ → Byte) (n : ℕ) :
    (m.writeBlock a f n).Holds base (m.heapWriteBlock base mem a f n) := by
  induction n with
  | zero => exact hmem
  | succ n ih =>
    have hbefore := h.writeBlock a f n
    have hfn : (m.writeBlock a f n).xramfnwr = m.xramfnwr :=
      funext fun p => (hbefore.xramfnwr p).trans (h.xramfnwr p).symm
    rw [Machine.writeBlock, heapWriteBlock, 
      ← heapWritex_congr (m.writeBlock_xrampage a f n) hfn]
    exact ih.writex (hapart.of_sameBuffers (m.sameBuffers_writeBlock a f n))
      hbefore.inside_of_writable _

/-- Two states with the same external memories still have the same ones after the same block is
written. -/
lemma SameXram.writeBlock {m' : Machine σ} (h : SameXram m m') (a : Word) (f : ℕ → Byte) (n : ℕ) :
    SameXram (m.writeBlock a f n) (m'.writeBlock a f n) := by
  induction n with
  | zero => exact h
  | succ n ih => exact ih.writex _ _

/-- Writing a block leaves the pages of code memory where they are. -/
lemma writeBlock_rompage (m : Machine σ) (a : Word) (f : ℕ → Byte) (n : ℕ) :
    (m.writeBlock a f n).rompage = m.rompage := by
  induction n with
  | zero => rfl
  | succ n ih => exact (writex_rompage _ _ _).trans ih

end Blocks

end Machine

/-! ## Transfers -/

/-- The byte at a place of the packet that is waiting. -/
def Chip.packetByte (rxSeq : LuaInt) (i : ℕ) : Byte := byteOfLua ((pkt rxSeq)[i]?.getD 0xff)

namespace Machine

section Transferred

variable {σ : Type}

/-- `eaddr` and `paddr`, the addresses of the next transfer. -/
def dmaAddr (m : Machine σ) : Word × Word :=
  (word (m.sfr 0xb4) (m.sfr 0xb3), word (m.sfr 0xb6) (m.sfr 0xb5))

/-- External memory after a transfer of `8 * v` bytes, with all else as before. -/
def transferred (m : Machine σ) (rxSeq : LuaInt) (v : Byte) : Machine σ :=
  if 0x8000 ≤ m.dmaAddr.2 then m
  else m.writeBlock m.dmaAddr.1 (fun k => packetByte rxSeq (m.dmaAddr.2.toNat + k)) (8 * v.toNat)

/-- The memory of the process after this transfer. -/
def heapTransferred (m : Machine σ) (base : ℕ → ℤ) (mem : ℤ → Byte) (rxSeq : LuaInt) (v : Byte) :
    ℤ → Byte :=
  if 0x8000 ≤ m.dmaAddr.2 then mem
  else m.heapWriteBlock base mem m.dmaAddr.1
    (fun k => packetByte rxSeq (m.dmaAddr.2.toNat + k)) (8 * v.toNat)

variable {m m' : Machine σ}

/-- A transfer does the same to two states with the same external memories and the same packet
address. -/
lemma SameXram.transferred (h : SameXram m m') (haddr : m'.dmaAddr = m.dmaAddr) (rxSeq : LuaInt)
    (v : Byte) : SameXram (m.transferred rxSeq v) (m'.transferred rxSeq v) := by
  unfold Machine.transferred
  rw [haddr]
  split_ifs
  · exact h
  · exact h.writeBlock _ _ _

/-- A transfer leaves the pages of code memory where they are. -/
lemma transferred_rompage (m : Machine σ) (rxSeq : LuaInt) (v : Byte) :
    (m.transferred rxSeq v).rompage = m.rompage := by
  unfold transferred
  split_ifs
  · rfl
  · exact m.writeBlock_rompage _ _ _

/-- A transfer leaves the pages of external data memory where they are. -/
lemma transferred_xrampage (m : Machine σ) (rxSeq : LuaInt) (v : Byte) :
    (m.transferred rxSeq v).xrampage = m.xrampage := by
  unfold transferred
  split_ifs
  · rfl
  · exact m.writeBlock_xrampage _ _ _

/-- A transfer changes bytes in the buffers, never the buffers themselves. -/
lemma sameBuffers_transferred (m : Machine σ) (rxSeq : LuaInt) (v : Byte) :
    SameBuffers m (m.transferred rxSeq v) := by
  unfold transferred
  split_ifs
  · exact ⟨rfl, fun _ => rfl⟩
  · exact m.sameBuffers_writeBlock _ _ _

end Transferred

end Machine

/-! ## The loops of a transfer -/

section Transfer

variable {ρ : Type} {bus : Bus (Globals ρ)}

/-- A loop that only looks at external data memory changes nothing, however long it is. -/
lemma run_loop_peeks (a : LuaInt → LuaInt) (m : Machine (Globals ρ)) (i : LuaInt) (n : ℕ) :
    (loop (fun i => peekXram (a i) >>= fun _ => pure ()) i n).run (Machine.luaExec bus) m =
      some ((), m) := by
  induction n generalizing i with
  | zero => rfl
  | succ n ih => exact ih (i + 1)

/-- A loop that stores a block, from the place `k` on. -/
lemma run_loop_pokes (bus : Bus (Globals ρ)) {a v : LuaInt → LuaInt} (start : Word)
    {f : ℕ → Byte} {l : ℕ}
    (ha : ∀ k < l, (a (1 + BitVec.ofNat 64 k)).setWidth 16 = start + BitVec.ofNat 16 k)
    (hv : ∀ k < l, byteOfLua (v (1 + BitVec.ofNat 64 k)) = f k) (m : Machine (Globals ρ))
    {k n : ℕ} (hlen : k + n ≤ l) :
    (loop (fun i => pokeXram (a i) (v i)) (1 + BitVec.ofNat 64 k) n).run (Machine.luaExec bus)
      (m.writeBlock start f k) = some ((), m.writeBlock start f (k + n)) := by
  induction n generalizing k with
  | zero => rfl
  | succ n ih =>
    have hnext : (1 + BitVec.ofNat 64 k + 1 : LuaInt) = 1 + BitVec.ofNat 64 (k + 1) := by
      rw [BitVec.ofNat_add, BitVec.add_assoc]
      rfl
    have hstep := ih (k := k + 1) (by omega)
    rw [loop, Prog.run_bind]
    change ((some ((), (m.writeBlock start f k).writex ((a _).setWidth 16) (byteOfLua (v _))) :
      Option (Unit × Machine (Globals ρ))).bind _) = _
    rw [Option.bind_some, ha k (by omega), hv k (by omega), hnext]
    refine hstep.trans ?_
    rw [show k + 1 + n = k + (n + 1) by omega]

/-! ## Addresses in Lua -/

/-- The two registers of an address make a number of 16 bits, computed in Lua. -/
lemma toNat_luaWord (h l : Byte) :
    (luaOfByte l + (luaOfByte h <<< 8)).toNat = (word h l).toNat := by
  have hh := h.isLt
  have hl := l.isLt
  have hhigh : (word h l).toNat / 0x100 = h.toNat := by rw [← toNat_hi, hi_word]
  have hlow : (word h l).toNat % 0x100 = l.toNat := by rw [← toNat_lo, lo_word]
  rw [BitVec.toNat_add, BitVec.toNat_shiftLeft, toNat_luaOfByte, toNat_luaOfByte, Nat.shiftLeft_eq]
  omega

variable {x : LuaInt} {w : Word}

/-- A Lua integer whose natural value fits 32 bits has the same value as a signed number. -/
lemma toInt_of_toNat {n : ℕ} (hx : x.toNat = n) (hn : n < 0x100000000) : x.toInt = n := by
  rw [BitVec.toInt_eq_toNat_of_lt (by omega), hx]

/-- The hook's test for the direction of a transfer is a test of the word for `0x8000`. -/
lemma sle_iff (hx : x.toNat = w.toNat) : (0x8000 : LuaInt).sle x = true ↔ 0x8000 ≤ w := by
  have hw := w.isLt
  rw [BitVec.sle_iff_toInt_le, toInt_of_toNat hx (by omega), BitVec.le_def]
  change (0x8000 : ℤ) ≤ w.toNat ↔ 0x8000 ≤ w.toNat
  omega

/-- The address a round of the loop writes to is as far on as the round, modulo `0x10000`. -/
lemma setWidth_round (hx : x.toNat = w.toNat) {k : ℕ} :
    (x + (1 + BitVec.ofNat 64 k) - 1).setWidth 16 = w + BitVec.ofNat 16 k := by
  have hsub : x + (1 + BitVec.ofNat 64 k) - 1 = x + BitVec.ofNat 64 k := by
    rw [BitVec.add_comm 1, ← BitVec.add_assoc, BitVec.add_sub_cancel]
  apply BitVec.eq_of_toNat_eq
  rw [hsub, BitVec.toNat_setWidth, BitVec.toNat_add, BitVec.toNat_add, hx, BitVec.toNat_ofNat,
    BitVec.toNat_ofNat]
  omega

/-- A byte of the packet is found at its place in the table, which Lua counts from 1. -/
lemma index_round (l : List LuaInt) (hx : x.toNat = w.toNat) {k : ℕ} (hk : k < 0x10000) :
    index l (1 + BitVec.ofNat 64 k + x) = l[w.toNat + k]? := by
  have hw := w.isLt
  have hval : (1 + BitVec.ofNat 64 k + x).toNat = 1 + k + w.toNat := by
    rw [BitVec.toNat_add, BitVec.toNat_add, BitVec.toNat_ofNat, hx]
    change ((1 + k % 2 ^ 64) % 2 ^ 64 + w.toNat) % 2 ^ 64 = _
    omega
  have hint := toInt_of_toNat hval (by omega)
  rw [index, hint, if_neg (by omega)]
  congr 1
  omega

/-- The length register counts in units of 8 bytes. -/
lemma toNat_length (v : Byte) : (luaOfByte v * 8).toInt.toNat = 8 * v.toNat := by
  revert v
  decide +kernel

/-! ## The hook -/

/-- A transfer of `8 * v` bytes between external memory at `e` and the packet at `p`. -/
lemma run_transfer {m : Machine (Globals ρ)} (rxSeq : LuaInt) {eaddr paddr : LuaInt} {e p : Word}
    (he : eaddr.toNat = e.toNat) (hp : paddr.toNat = p.toNat) (v : Byte) :
    (transfer rxSeq eaddr paddr (luaOfByte v * 8)).run (Machine.luaExec bus) m = some ((),
      if 0x8000 ≤ p then m
      else m.writeBlock e (fun k => packetByte rxSeq (p.toNat + k)) (8 * v.toNat)) := by
  have hv := v.isLt
  unfold transfer
  rw [toNat_length]
  by_cases hdir : 0x8000 ≤ p
  · rw [if_pos ((sle_iff hp).2 hdir), if_pos hdir]
    exact run_loop_peeks _ m 1 _
  · rw [if_neg (fun h => hdir ((sle_iff hp).1 h)), if_neg hdir]
    have hloop := run_loop_pokes bus e
      (a := fun i => eaddr + i - 1) (v := fun i => (index (pkt rxSeq) (i + paddr)).getD 0xff)
      (f := fun k => packetByte rxSeq (p.toNat + k)) (l := 8 * v.toNat)
      (fun k _ => setWidth_round he)
      (fun k hk => by rw [index_round _ hp (by omega)]; rfl) m (k := 0) (n := 8 * v.toNat)
      (by omega)
    rw [Nat.zero_add] at hloop
    exact hloop

end Transfer

namespace Machine

section Hook

variable {σ : Type} {script : Script σ}

/-- A read of a register without a hook, as a hook sees it. -/
lemma readdVia_of_none {a : Byte} {bus : Bus σ} {m : Machine σ} (h₁ : a ≠ PSW)
    (hnone : script.ramdHooks m.lua a = none) :
    readdVia script bus a m = some (m.sfr a, m) := by
  unfold readdVia defaultRamdGet ramdGet ramdHook
  rw [if_neg h₁, hnone]
  split_ifs with _ hscon hsbuf
  · rw [hscon]
  · rw [hsbuf]
  · rfl
  · rfl

end Hook

variable {chip : Chip} {m m₀ : Machine (Globals chip.Indacc)}

/-- What a call of the hook for a write does. -/
lemma run_sfrPedmaLen (chip : Chip) (m : Machine (Globals chip.Indacc)) (v : Byte) {n : ℕ} :
    ((sfrPedmaLen : Hook (Globals chip.Indacc)) true (luaOfByte v)).run
      (luaExec (busAt chip.script (n + 1))) m = some (0, m.transferred m.lua.rxSeq v) := by
  have hpeek : ∀ a : LuaInt, byteOfLua a ≠ PSW → chip.script.ramdHooks m.lua (byteOfLua a) = none →
      (peekSfr a).run (luaExec (busAt chip.script (n + 1))) m =
        some (luaOfByte (m.sfr (byteOfLua a)), m) := by
    intro a h₁ hnone
    change (((busAt chip.script (n + 1)).get (byteOfLua a) m).map _).bind _ = _
    rw [show (busAt chip.script (n + 1)).get (byteOfLua a) m = some (m.sfr (byteOfLua a), m) from
      readdVia_of_none h₁ hnone]
    rfl
  have hnone : ∀ a ∈ [(0xb3 : LuaInt), 0xb4, 0xb5, 0xb6], byteOfLua a ≠ PSW ∧
      chip.script.ramdHooks m.lua (byteOfLua a) = none := by
    intro a ha
    simp only [List.mem_cons, List.not_mem_nil, or_false] at ha
    rcases ha with rfl | rfl | rfl | rfl <;> cases chip <;> exact ⟨by decide, rfl⟩
  have hread : ∀ a ∈ [(0xb3 : LuaInt), 0xb4, 0xb5, 0xb6],
      (peekSfr a).run (luaExec (busAt chip.script (n + 1))) m =
        some (luaOfByte (m.sfr (byteOfLua a)), m) :=
    fun a ha => hpeek a (hnone a ha).1 (hnone a ha).2
  unfold sfrPedmaLen when
  rw [if_pos rfl]
  simp only [Prog.run_bind, hread 0xb3 (by simp), hread 0xb4 (by simp), hread 0xb5 (by simp),
    hread 0xb6 (by simp), Option.bind_some]
  change ((transfer m.lua.rxSeq _ _ _).run _ m).bind _ = _
  rw [run_transfer m.lua.rxSeq (toNat_luaWord _ _) (toNat_luaWord _ _) v]
  rfl

/-- A write to `PEDMA_LEN` in any state with the trap table of `sfr_init`. -/
lemma writed_pedmaLen (chip : Chip) {m : Machine (Globals chip.Indacc)}
    (ht : m.ramsfrtrap = sfrInitTrap) (v : Byte) : ∃ m',
    writed chip.script 0xb7 v m = some m' ∧ m'.rompage = m.rompage ∧
      SameXram (m.transferred m.lua.rxSeq v) m' := by
  have hhook : chip.script.ramdHooks m.lua 0xb7 = some sfrPedmaLen := by
    cases chip <;> rfl
  have hccalls : chip.script.ccalls = 199 + 1 := by
    cases chip <;> rfl
  have htrap : m.ramsfrtrap 0xb7 = true := by
    rw [ht]
    decide
  have haddr : (m.setSfr 0xb7 v).dmaAddr = m.dmaAddr := by
    unfold dmaAddr
    rw [sfr_setSfr_of_ne _ _ (by decide), sfr_setSfr_of_ne _ _ (by decide),
      sfr_setSfr_of_ne _ _ (by decide), sfr_setSfr_of_ne _ _ (by decide)]
  have hsame : SameXram m (m.setSfr 0xb7 v) := ⟨rfl, rfl, rfl⟩
  have hstored := hsame.transferred haddr m.lua.rxSeq v
  have hwrite := writed_of_hook (v := v) htrap (by decide) (by decide) (by decide) (by decide) hhook
  rw [hccalls, run_sfrPedmaLen chip (m.setSfr 0xb7 v) v, Option.map_some] at hwrite
  refine ⟨_, hwrite, ?_⟩
  obtain ⟨l0, l1, hl⟩ := (((m.setSfr 0xb7 v).transferred m.lua.rxSeq v).setSfr 0xb7
    (byteOfLua 0)).sfrNotify_eq 0xb7
  change (sfrNotify (((m.setSfr 0xb7 v).transferred m.lua.rxSeq v).setSfr 0xb7 _) 0xb7).rompage =
    _ ∧ SameXram _ (sfrNotify (((m.setSfr 0xb7 v).transferred m.lua.rxSeq v).setSfr 0xb7 _) 0xb7)
  rw [hl]
  exact ⟨(m.setSfr 0xb7 v).transferred_rompage _ _, hstored.heap, hstored.xrampage,
    hstored.xramfnwr⟩

/-- What can be read after a transfer: bytes of the packet in its range, and the old bytes
elsewhere. -/
lemma DataMem.readx_transferred {σ : Type} {rom : Buffer} {banks : List Byte} {m : Machine σ}
    (h : DataMem rom banks m) (rxSeq : LuaInt) (v : Byte) (a : Word) :
    (m.transferred rxSeq v).readx a =
      if m.dmaAddr.2 < 0x8000 ∧ (a - m.dmaAddr.1).toNat < 8 * v.toNat ∧ m.Writable a then
        packetByte rxSeq (m.dmaAddr.2.toNat + (a - m.dmaAddr.1).toNat)
      else m.readx a := by
  have hv := v.isLt
  unfold transferred
  by_cases hdir : 0x8000 ≤ m.dmaAddr.2
  · rw [if_pos hdir, if_neg fun hc => BitVec.not_lt.2 hdir hc.1]
  · rw [if_neg hdir, h.readx_writeBlock _ _ (by omega)]
    refine if_congr ?_ rfl rfl
    rw [and_iff_right (BitVec.not_le.1 hdir)]

/-- The memory of the process keeps up with a transfer. -/
lemma DataMem.holds_transferred {σ : Type} {rom : Buffer} {banks : List Byte} {m : Machine σ}
    (h : DataMem rom banks m) {base : ℕ → ℤ} {mem : ℤ → Byte} (hapart : m.Apart base)
    (hmem : m.Holds base mem) (rxSeq : LuaInt) (v : Byte) :
    (m.transferred rxSeq v).Holds base (m.heapTransferred base mem rxSeq v) := by
  unfold transferred heapTransferred
  split_ifs
  · exact hmem
  · exact h.holds_writeBlock hapart hmem _ _ _

/-- In every state of every run under either script a write of `v` to `PEDMA_LEN` goes through. If
the packet address is below `0x8000`, it puts `8 * v` bytes of the packet into the writable part of
external memory; otherwise, and everywhere else, it leaves data and code as they are. This is so in
the memory of the process, wherever the buffers are, for all bytes whose pages lie inside them. -/
theorem run_packetDma (chip : Chip) {heap : ℕ → Buffer} {file : List Byte}
    {m₀ m : Machine (Globals chip.Indacc)} (hboot : boot chip.script heap file = some m₀)
    {tr : List (Machine (Globals chip.Indacc) × Event)} (hrun : Run (Happens chip.script) m₀ tr m)
    {base : ℕ → ℤ} (hapart : m.Apart base) {mem : ℤ → Byte} (hmem : m.Holds base mem) (v : Byte) :
    ∃ m' mem', writed chip.script 0xb7 v m = some m' ∧
      mem' = m.heapTransferred base mem m.lua.rxSeq v ∧ m'.Holds base mem' ∧
      (∀ a, m.PageInside (m.xrampage (hi a)) → heapPeek base mem' (m'.xrampage (hi a)) (lo a) =
        if m.dmaAddr.2 < 0x8000 ∧ (a - m.dmaAddr.1).toNat < 8 * v.toNat ∧ m.Writable a then
          packetByte m.lua.rxSeq (m.dmaAddr.2.toNat + (a - m.dmaAddr.1).toNat)
        else heapPeek base mem (m.xrampage (hi a)) (lo a)) ∧
      ∀ c, m.PageInside (m.rompage (hi c)) → heapPeek base mem' (m'.rompage (hi c)) (lo c) =
        heapPeek base mem (m.rompage (hi c)) (lo c) := by
  have hdata := run_dataBanked hboot hrun
  have hcode : ShowsRom m :=
    (hrun.invariant (fun _ _ _ hm h => happen_showsRom hm h) (boot_showsRom hboot)).2
  obtain ⟨m', hwrite, hpages, hsame⟩ := writed_pedmaLen chip hdata.ramsfrtrap v
  have hpoke : Run (Happens chip.script) m₀ (tr ++ [(m, .poke 0xb7 v)]) m' :=
    hrun.trans (.head (show Happens chip.script m (.poke 0xb7 v) m' from hwrite) (.refl m'))
  have hdata' := run_dataBanked hboot hpoke
  have hnbuf : m'.nbuf = m.nbuf := hdata'.mem.nbuf.trans hdata.mem.nbuf.symm
  have hbuffers : SameBuffers m m' := by
    refine ⟨hnbuf, fun b => ?_⟩
    rw [hsame.heap]
    exact (m.sameBuffers_transferred m.lua.rxSeq v).size b
  have hmem' : m'.Holds base (m.heapTransferred base mem m.lua.rxSeq v) := by
    intro b hb i hi hsize
    rw [hsame.heap] at hsize ⊢
    refine hdata.mem.holds_transferred hapart hmem m.lua.rxSeq v b ?_ i hi hsize
    rw [(m.sameBuffers_transferred m.lua.rxSeq v).nbuf, ← hnbuf]
    exact hb
  have hxpages : m'.xrampage = m.xrampage := hsame.xrampage.trans (m.transferred_xrampage _ _)
  refine ⟨m', _, hwrite, rfl, hmem', fun a ha => ?_, fun c hc => ?_⟩
  · have ha' : m'.PageInside (m'.xrampage (hi a)) := by
      rw [hxpages]
      exact ha.of_sameBuffers hbuffers
    rw [hmem'.readx ha', hmem.readx ha, hsame.readx]
    exact hdata.mem.readx_transferred _ _ a
  · have hc' : m'.PageInside (m'.rompage (hi c)) := by
      rw [hpages]
      exact hc.of_sameBuffers hbuffers
    rw [hmem'.readc hc', hmem.readc hc]
    exact hcode.readc_eq (hdata'.mem.rom.trans hdata.mem.rom.symm) hpages c

/-- The theorem for the first transfer to 1200H: the last byte of the header is the length of the
packet, and the byte behind it is as before. -/
theorem run_packetDma_header : ∃ (m m' : Machine Rtl8372.G) (mem' : ℤ → Byte),
    writed Rtl8372.script 0xb7 1 m = some m' ∧
      heapPeek spaced mem' (m'.xrampage 0x12) 0x07 = 60 ∧
      heapPeek spaced mem' (m'.xrampage 0x12) 0x08 =
        heapPeek spaced m.spacedMem (m.xrampage 0x12) 0x08 := by
  have heval : ((boot Rtl8372.script (fun _ => default) [0x00]).bind fun m₀ =>
      Run.follow (happen Rtl8372.script) [.poke 0xb4 0x12, .poke DATA_BANK 1, .insn] m₀).map
        (fun m => ((m.nbuf, (m.heap 0).size, (m.heap 1).size), (m.dmaAddr,
          decide (m.Writable 0x1207)), (m.xrampage 0x12).map fun p => (p.buf, p.ofs))) =
      some ((2, 0x100, 0xc000), ((0x1200, 0), true), some (1, 0x1200)) := by
    decide +kernel
  obtain ⟨m, hm, hval⟩ := Option.map_eq_some_iff.1 heval
  obtain ⟨m₀, hboot, hfollow⟩ := Option.bind_eq_some_iff.1 hm
  obtain ⟨tr, -, hrun⟩ := Run.of_follow hfollow
  obtain ⟨hsizes, hstate, hpage⟩ : (m.nbuf = 2 ∧ (m.heap 0).size = 0x100 ∧
      (m.heap 1).size = 0xc000) ∧ (m.dmaAddr = (0x1200, 0) ∧ m.Writable 0x1207) ∧
      ((m.xrampage 0x12).map fun p => (p.buf, p.ofs)) = some (1, 0x1200) := by
    simpa only [Prod.mk.injEq, decide_eq_true_eq] using hval
  obtain ⟨hnbuf, hrom, hsram⟩ := hsizes
  obtain ⟨haddr, hwritable⟩ := hstate
  obtain ⟨hapart, hmem⟩ := holds_spacedMem_small hnbuf hrom hsram
  have hinside : m.PageInside (m.xrampage 0x12) :=
    pageInside_of_map hpage (by omega) (by decide) (by rw [hsram]; decide)
  obtain ⟨m', mem', hwrite, -, -, hread, -⟩ := run_packetDma .rtl8372 hboot hrun hapart hmem 1
  have hheader : ∀ rxSeq, packetByte rxSeq 7 = 60 := fun _ => rfl
  have hat := hread 0x1207 hinside
  have hbehind := hread 0x1208 hinside
  rw [haddr, if_pos ⟨by decide, by decide, hwritable⟩] at hat
  rw [haddr, if_neg fun hc => absurd hc.2.1 (by decide)] at hbehind
  exact ⟨m, m', mem', hwrite, hat.trans (hheader _), hbehind⟩

end Machine

end Emu51

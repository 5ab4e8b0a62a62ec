import Emu51.Firmware.Hexdump

/-!
# `serial_puts`

The routine prints the code memory from `DPTR` on, up to the first zero byte. It has no other bound,
but there is always such a byte, if need be after a wrap at the end of the code memory: the listing
itself contains one. So the routine always returns.
-/

namespace Emu51

variable {σ : Type}

namespace Serial

variable (m : Machine σ) (src : SerialSource) (s : Regs σ) (k : List Slot) (n : ℕ)

/-- The byte `DPTR` points at decides whether the routine is done. -/
lemma serialPuts_test : Leads (step m src) ⟨place src .serialPuts, s, k, n⟩
    ⟨some (if m.readc s.dptr = 0 then src.listing.pos .serialEnd
      else src.listing.pos .serialPuts + 3), { s with acc := m.readc s.dptr }, k, n⟩ := by
  have htest : stepIter (step m src) 3 ⟨place src .serialPuts, s, k, n⟩ =
      some ⟨some (if m.readc (s.dptr + 0) == 0 then src.listing.pos .serialEnd
        else src.listing.pos .serialPuts + 3), { s with acc := m.readc (s.dptr + 0) }, k, n⟩ := by
    cases src <;> rfl
  rw [show s.dptr + 0 = s.dptr from BitVec.add_zero _] at htest
  simp only [beq_iff_eq] at htest
  exact .of_iter htest

/-- A round at a byte that is not 0 prints the byte and goes on to the next. -/
lemma serialPuts_round (h : m.readc s.dptr ≠ 0) :
    ∃ s', Leads (step m src) ⟨place src .serialPuts, s, k, n + 2⟩
      ⟨place src .serialPuts, s', k, n + 2⟩ ∧
        s'.out = s.out ++ [m.readc s.dptr] ∧ s'.dptr = s.dptr + 1 := by
  have htest := serialPuts_test m src s k (n + 2)
  rw [if_neg h] at htest
  set s₁ : Regs σ := { s with
    acc := m.readc s.dptr
    dph := hi (s.dptr + 1)
    dpl := lo (s.dptr + 1) }
  have hcall : stepIter (step m src) 2 ⟨some (src.listing.pos .serialPuts + 3),
      { s with acc := m.readc s.dptr }, k, n + 2⟩ = some ⟨place src .serialWrite, s₁,
        .ret (some (src.listing.pos .serialPuts + 5)) :: k, n⟩ := by
    cases src <;> rfl
  obtain ⟨s₂, hlead, hprints, -⟩ := serialWrite m src s₁
    (some (src.listing.pos .serialPuts + 5)) k n
  have hjump : stepIter (step m src) 1 ⟨some (src.listing.pos .serialPuts + 5), s₂, k, n + 2⟩ =
      some ⟨place src .serialPuts, s₂, k, n + 2⟩ := by
    cases src <;> rfl
  exact ⟨s₂, htest.trans ((Leads.of_iter hcall).trans (hlead.trans (.of_iter hjump))),
    hprints.out, hprints.dptr.trans (word_hi_lo _)⟩

/-- The bytes of a memory from an address on. -/
def bytesFrom (mem : Word → Byte) (a : Word) (i : ℕ) : List Byte :=
  (List.range i).map fun j => mem (a + BitVec.ofNat 16 j)

variable {m}

/-- As many rounds as there are bytes that are not zero. -/
lemma serialPuts_rounds {i : ℕ} (h : ∀ j < i, m.readc (s.dptr + BitVec.ofNat 16 j) ≠ 0) :
    ∃ s', Leads (step m src) ⟨place src .serialPuts, s, k, n + 2⟩
      ⟨place src .serialPuts, s', k, n + 2⟩ ∧
        s'.out = s.out ++ bytesFrom m.readc s.dptr i ∧
        s'.dptr = s.dptr + BitVec.ofNat 16 i := by
  obtain ⟨c, hlead, s', rfl, hout, hdptr⟩ := Leads.rounds (f := step m src) (n := i)
    (I := fun j c => ∃ s', c = ⟨place src .serialPuts, s', k, n + 2⟩ ∧
      s'.out = s.out ++ bytesFrom m.readc s.dptr j ∧ s'.dptr = s.dptr + BitVec.ofNat 16 j)
    (fun j hj c hc => by
      obtain ⟨s₁, rfl, hout₁, hdptr₁⟩ := hc
      have hbyte : m.readc s₁.dptr ≠ 0 := by
        rw [hdptr₁]
        exact h j hj
      obtain ⟨s₂, hround, hout₂, hdptr₂⟩ := serialPuts_round m src s₁ k n hbyte
      refine ⟨_, hround, s₂, rfl, ?_, ?_⟩
      · rw [hout₂, hout₁, hdptr₁, bytesFrom, bytesFrom, List.range_succ, List.map_append,
          List.append_assoc]
        rfl
      · rw [hdptr₂, hdptr₁, BitVec.ofNat_add, ← BitVec.add_assoc]
        rfl)
    ⟨s, rfl, (List.append_nil _).symm, (BitVec.add_zero _).symm⟩
  exact ⟨s', hlead, hout, hdptr⟩

/-- A text that ends with a zero is what there is before it. -/
lemma bytesFrom_text {mem : Word → Byte} {a : Word} {text : List Byte}
    (h : BytesAt mem a (text ++ [0])) : bytesFrom mem a text.length = text := by
  refine List.ext_getElem (by rw [bytesFrom, List.length_map, List.length_range]) fun j _ hj => ?_
  have hbyte := h j (by rw [List.length_append]; omega)
  rw [List.getElem_append_left hj] at hbyte
  rw [← hbyte]
  simp [bytesFrom]

/-- From any address on there is a text, if there is a zero byte anywhere in the memory. -/
lemma exists_text {mem : Word → Byte} {a : Word} (ha : mem a = 0) (d : Word) :
    ∃ text : List Byte, 0 ∉ text ∧ BytesAt mem d (text ++ [0]) := by
  have hzero : ∃ i, mem (d + BitVec.ofNat 16 i) = 0 := by
    refine ⟨(a - d).toNat, ?_⟩
    rw [BitVec.ofNat_toNat, BitVec.setWidth_eq, BitVec.add_comm, BitVec.sub_add_cancel, ha]
  have hlen : (bytesFrom mem d (Nat.find hzero)).length = Nat.find hzero := by
    rw [bytesFrom, List.length_map, List.length_range]
  refine ⟨bytesFrom mem d (Nat.find hzero), fun hmem => ?_, fun i hi => ?_⟩
  · obtain ⟨j, hj, hbyte⟩ := List.mem_map.1 hmem
    exact Nat.find_min hzero (List.mem_range.1 hj) hbyte
  · rw [List.length_append, hlen, List.length_singleton] at hi
    by_cases hlast : i < Nat.find hzero
    · have htext : i < (bytesFrom mem d (Nat.find hzero)).length := by
        rw [hlen]
        exact hlast
      rw [List.getElem_append_left htext]
      simp [bytesFrom]
    · obtain rfl : i = Nat.find hzero := by omega
      rw [List.getElem_append_right (Nat.le_of_eq hlen), Nat.find_spec hzero]
      simp

/-- The routine returns at the end of the text. -/
lemma serialPuts (q : Option ℕ) {text : List Byte} (hnul : 0 ∉ text)
    (htext : BytesAt m.readc s.dptr (text ++ [0])) :
    ∃ s', Leads (step m src) ⟨place src .serialPuts, s, .ret q :: k, n + 2⟩ ⟨q, s', k, n + 4⟩ ∧
      s'.out = s.out ++ text ∧ s'.dptr = s.dptr + BitVec.ofNat 16 text.length := by
  have hbytes : ∀ j < text.length, m.readc (s.dptr + BitVec.ofNat 16 j) ≠ 0 := by
    intro j hj hzero
    have hbyte := htext j (by rw [List.length_append]; omega)
    rw [List.getElem_append_left hj, hzero] at hbyte
    exact hnul (hbyte ▸ List.getElem_mem hj)
  have hend : m.readc (s.dptr + BitVec.ofNat 16 text.length) = 0 := by
    rw [htext text.length (by rw [List.length_append]; exact Nat.lt_succ_self _),
      List.getElem_append_right (Nat.le_refl _)]
    exact List.getElem_singleton _
  obtain ⟨s₁, hlead, hout, hdptr⟩ := serialPuts_rounds src s (.ret q :: k) n hbytes
  have htest := serialPuts_test m src s₁ (.ret q :: k) (n + 2)
  rw [hdptr, if_pos hend] at htest
  have hret : ∀ t : Regs σ, stepIter (step m src) 1 ⟨place src .serialEnd, t, .ret q :: k, n + 2⟩ =
      some ⟨q, t, k, n + 4⟩ := by
    intro t
    cases src <;> rfl
  refine ⟨_, hlead.trans (htest.trans (.of_iter (hret _))), ?_, hdptr⟩
  rw [← bytesFrom_text htext]
  exact hout

end Serial

/-! ## The routine on the machine -/

namespace Machine

open Serial

/-- The listing adds a carry with `ADDC A,#00H`, which puts a zero byte into code memory. -/
lemma zero_of_loaded {readc : Word → Byte} {base : Word} {src : SerialSource}
    (hload : Loaded readc src.listing.code base) : ∃ a, readc a = 0 := by
  have hinsn : src.listing.code[36]? = some (.alu .addc (.imm 0)) := by
    cases src <;> rfl
  obtain ⟨bs, henc, hread⟩ := hload.at hinsn
  obtain rfl : bs = [0x34, 0x00] := (Option.some.inj henc).symm
  exact ⟨_, hread 1 (by decide)⟩

/-- `serial_puts` prints the text `DPTR` points at and returns, and `DPTR` always points at one. -/
theorem serialPuts_prints {script : Script σ} {m : Machine σ} {base : Word} (src : SerialSource)
    (hready : m.Ready) (happart : m.StackApart 8) (hload : Loaded m.readc src.listing.code base)
    (hpc : m.pc = codeAddr src.listing.code base (src.listing.pos .serialPuts)) :
    (∃ text : List Byte, 0 ∉ text ∧ BytesAt m.readc m.dptr (text ++ [0])) ∧
    ∀ text : List Byte, 0 ∉ text → BytesAt m.readc m.dptr (text ++ [0]) →
      ∃ m', Leads (step script) m m' ∧ m'.pc = m.caller ∧ m'.sfr SP = m.sfr SP - 2 ∧
        m'.uartOut = m.uartOut ++ text ∧ m'.dptr = m.dptr + BitVec.ofNat 16 text.length := by
  have hpair := hready.regs_dptr
  constructor
  · obtain ⟨a, ha⟩ := zero_of_loaded hload
    exact exists_text ha m.dptr
  · intro text hnul htext
    rw [← hpair] at htext
    obtain ⟨s, hlead, hout, hdptr⟩ := serialPuts src m.regs [] 4 none hnul htext
    obtain ⟨m', hreach, hreturned⟩ := routine_returns hready (Device.none_models script)
      (fun _ => happart) (by decide) (by decide) hload hpc hlead
    rw [hpair] at hdptr
    exact ⟨m', hreach, hreturned.pc, hreturned.sp, hreturned.out.trans hout,
      hreturned.dptr.trans hdptr⟩

/-- The text at `message_hello`. -/
def messageHello : List Byte := "Hello world!\r\n".toList.map ascii

/-- About to print that text, which is behind the code. -/
def greeting : Machine Unit :=
  ((calling () (serialRom ++ (messageHello ++ [0])) (codeAddr SerialSource.helloS.listing.code 0
    (SerialSource.helloS.listing.pos .serialPuts))).setSfr DPH0
      (hi (BitVec.ofNat 16 serialRom.length))).setSfr DPL0 (lo (BitVec.ofNat 16 serialRom.length))

/-- The theorem at that text, the only one there is at `message_hello`. -/
theorem serialPuts_prints_hello : ∃ m', Leads (step noHooks) greeting m' ∧
    m'.uartOut = "Hello world!\r\n".toList.map ascii ∧ m'.pc = greeting.caller := by
  have hrom : assemble SerialSource.helloS.listing.code 0 = some serialRom := by decide +kernel
  have hready : greeting.Ready := ⟨⟨rfl, false, rfl, rfl, rfl⟩, rfl, rfl⟩
  have happart : ∀ i < 8, ∀ n, iramCell (greeting.sfr SP - 1 + BitVec.ofNat 8 i) ≠
      regCell greeting.reg n := by decide +kernel
  have hbytes : BytesAt greeting.readc 0 (serialRom ++ (messageHello ++ [0])) :=
    calling_bytesAt () greeting.pc (by decide +kernel)
  obtain ⟨hcode, htext⟩ := hbytes.append
  have hdptr : 0 + BitVec.ofNat 16 serialRom.length = greeting.dptr := by decide +kernel
  rw [hdptr] at htext
  obtain ⟨m', hlead, hpc, -, hout, -⟩ := (serialPuts_prints .helloS hready happart
    ⟨serialRom, hrom, hcode⟩ rfl).2 messageHello (by decide) htext
  exact ⟨m', hlead, hout, hpc⟩

end Machine

end Emu51

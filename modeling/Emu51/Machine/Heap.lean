import Emu51.Machine.Memory

/-!
# The memory of the process

A page pointer is an address in the one memory of the process, in which `malloc` has put the buffers
somewhere. In the machine every buffer has a memory of its own. Inside the buffers this is the same:
reading through a page pointer gives what the machine reads (`Holds.peekPage`), and storing through
one is what the machine does (`Holds.pokePage`). But `map_rom` and `map_xram_ro` also map pages
behind the end of a buffer, and what these show may be another buffer.
-/

namespace Emu51

variable {σ : Type} {m : Machine σ} {base : ℕ → ℤ} {mem : ℤ → Byte}

/-- The page lies inside its buffer. -/
structure PagePtr.Inside (m : Machine σ) (p : PagePtr) : Prop where
  buf : p.buf < m.nbuf
  low : 0 ≤ p.ofs
  high : p.ofs + 0x100 ≤ (m.heap p.buf).size

/-- The address of the byte `p[i]`, where the buffers start at the addresses given. -/
def PagePtr.addr (base : ℕ → ℤ) (p : PagePtr) (i : Byte) : ℤ := base p.buf + (p.ofs + i.toNat)

/-- What `readc` and `readx` find in the memory of the process. -/
def heapPeek (base : ℕ → ℤ) (mem : ℤ → Byte) (page : Option PagePtr) (i : Byte) : Byte :=
  match page with
  | some p => mem (p.addr base i)
  | none => 0xff

namespace Machine

/-- No two buffers overlap, if they start at the addresses given. -/
def Apart (m : Machine σ) (base : ℕ → ℤ) : Prop := ∀ b < m.nbuf, ∀ b' < m.nbuf, b ≠ b' →
  base b + (m.heap b).size ≤ base b' ∨ base b' + (m.heap b').size ≤ base b

/-- The memory of the process holds the buffers there. -/
def Holds (m : Machine σ) (base : ℕ → ℤ) (mem : ℤ → Byte) : Prop :=
  ∀ b < m.nbuf, ∀ i : ℤ, 0 ≤ i → i < (m.heap b).size → mem (base b + i) = (m.heap b).mem i

/-- The page, if it is mapped, lies inside its buffer. -/
def PageInside (m : Machine σ) (page : Option PagePtr) : Prop := ∀ p, page = some p → p.Inside m

/-- What `writex` makes of the memory of the process. -/
def heapWritex (m : Machine σ) (base : ℕ → ℤ) (mem : ℤ → Byte) (a : Word) (v : Byte) : ℤ → Byte :=
  match m.xramfnwr (hi a) with
  | some .writexRo => mem
  | none =>
    match m.xrampage (hi a) with
    | some p => Function.update mem (p.addr base (lo a)) v
    | none => mem

/-- Two states with the same buffers, whatever is in them. -/
structure SameBuffers (m m' : Machine σ) : Prop where
  nbuf : m'.nbuf = m.nbuf
  size : ∀ b, (m'.heap b).size = (m.heap b).size

variable {m' : Machine σ}

/-- A page inside its buffer stays inside as long as the buffers are the same. -/
lemma PageInside.of_sameBuffers {page : Option PagePtr} (h : m.PageInside page)
    (hsame : SameBuffers m m') : m'.PageInside page := by
  intro p hp
  obtain ⟨hbuf, hlow, hhigh⟩ := h p hp
  refine ⟨?_, hlow, ?_⟩
  · rw [hsame.nbuf]
    exact hbuf
  · rw [hsame.size]
    exact hhigh

/-- Buffers that do not overlap stay apart as long as they are the same. -/
lemma Apart.of_sameBuffers (h : m.Apart base) (hsame : SameBuffers m m') : m'.Apart base := by
  intro b hb b' hb' hne
  rw [hsame.nbuf] at hb hb'
  rw [hsame.size, hsame.size]
  exact h b hb b' hb' hne

/-- A page inside, from the buffer it is in and its place there. -/
lemma pageInside_of_map {page : Option PagePtr} {b : ℕ} {ofs : ℤ}
    (h : (page.map fun p => (p.buf, p.ofs)) = some (b, ofs)) (hb : b < m.nbuf) (hlow : 0 ≤ ofs)
    (hhigh : ofs + 0x100 ≤ (m.heap b).size) : m.PageInside page := by
  rintro p rfl
  obtain ⟨rfl, rfl⟩ := Prod.mk.inj (Option.some.inj h)
  exact ⟨hb, hlow, hhigh⟩

/-! ## Reads -/

/-- Reading through a pointer into a buffer finds what the machine has in that buffer. -/
lemma Holds.peekPage (h : m.Holds base mem) {p : PagePtr} (hp : p.Inside m) (i : Byte) :
    mem (p.addr base i) = m.peekPage p i := by
  have hi := i.isLt
  have hlow := hp.low
  have hhigh := hp.high
  exact h p.buf hp.buf (p.ofs + i.toNat) (by omega) (by omega)

/-- Inside its buffer, a read of external data memory finds in the process memory what it finds in
the buffer. -/
theorem Holds.readx (h : m.Holds base mem) {a : Word} (ha : m.PageInside (m.xrampage (hi a))) :
    heapPeek base mem (m.xrampage (hi a)) (lo a) = m.readx a := by
  unfold Machine.readx
  cases hp : m.xrampage (hi a) with
  | none => rfl
  | some p => exact h.peekPage (ha p hp) _

/-- Inside its buffer, a read of code memory does, too. -/
theorem Holds.readc (h : m.Holds base mem) {c : Word} (hc : m.PageInside (m.rompage (hi c))) :
    heapPeek base mem (m.rompage (hi c)) (lo c) = m.readc c := by
  unfold Machine.readc
  cases hp : m.rompage (hi c) with
  | none => rfl
  | some p => exact h.peekPage (hc p hp) _

/-! ## Stores -/

/-- A store only changes what is in a buffer. -/
lemma sameBuffers_pokePage (m : Machine σ) (p : PagePtr) (i v : Byte) :
    SameBuffers m (m.pokePage p i v) := by
  refine ⟨rfl, fun b => ?_⟩
  rw [pokePage_heap, Function.update_apply]
  split_ifs with hb
  · rw [hb]
  · rfl

/-- A write to external data memory changes bytes in the buffers, never the buffers themselves. -/
lemma sameBuffers_writex (m : Machine σ) (a : Word) (v : Byte) :
    SameBuffers m (m.writex a v) := by
  unfold Machine.writex
  split
  · exact ⟨rfl, fun _ => rfl⟩
  · split
    · exact m.sameBuffers_pokePage _ _ _
    · exact ⟨rfl, fun _ => rfl⟩

/-- The mapping of external data memory stays as well. -/
lemma writex_xrampage (m : Machine σ) (a : Word) (v : Byte) :
    (m.writex a v).xrampage = m.xrampage := by
  unfold Machine.writex
  split
  · rfl
  · split
    · rfl
    · rfl

/-- Storing through a pointer into a buffer is a store in that buffer, if the buffers are apart. -/
theorem Holds.pokePage (h : m.Holds base mem) (hapart : m.Apart base) {p : PagePtr}
    (hp : p.Inside m) (i v : Byte) :
    (m.pokePage p i v).Holds base (Function.update mem (p.addr base i) v) := by
  have hi := i.isLt
  have hlow := hp.low
  have hhigh := hp.high
  intro b hb j hj hsize
  rw [(m.sameBuffers_pokePage p i v).size] at hsize
  by_cases hbuf : b = p.buf
  · subst hbuf
    rw [pokePage_heap, Function.update_self]
    dsimp only
    rw [Function.update_apply, Function.update_apply]
    refine if_congr ?_ rfl (h _ hb j hj hsize)
    unfold PagePtr.addr
    omega
  · have hne : base b + j ≠ p.addr base i := by
      unfold PagePtr.addr
      rcases hapart b hb p.buf hp.buf hbuf with hle | hle
      · omega
      · omega
    rw [pokePage_heap, Function.update_of_ne hbuf, Function.update_of_ne hne]
    exact h b hb j hj hsize

/-- `writex`, if the page that it stores in lies inside its buffer. -/
theorem Holds.writex (h : m.Holds base mem) (hapart : m.Apart base) {a : Word}
    (ha : m.xramfnwr (hi a) = none → m.PageInside (m.xrampage (hi a))) (v : Byte) :
    (m.writex a v).Holds base (m.heapWritex base mem a v) := by
  unfold Machine.writex heapWritex
  cases hfn : m.xramfnwr (hi a) with
  | some fn =>
    cases fn
    exact h
  | none =>
    cases hp : m.xrampage (hi a) with
    | none => exact h
    | some p => exact h.pokePage hapart (ha hfn p hp) _ _

/-- Only the mapping decides where `writex` stores in the memory of the process. -/
lemma heapWritex_congr (hpage : m'.xrampage = m.xrampage) (hfn : m'.xramfnwr = m.xramfnwr)
    (a : Word) (v : Byte) : m'.heapWritex base mem a v = m.heapWritex base mem a v := by
  unfold heapWritex
  rw [hpage, hfn]

/-! ## One way to place them -/

/-- The buffers at distances of 64 KiB. -/
def spaced (b : ℕ) : ℤ := b * 0x10000

/-- The memory of the process with the buffers there. -/
def spacedMem (m : Machine σ) (x : ℤ) : Byte := (m.heap (x / 0x10000).toNat).mem (x % 0x10000)

/-- Buffers of at most 64 KiB can be placed so. -/
lemma holds_spacedMem (h : ∀ b < m.nbuf, (m.heap b).size ≤ 0x10000) :
    m.Apart spaced ∧ m.Holds spaced m.spacedMem := by
  refine ⟨fun b hb b' hb' hne => ?_, fun b hb i hi hsize => ?_⟩
  · have hsize := h b hb
    have hsize' := h b' hb'
    unfold spaced
    omega
  · have hle := h b hb
    have hbuf : (spaced b + i) / 0x10000 = b := by
      unfold spaced
      omega
    have hindex : (spaced b + i) % 0x10000 = i := by
      unfold spaced
      omega
    rw [spacedMem, hbuf, hindex, Int.toNat_natCast]

/-- Two buffers of a page and of 48 KiB, which is what the scripts make of a small image. -/
lemma holds_spacedMem_small (hnbuf : m.nbuf = 2) (hrom : (m.heap 0).size = 0x100)
    (hsram : (m.heap 1).size = 0xc000) : m.Apart spaced ∧ m.Holds spaced m.spacedMem := by
  refine holds_spacedMem fun b hb => ?_
  obtain rfl | rfl : b = 0 ∨ b = 1 := by omega
  · omega
  · omega

end Machine

end Emu51

import Emu51.Chip.Hooks

/-!
# The registers of the RTL8367S

The table `soc_regs` of `rtl8367s.lua` has a value for each address from `0x0000` to `0x1fff`. Most
neighbours are equal, so it is written down as runs of equal values. All of them have 16 bits.
-/

namespace Emu51

namespace Chip

namespace Rtl8367s

/-- `soc_regs` to begin with, from address 0 on: how many times which value. -/
def socRegRuns : List (ℕ × ℕ) := [
  (1, 0x0000), (1, 0x0010), (12, 0x0000), (1, 0x4092), (1, 0xffff), (1, 0x0001), (2, 0x0000),
  (1, 0x005f), (1, 0xffff), (3, 0x0000), (1, 0x0f00), (6, 0x0000), (1, 0x0001), (1, 0x0000),
  (1, 0x0010), (12, 0x0000), (1, 0x4092), (1, 0xffff), (1, 0x0001), (2, 0x0000), (1, 0x0004),
  (1, 0xffff), (3, 0x0000), (1, 0x0f00), (6, 0x0000), (1, 0x0001), (1, 0x0000), (1, 0x0010),
  (12, 0x0000), (1, 0x4092), (1, 0xffff), (1, 0x0001), (2, 0x0000), (1, 0x0004), (1, 0xffff),
  (3, 0x0000), (1, 0x0f00), (6, 0x0000), (1, 0x0001), (1, 0x0000), (1, 0x0010), (12, 0x0000),
  (1, 0x4092), (1, 0xffff), (1, 0x0001), (2, 0x0000), (1, 0x0004), (1, 0xffff), (3, 0x0000),
  (1, 0x0f00), (6, 0x0000), (1, 0x0001), (1, 0x0000), (1, 0x0010), (12, 0x0000), (1, 0x4092),
  (1, 0xffff), (1, 0x0001), (2, 0x0000), (1, 0x0004), (1, 0xffff), (3, 0x0000), (1, 0x0f00),
  (6, 0x0000), (33, 0x0001), (1, 0x0000), (1, 0x0010), (12, 0x0000), (1, 0x4890), (1, 0xffff),
  (1, 0x0007), (2, 0x0000), (1, 0x0004), (1, 0xffff), (3, 0x0000), (1, 0x0c00), (6, 0x0000),
  (1, 0x0001), (1, 0x0000), (1, 0x0010), (12, 0x0000), (1, 0x4890), (1, 0xffff), (1, 0x0001),
  (2, 0x0000), (1, 0x0054), (1, 0xffff), (3, 0x0000), (1, 0x0c00), (6, 0x0000), (257, 0x0001),
  (1, 0x003e), (7, 0x004c), (16, 0x03e8), (1, 0x0032), (20, 0x0018), (1, 0x00ff), (11, 0x0000),
  (1, 0x0003), (7, 0x0000), (2, 0x0003), (1, 0x4e1f), (8, 0x0000), (4, 0x0001), (1, 0x0003),
  (176, 0x0000), (1, 0x1000), (2, 0x0f0f), (1, 0x000f), (5, 0x0000), (2, 0x0080), (1, 0x0001),
  (1, 0x0002), (1, 0x0004), (1, 0x0008), (5, 0x0001), (1, 0x0002), (1, 0x0004), (1, 0x0008),
  (5, 0x0001), (1, 0x0002), (1, 0x0004), (1, 0x0008), (5, 0x0001), (1, 0x0002), (1, 0x0004),
  (1, 0x0008), (5, 0x0001), (1, 0x0002), (1, 0x0004), (1, 0x0008), (92, 0x0001), (1, 0xffff),
  (1, 0x0001), (1, 0xffff), (1, 0x0001), (1, 0xffff), (1, 0x0001), (1, 0xffff), (1, 0x0001),
  (1, 0xffff), (1, 0x0001), (1, 0xffff), (1, 0x0001), (1, 0xffff), (1, 0x0007), (1, 0xffff),
  (17, 0x0001), (28, 0x0000), (1, 0x7fe7), (35, 0x01ff), (1, 0xffff), (1, 0x0001), (1, 0x3333),
  (1, 0x0000), (1, 0x051e), (8, 0x0000), (1, 0xffff), (1, 0x0007), (261, 0xffff), (1, 0x0009),
  (1, 0x0049), (1, 0x0000), (13, 0x8000), (1, 0x1f01), (5, 0x0000), (1, 0x0410), (2, 0x0000),
  (7, 0x0001), (1, 0x0006), (5, 0x0000), (1, 0xfbef), (217, 0x0000), (1, 0x0201), (1, 0x0403),
  (1, 0x0605), (1, 0x4b07), (1, 0x1110), (1, 0x1312), (1, 0x4140), (1, 0x484a), (1, 0x0809),
  (1, 0x3249), (1, 0x3047), (1, 0x4f31), (1, 0x4140), (1, 0x4342), (1, 0x4545), (1, 0x4746),
  (1, 0x4948), (1, 0x4b4a), (1, 0x4d4c), (1, 0x4f4e), (1, 0x1c1c), (1, 0x1c14), (1, 0x3f14),
  (1, 0x3f3f), (1, 0x1c1c), (26, 0x3f3f), (2, 0x101c), (160, 0x0000), (1, 0x005f), (1, 0x00ff),
  (20, 0x0000), (5, 0x0001), (16, 0x3f3f), (169, 0x0000), (1, 0x001f), (2, 0x0000), (1, 0x00df),
  (8, 0x0000), (1, 0x0003), (75, 0x0000), (1, 0x0100), (99, 0x0000), (1, 0x3210), (1, 0x7654),
  (4, 0x1111), (4, 0x3333), (4, 0x5555), (4, 0x7777), (4, 0x0000), (1, 0x8010), (1, 0x2040),
  (2, 0x0101), (1, 0x3210), (1, 0x7654), (1, 0x7777), (1, 0x0077), (1, 0x0000), (1, 0x0003),
  (1, 0x0000), (1, 0x8000), (5, 0x0000), (1, 0x3fff), (3, 0x3ff0), (18, 0x001f), (18, 0x00ff),
  (20, 0x0000), (1, 0x00c0), (6, 0x0000), (1, 0x017f), (48, 0x0000), (1, 0x4444), (3, 0x0014),
  (3, 0x0000), (1, 0x7777), (1, 0x0000), (1, 0x7711), (1, 0x1100), (1, 0x3322), (1, 0x1100),
  (1, 0x7732), (1, 0x2100), (1, 0x7743), (1, 0x2100), (1, 0x7543), (1, 0x3210), (2, 0x7654),
  (2, 0x0000), (1, 0x00ae), (2, 0x0000), (3, 0x3500), (19, 0x0002), (8, 0xffff), (1, 0x00ff),
  (161, 0x0000), (1, 0x0017), (37, 0x0000), (32, 0xfd57), (8, 0x0840), (8, 0x0000), (1, 0x020e),
  (9, 0x0000), (5, 0x0002), (1, 0x0000), (4, 0x001f), (1, 0x0c08), (1, 0x1410), (1, 0x0018),
  (5, 0x0000), (1, 0x0d09), (1, 0x1511), (1, 0x0019), (5, 0x0000), (1, 0x0f0b), (1, 0x1713),
  (1, 0x001b), (5, 0x0000), (1, 0x0e0a), (1, 0x1612), (1, 0x001a), (40, 0x0000), (1, 0x0004),
  (1658, 0x0000), (1, 0x0029), (1, 0x0000), (1, 0x0081), (1, 0x0000), (1, 0x0001), (1, 0x0081),
  (17, 0x0000), (1, 0x0029), (7, 0x0000), (1, 0x0081), (1, 0x0000), (1, 0x0001), (1, 0x0081),
  (5, 0x0000), (2, 0x0001), (212, 0x03e0), (1, 0x7fcb), (1, 0x0028), (1, 0x0080), (1, 0x00ed),
  (1, 0x0000), (1, 0x00ff), (2, 0x0000), (1, 0x1000), (1, 0x854b), (1, 0xb9e4), (1, 0xb0a7),
  (1, 0x0011), (7, 0x0000), (1, 0x000a), (1, 0x0000), (2, 0xffff), (1, 0x0000), (1, 0x0080),
  (2, 0x00b9), (1, 0x0000), (1, 0xfd05), (1, 0x03ca), (1, 0x01d6), (1, 0x01b8), (1, 0x01cc),
  (1, 0x01ae), (1, 0x01d6), (1, 0x01b8), (1, 0x01cc), (1, 0x01ae), (1, 0x00c0), (1, 0x00b4),
  (1, 0x0020), (1, 0x000c), (1, 0x641c), (3, 0x0000), (1, 0x00c0), (1, 0x00b4), (1, 0x0020),
  (1, 0x000c), (1, 0x0352), (1, 0x0064), (2, 0x0000), (1, 0x00a0), (1, 0x0078), (1, 0x0084),
  (1, 0x0030), (17, 0x0006), (1, 0x0014), (1, 0x0000), (1, 0x001a), (1, 0x0000), (5, 0x0003),
  (1, 0x0000), (1, 0x0002), (1, 0x0003), (8, 0x0000), (1, 0x0009), (4, 0x0003), (1, 0x0000),
  (1, 0x0002), (1, 0x0006), (15, 0x0000), (1, 0x8000), (1, 0x0001), (4, 0x0000), (3, 0x3ebc),
  (2, 0x0000), (1, 0x0001), (13, 0x0000), (1, 0xe000), (1, 0xfd8f), (1, 0x2f9f), (1, 0x9ff3),
  (1, 0x0036), (1, 0x0007), (1, 0x0022), (1, 0x0003), (7, 0x0000), (1, 0x0003), (3, 0x000d),
  (1, 0x2100), (1, 0x140a), (1, 0xc811), (1, 0x240a), (3, 0xc811), (5, 0x0096), (1, 0x0001),
  (2, 0x0014), (1, 0x0000), (2, 0x000a), (1, 0x0000), (1, 0x1014), (1, 0x040a), (1, 0x11ff),
  (1, 0x1014), (1, 0x040a), (1, 0x11ff), (1, 0x0001), (1, 0x0808), (1, 0x0000), (33, 0x0101),
  (14, 0x0000), (1, 0x060c), (1, 0x0300), (1, 0x0306), (1, 0x0308), (1, 0x0600), (1, 0x0500),
  (1, 0x0506), (7, 0x0000), (1, 0x1000), (1, 0x0001), (2, 0x0000), (1, 0x6367), (2, 0x00a0),
  (1, 0x06d6), (1, 0x0700), (1, 0xc000), (2, 0x0004), (1, 0x0000), (1, 0x0090), (1, 0x00f9),
  (1, 0x0000), (1, 0x1470), (2, 0x2000), (1, 0x085d), (21, 0x0000), (1, 0x0008), (11, 0x011e),
  (2, 0x29ab), (3, 0x9047), (6, 0x0041), (1, 0x0037), (1, 0x0000), (1, 0x000e), (1, 0x001f),
  (4, 0x0000), (5, 0x020c), (1, 0x001f), (8, 0x0000), (1, 0x0010), (4, 0x0080), (2, 0x0000),
  (9, 0x0076), (1, 0x0000), (1, 0x0001), (1, 0x0000), (1, 0x0280), (1, 0x0003), (1, 0x0000),
  (8, 0x0003), (48, 0x0000), (1, 0xffce), (33, 0x0000), (1, 0x0249), (1, 0x0000), (1, 0x1076),
  (1, 0x0004), (1, 0x0001), (1, 0x0000), (1, 0x3fff), (24, 0x0000), (1, 0x0003), (1, 0x003f),
  (2, 0x0000), (1, 0x0732), (1, 0x0214), (1, 0x0007), (1, 0x3000), (1, 0x0086), (1, 0x008e),
  (1, 0x15bb), (2, 0x0000), (1, 0x00ff), (1, 0x0002), (1, 0x0000), (1, 0x0013), (1, 0x0400),
  (1, 0x0c08), (1, 0x0010), (4, 0x0000), (1, 0x0090), (1, 0x000e), (5, 0x0000), (1, 0x0001),
  (1, 0x0000), (1, 0x0028), (1, 0x0000), (1, 0x0023), (1, 0x0000), (1, 0x0001), (1, 0x0000),
  (1, 0x0001), (1, 0x0000), (1, 0x0001), (45, 0x0000), (1, 0x0002), (9, 0x0000), (446, 0x0400),
  (256, 0xbfff), (1, 0x0111), (1, 0x0074), (32, 0x0000), (1, 0x1774), (9, 0x0000), (1, 0x3500),
  (1, 0x3032), (1, 0x2032), (1, 0x3130), (1, 0x6c20), (239, 0x4a75), (192, 0x0000), (1, 0x4004),
  (1, 0x0808), (2, 0x03e8), (1, 0x00ff), (1, 0x8196), (1, 0xbd3c), (1, 0x5ae7), (24, 0x0000),
  (1, 0x0014), (2, 0x0001), (1, 0x1010), (1, 0x002d), (2, 0x0000), (1, 0x0404), (1, 0x0004),
  (1, 0x0008), (1, 0x000a), (2, 0x0014), (3, 0x0800), (1, 0x2828), (1, 0x0010), (1, 0x040a),
  (1, 0x01ff), (1, 0x0004), (3, 0x00ff), (1, 0x0014), (1, 0x0020), (1, 0x003f), (1, 0x00ff),
  (228, 0xffff), (4, 0x0000), (1, 0x0001), (3, 0x0000), (1, 0x00ff), (5, 0x0000), (1, 0x00d2),
  (1, 0x0080), (4, 0x0000), (1, 0x0002), (1, 0x0003), (1, 0x0001), (45, 0x0000), (1, 0x00fe),
  (1, 0x0003), (1, 0x00ff), (1, 0x0002), (1, 0x0004), (1, 0x0020), (1, 0x0030), (2, 0x0000),
  (1, 0x0008), (1, 0x0020), (4, 0x0000), (1, 0x0003), (3, 0x0000), (1, 0x0003), (3, 0x0000),
  (1, 0x0003), (1, 0x0001), (163, 0x0000), (1, 0x1472), (1, 0x0000), (1, 0xd030), (1, 0x0096),
  (1, 0x0054), (1, 0x0b80), (8, 0x0000), (1, 0x7053), (1, 0x7774), (17, 0x0000), (1, 0x093f),
  (2, 0x0000), (2, 0xffff), (1, 0x0007), (1, 0x0000), (1, 0xbf94), (1, 0x00a5), (1, 0x0000),
  (1, 0x0fff), (1, 0x7fff), (1, 0x1bff), (2, 0x7fff), (208, 0x0000), (1, 0x0620), (1, 0x0000),
  (1, 0x007d), (1, 0x7878), (1, 0x0000), (5, 0x7d6a), (3, 0x7c00), (4, 0xffff), (4, 0x0000),
  (1, 0x0024), (10, 0x00ff), (103, 0x0000), (1, 0x0001), (1, 0x001b), (1, 0x08f0), (1, 0xc0a8),
  (1, 0x08da), (1, 0xc0a8), (1, 0x0050), (1, 0x84c8), (1, 0x0004), (1, 0x0000), (1, 0xb76d),
  (1, 0x0000), (1, 0x0078), (109, 0x0000), (1, 0x001f), (1, 0x0000), (1, 0x5110), (1, 0xa434),
  (12, 0x0000), (1, 0x1500), (1, 0x0000), (1, 0x0002), (1, 0x0000), (3, 0x0a69), (1, 0x0029),
  (1, 0x062e), (1, 0xd1f8), (1, 0x8e63), (1, 0x2539), (4, 0x0000), (1, 0x0040), (3, 0x0000),
  (1, 0x0040), (4, 0x0000), (1, 0x00ff), (6, 0x0000), (1, 0x0680), (1, 0x0006), (3, 0x0000),
  (1, 0x2ac9), (1, 0x0008), (1, 0x0093), (1, 0x0003), (1, 0x0000), (1, 0x2006), (1, 0x00a3),
  (2, 0x0000), (1, 0x0100), (2, 0x0000), (2, 0x0020), (1, 0x2411), (1, 0x8000), (1, 0x0008),
  (1, 0x000f), (1, 0x3f00), (1, 0x0270), (1, 0x0000), (1, 0x2411), (1, 0x8000), (1, 0x0008),
  (1, 0x000f), (1, 0x3f00), (1, 0x0270), (1, 0x0000), (1, 0x2411), (1, 0x8000), (1, 0x0008),
  (1, 0x000f), (1, 0x3f00), (1, 0x0270), (1, 0x0000), (1, 0x2411), (1, 0x8000), (1, 0x0008),
  (1, 0x000f), (1, 0x3f00), (1, 0x0270), (1, 0x0000), (1, 0xa400), (1, 0x0800), (1, 0x0000),
  (1, 0x03ff), (1, 0x1450), (2, 0x00ff), (2, 0x11fe), (9, 0x0000), (1, 0x0001), (2, 0x0000),
  (651, 0x0005)]

/-- The entry number `i` of a list given by its runs. -/
def runEntry : List (ℕ × ℕ) → ℕ → Option ℕ
  | [], _ => none
  | (n, v) :: runs, i => if i < n then some v else runEntry runs (i - n)

/-- `soc_regs` to begin with. -/
def socRegs (addr : LuaInt) : Option LuaInt :=
  (runEntry socRegRuns addr.toNat).map (BitVec.ofNat 64)

/-- There are 8192 entries. -/
example : socRegRuns.foldl (fun k r => k + r.1) 0 = 0x2000 := by decide +kernel

/-- A value found in a list of runs is the value of one of the runs. -/
lemma mem_of_runEntry {runs : List (ℕ × ℕ)} {i v : ℕ} (h : runEntry runs i = some v) :
    ∃ n, (n, v) ∈ runs := by
  induction runs generalizing i with
  | nil => exact absurd h (Option.some_ne_none v).symm
  | cons r runs ih =>
    rw [runEntry] at h
    split_ifs at h
    · obtain rfl := Option.some.inj h
      exact ⟨r.1, List.mem_cons_self⟩
    · obtain ⟨n, hn⟩ := ih h
      exact ⟨n, List.mem_cons_of_mem _ hn⟩

/-- Every entry in the table of the script is a number of 16 bits. -/
theorem socRegs_lt {addr v : LuaInt} (h : socRegs addr = some v) : v.toNat < 0x10000 := by
  have hall : ∀ r ∈ socRegRuns, r.2 < 0x10000 := by decide +kernel
  obtain ⟨k, hk, rfl⟩ := Option.map_eq_some_iff.1 h
  obtain ⟨n, hn⟩ := mem_of_runEntry hk
  have hlt : k < 0x10000 := hall _ hn
  rw [BitVec.toNat_ofNat]
  omega

end Rtl8367s

end Chip

end Emu51

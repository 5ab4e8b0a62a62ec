import Emu51.Library.PaddedChunks
import Emu51.Machine.State

/-!
# `unpackrtl.py`

The script turns a flash image into banks of 64 KiB. Bank 0 is the beginning of the image without
its first two bytes; in each further bank the next 48 KiB of the image follow 16 KiB of padding.
-/

namespace Emu51

/-- The output of `unpackrtl.py`. -/
def unpack (data : List Byte) : List Byte :=
  (data.take 0x4000).drop 2 ++ (List.replicate 0xc002 0 ++
    paddedChunks 0x4000 0xc000 0 (data.drop 0x4000))

variable {image : List Byte}

/-- The first bank loses the two bytes of its size. -/
lemma length_bank0 (hL : 0x4000 ≤ image.length) : ((image.take 0x4000).drop 2).length = 0x3ffe := by
  rw [List.length_drop, List.length_take_of_le hL]

/-- The beginning of the image has moved by two bytes. -/
theorem getElem?_unpack_low {c : ℕ} (hL : 0x4000 ≤ image.length) (hc : c < 0x3ffe) :
    (unpack image)[c]? = image[c + 2]? := by
  have hlen := length_bank0 hL
  rw [unpack, List.getElem?_append_left (by omega), List.getElem?_drop,
    List.getElem?_take_of_lt (by omega), Nat.add_comm]

/-- Behind the first bank there is padding up to `0x10000`. -/
theorem getElem?_unpack_gap {c : ℕ} (hL : 0x4000 ≤ image.length) (hc : 0x3ffe ≤ c)
    (hc' : c < 0x10000) : (unpack image)[c]? = some 0 := by
  have hlen := length_bank0 hL
  have hgap : (List.replicate 0xc002 (0 : Byte)).length = 0xc002 := List.length_replicate
  rw [unpack, List.getElem?_append_right (by omega), hlen, List.getElem?_append_left (by omega),
    List.getElem?_replicate, if_pos (by omega)]

/-- The further banks begin at `0x10000`, each behind padding of its own. -/
lemma getElem?_unpack_banks (hL : 0x4000 ≤ image.length) (i : ℕ) :
    (unpack image)[0x10000 + i]? = (paddedChunks 0x4000 0xc000 0 (image.drop 0x4000))[i]? := by
  have hlen := length_bank0 hL
  have hgap : (List.replicate 0xc002 (0 : Byte)).length = 0xc002 := List.length_replicate
  have hi : 0x10000 + i - 0x3ffe - 0xc002 = i := by omega
  rw [unpack, List.getElem?_append_right (by omega), hlen, List.getElem?_append_right (by omega),
    hgap, hi]

/-- Byte `i` of the image from `0x4000` on is in bank `i / 0xc000 + 1`. -/
theorem getElem?_unpack_bank {i : ℕ} (hi : 0x4000 + i < image.length) :
    (unpack image)[(i / 0xc000 + 1) * 0x10000 + (0x4000 + i % 0xc000)]? = image[0x4000 + i]? := by
  have hdrop : i < (image.drop 0x4000).length := by
    rw [List.length_drop]
    omega
  have hchunk : (paddedChunks 0x4000 0xc000 0 (image.drop 0x4000))[i / 0xc000 * (0x4000 + 0xc000) +
      (0x4000 + i % 0xc000)]? = (image.drop 0x4000)[i]? :=
    getElem?_paddedChunks (by omega) hdrop
  have hplace : (i / 0xc000 + 1) * 0x10000 + (0x4000 + i % 0xc000) =
      0x10000 + (i / 0xc000 * (0x4000 + 0xc000) + (0x4000 + i % 0xc000)) := by
    omega
  rw [hplace, getElem?_unpack_banks (by omega), hchunk, List.getElem?_drop]

/-- Each of these banks begins with `0x4000` bytes of padding, up to the last one. -/
theorem getElem?_unpack_pad {q j : ℕ} (hq : 0x4000 + q * 0xc000 < image.length) (hj : j < 0x4000) :
    (unpack image)[(q + 1) * 0x10000 + j]? = some 0 := by
  have hpad : (paddedChunks 0x4000 0xc000 (0 : Byte)
      (image.drop 0x4000))[q * (0x4000 + 0xc000) + j]? = some 0 := by
    refine getElem?_paddedChunks_pad (by omega) ?_ hj
    rw [List.length_drop]
    omega
  have hplace : (q + 1) * 0x10000 + j = 0x10000 + (q * (0x4000 + 0xc000) + j) := by omega
  rw [hplace, getElem?_unpack_banks (by omega), hpad]

/-! ## The way back -/

/-- The image, without its first two bytes, from the output of the script. An output of at most one
bank ends in padding. -/
def repack (out : List Byte) : List Byte :=
  if out.length ≤ 0x10000 then out.take (out.length - 0xc002)
  else out.take 0x3ffe ++ unpadChunks 0x4000 0xc000 (out.drop 0x10000)

/-- The script only uses what follows the first two bytes. -/
lemma unpack_eq (image : List Byte) : unpack image = (image.drop 2).take 0x3ffe ++
    (List.replicate 0xc002 0 ++ paddedChunks 0x4000 0xc000 0 ((image.drop 2).drop 0x3ffe)) := by
  rw [unpack, List.drop_take, List.drop_drop]

/-- The image is read back from the unpacked file, but for the two bytes of its size. -/
lemma repack_unpack (image : List Byte) : repack (unpack image) = image.drop 2 := by
  have hgap : (List.replicate 0xc002 (0 : Byte)).length = 0xc002 := List.length_replicate
  rw [unpack_eq]
  generalize image.drop 2 = data
  rcases Nat.lt_or_ge 0x3ffe data.length with hlong | hshort
  · have hfirst : (data.take 0x3ffe).length = 0x3ffe := List.length_take_of_le (Nat.le_of_lt hlong)
    have hpos : 0 < (paddedChunks 0x4000 0xc000 (0 : Byte) (data.drop 0x3ffe)).length := by
      rw [paddedChunks_of_pos 0x4000 0 (by decide) (by rw [List.length_drop]; omega),
        List.length_append, List.length_replicate]
      omega
    rw [repack, if_neg (by simp only [List.length_append, hfirst, hgap]; omega),
      List.take_left' hfirst, show (0x10000 : ℕ) = 0x3ffe + 0xc002 from rfl, ← List.drop_drop,
      List.drop_left' hfirst, List.drop_left' hgap, unpadChunks_paddedChunks 0x4000 0 (by decide),
      List.take_append_drop]
  · rw [List.take_of_length_le hshort, List.drop_eq_nil_of_le hshort, paddedChunks_nil,
      List.append_nil, repack, if_pos (by rw [List.length_append, hgap]; omega), List.length_append,
      hgap, Nat.add_sub_cancel, List.take_left' rfl]

/-- The script loses the first two bytes of an image, whatever its length, and nothing else: the
rest is read back, and images have the same output exactly if they agree from there on. -/
theorem unpack_lossless (image : List Byte) : repack (unpack image) = image.drop 2 ∧
    ∀ image', unpack image' = unpack image ↔ image'.drop 2 = image.drop 2 := by
  refine ⟨repack_unpack image, fun image' => ⟨fun h => ?_, fun h => ?_⟩⟩
  · rw [← repack_unpack image', h, repack_unpack]
  · rw [unpack_eq, h, ← unpack_eq]

end Emu51

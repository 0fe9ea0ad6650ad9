import Mathlib.Data.Nat.Bitwise

/-!
# The logo packer: `convert_to_bitmap`

Model of the packing loop of `convert_logo.convert_to_bitmap` (`convert_logo.py:28-38`), which
turns the binarised frame `final_img` into the byte table of a C header.

* The frame is a `Frame`: `final_img.getpixel((x, y))` is truthy exactly when the pixel is
  set (mode `'1'` gives 0 or 255). The image operations before the loop (PIL's flattening,
  resizing, thresholding and centring) are not modelled: the results hold for every frame.
* Each of the `height` rows is cut into `(width + 7) // 8` bytes (`rowBytes`). A byte starts
  at 0 and, for `bit` from 0 to 7, gets `1 << (7 - bit)` or-ed in when
  `x = x_byte * 8 + bit` is inside the row and its pixel is set (`orBit`, `packByte`). The
  loops append the bytes row by row (`packBitmap`), each written as `f"0x{byte:02X}"`
  (`hexByte`, `convertToBitmap`).

Results:
* `testBit_packByte`: bit `i` of a byte is the pixel `x_byte * 8 + 7 - i` when that is inside
  the row, and 0 otherwise; so every byte is below 256 (`packByte_lt`).
* `convertToBitmap_spec`: the table has `height * rowBytes width` entries, each the hexadecimal
  text of its byte; bit `7 - x % 8` of byte `y * rowBytes width + x / 8` is the pixel
  `(x, y)`, and every padding bit is 0. Reading the table back row by row, most significant
  bit first, gives the frame.
-/

namespace AssetPipeline

/-- `final_img.getpixel((x, y))`, as whether the pixel is set. -/
abbrev Frame := Nat → Nat → Bool

/-- `(width + 7) // 8`: the bytes of one row. -/
def rowBytes (width : Nat) : Nat := (width + 7) / 8

/-- One iteration of `for bit in range(8)` (`convert_logo.py:33-37`). -/
def orBit (img : Frame) (width y xByte byte bit : Nat) : Nat :=
  if xByte * 8 + bit < width ∧ img (xByte * 8 + bit) y = true then byte ||| 1 <<< (7 - bit)
  else byte

/-- The byte `x_byte` of row `y`. -/
def packByte (img : Frame) (width y xByte : Nat) : Nat :=
  (List.range 8).foldl (orBit img width y xByte) 0

/-- The two outer loops: the bytes in the order they are appended to `hex_data`. -/
def packBitmap (img : Frame) (width height : Nat) : List Nat :=
  (List.range height).flatMap fun y => (List.range (rowBytes width)).map (packByte img width y)

/-- An upper-case hexadecimal digit. -/
def hexDigit (n : Nat) : Char := "0123456789ABCDEF".toList.getD n '0'

/-- `f"0x{byte:02X}"` for a byte (below 256, so two digits). -/
def hexByte (byte : Nat) : String := ⟨['0', 'x', hexDigit (byte / 16), hexDigit (byte % 16)]⟩

/-- The table `convert_to_bitmap` returns for the frame. -/
def convertToBitmap (img : Frame) (width height : Nat) : List String :=
  (packBitmap img width height).map hexByte

/-- The value of an upper-case hexadecimal digit. -/
def hexDigitValue (c : Char) : Nat := "0123456789ABCDEF".toList.indexOf c

/-- The byte a header entry `0xHL` stands for. -/
def hexValue (s : String) : Nat :=
  match s.toList with
  | ['0', 'x', h, l] => 16 * hexDigitValue h + hexDigitValue l
  | _ => 0

/-! ## One byte -/

/-- The loop over `bit` or-s in, above what the byte held, the bits of the set pixels it
visits. -/
theorem testBit_foldl_orBit (img : Frame) (width y xByte i : Nat) (bits : List Nat) (acc : Nat) :
    (bits.foldl (orBit img width y xByte) acc).testBit i = (acc.testBit i || bits.any fun bit =>
      decide (7 - bit = i) && decide (xByte * 8 + bit < width) && img (xByte * 8 + bit) y) := by
  induction bits generalizing acc with
  | nil => simp
  | cons bit bits ih =>
    rw [List.foldl_cons, ih, List.any_cons]
    unfold orBit
    split
    · rename_i h
      simp only [Nat.testBit_or, Nat.one_shiftLeft, Nat.testBit_two_pow, h.1, h.2,
        decide_True, Bool.and_true, Bool.or_assoc]
    · rename_i h
      have : (decide (xByte * 8 + bit < width) && img (xByte * 8 + bit) y) = false := by
        simpa using h
      simp only [Bool.and_assoc, this, Bool.and_false, Bool.false_or]

/-- **Bit `i` of a byte is the pixel `x_byte * 8 + 7 - i`**, when `i < 8` and that pixel is in
the row; every other bit is 0. -/
theorem testBit_packByte (img : Frame) (width y xByte i : Nat) :
    (packByte img width y xByte).testBit i = (decide (i < 8) &&
      decide (xByte * 8 + (7 - i) < width) && img (xByte * 8 + (7 - i)) y) := by
  rw [packByte, testBit_foldl_orBit, Nat.zero_testBit, Bool.false_or]
  by_cases hi : i < 8
  · rw [Bool.eq_iff_iff]
    simp only [List.any_eq_true, List.mem_range, Bool.and_eq_true, decide_eq_true_eq, hi,
      true_and]
    constructor
    · rintro ⟨bit, hbit, ⟨hbi, hw⟩, himg⟩
      obtain rfl : bit = 7 - i := by omega
      exact ⟨hw, himg⟩
    · exact fun h => ⟨7 - i, by omega, ⟨by omega, h.1⟩, h.2⟩
  · rw [decide_eq_false hi, Bool.false_and, Bool.false_and, List.any_eq_false]
    intro bit _ h
    simp only [Bool.and_eq_true, decide_eq_true_eq] at h
    omega

theorem packByte_lt (img : Frame) (width y xByte : Nat) : packByte img width y xByte < 256 :=
  Nat.lt_pow_two_of_testBit (n := 8) _ fun i hi => by
    rw [testBit_packByte, decide_eq_false (by omega), Bool.false_and, Bool.false_and]

/-! ## The table -/

theorem packBitmap_succ (img : Frame) (width height : Nat) :
    packBitmap img width (height + 1) = packBitmap img width height ++
      (List.range (rowBytes width)).map (packByte img width height) := by
  simp [packBitmap, List.range_succ]

theorem length_packBitmap (img : Frame) (width height : Nat) :
    (packBitmap img width height).length = height * rowBytes width := by
  induction height with
  | zero => simp [packBitmap]
  | succ h ih =>
    rw [packBitmap_succ, List.length_append, ih, List.length_map, List.length_range,
      Nat.succ_mul]

/-- Byte `x_byte` of row `y` sits at `y * rowBytes width + x_byte`. -/
theorem getD_packBitmap (img : Frame) {width height y xByte : Nat} (hy : y < height)
    (hx : xByte < rowBytes width) :
    (packBitmap img width height).getD (y * rowBytes width + xByte) 0 =
      packByte img width y xByte := by
  induction height with
  | zero => omega
  | succ h ih =>
    rw [packBitmap_succ]
    rcases Nat.lt_succ_iff_lt_or_eq.mp hy with hy | rfl
    · have hlt : y * rowBytes width + xByte < (packBitmap img width h).length := by
        rw [length_packBitmap]
        calc y * rowBytes width + xByte < (y + 1) * rowBytes width := by rw [Nat.succ_mul]; omega
          _ ≤ h * rowBytes width := Nat.mul_le_mul_right _ hy
      rw [List.getD_append _ _ _ _ hlt, ih hy]
    · rw [List.getD_append_right _ _ _ _ (by rw [length_packBitmap]; omega), length_packBitmap,
        Nat.add_sub_cancel_left, List.getD_eq_getElem _ _ (by simpa using hx)]
      simp

/-- The text of a byte reads back as the byte. -/
theorem hexValue_hexByte {byte : Nat} (h : byte < 256) : hexValue (hexByte byte) = byte := by
  have hdigit : ∀ d < 16, hexDigitValue (hexDigit d) = d := by decide
  show 16 * hexDigitValue (hexDigit (byte / 16)) + hexDigitValue (hexDigit (byte % 16)) = byte
  rw [hdigit _ (by omega), hdigit _ (Nat.mod_lt _ (by decide))]
  omega

/-- **The packed table holds the frame**: `height * rowBytes width` entries, each the text of
its byte; bit `7 - x % 8` of byte `y * rowBytes width + x / 8` is the pixel `(x, y)`; and a bit
of a row's last byte past the row's end is 0. -/
theorem convertToBitmap_spec (img : Frame) (width height : Nat) :
    (convertToBitmap img width height).length = height * rowBytes width ∧
    (convertToBitmap img width height).map hexValue = packBitmap img width height ∧
    (∀ x y, x < width → y < height →
      ((packBitmap img width height).getD (y * rowBytes width + x / 8) 0).testBit (7 - x % 8) =
        img x y) ∧
    (∀ y xByte i, y < height → xByte < rowBytes width → i < 8 → width ≤ xByte * 8 + i →
      ((packBitmap img width height).getD (y * rowBytes width + xByte) 0).testBit (7 - i) =
        false) := by
  refine ⟨by rw [convertToBitmap, List.length_map, length_packBitmap], ?_,
    fun x y hx hy => ?_, fun y xByte i hy hxb hi hw => ?_⟩
  · rw [convertToBitmap, List.map_map, List.map_congr_left fun b hb => ?_, List.map_id']
    obtain ⟨y, -, hb⟩ := List.mem_flatMap.mp hb
    obtain ⟨xByte, -, rfl⟩ := List.mem_map.mp hb
    exact hexValue_hexByte (packByte_lt img width y xByte)
  · rw [getD_packBitmap img hy (by unfold rowBytes; omega), testBit_packByte]
    have hx8 : x / 8 * 8 + (7 - (7 - x % 8)) = x := by omega
    simp only [hx8, hx, decide_True, Bool.true_and, show 7 - x % 8 < 8 by omega]
  · rw [getD_packBitmap img hy hxb, testBit_packByte, show 7 - (7 - i) = i by omega]
    simp only [Nat.not_lt.mpr hw, decide_False, Bool.and_false, Bool.false_and]

/-- A 10 × 2 frame, so each row ends in a partial byte: the diagonal and the last column. -/
def stripeFrame : Frame := fun x y => x = y ∨ x = 9

theorem convertToBitmap_stripe :
    convertToBitmap stripeFrame 10 2 = ["0x80", "0x40", "0x40", "0x40"] ∧ (9 < 10 ∧ 1 < 2) ∧
      ((packBitmap stripeFrame 10 2).getD (1 * rowBytes 10 + 9 / 8) 0).testBit (7 - 9 % 8) =
        stripeFrame 9 1 :=
  ⟨by decide, ⟨by decide, by decide⟩,
    (convertToBitmap_spec stripeFrame 10 2).2.2.1 9 1 (by decide) (by decide)⟩

end AssetPipeline

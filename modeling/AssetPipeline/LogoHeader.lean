import Mathlib.Tactic.Ring
import AssetPipeline.Logo
import AssetPipeline.PyStr

/-!
# The logo headers

Model of the three writers of the C headers that hold the display's logos:
`logo_converter.convert_to_rgb565` (`scripts/logo_converter.py:5-38`),
`animate_logo.generate_animated_logo` (`scripts/animate_logo.py:6-98`, the part that writes the
header) and the main block of `convert_logo.py` (`convert_logo.py:44-62`), which prints the
tables `convert_to_bitmap` returns.

* A colour pixel is `img.getpixel((x, y))` of an `RGB` image: three 8-bit channels
  (`RgbFrame`). It is packed into one 16-bit word by
  `((r & 0xF8) << 8) | ((g & 0xFC) << 3) | (b >> 3)` (`rgb565`) and written as
  `f"0x{rgb565:04X}"` (`hexWord`).
* PIL's image operations (opening, `thumbnail`, cropping, rotating and pasting the saw) are not
  modelled: the results hold for every frame they can produce.
* The headers are read by a C compiler. `initElems` is what it reads from the text between the
  braces of an array initializer: the pieces between the commas, blanks stripped, where a last
  empty piece is the trailing comma C allows and any other empty piece is an error.

Results:
* `rgb565_eq`: the word holds the top five bits of red, six of green and five of blue, so it is
  below 65536 (`rgb565_lt`) and four hexadecimal digits write it.
* `rgb565Table_reads`: the array `convert_to_rgb565` writes holds the word of every pixel, row
  after row, and nothing else, for every frame at least one pixel wide.
* `frameTable_reads`: each frame array of the animated header holds every pixel of its frame,
  in order, whether the last line is full (and ends with a comma) or not.
* `logoTable_reads`: the tables `convert_logo.py` prints hold the bytes of `convert_to_bitmap`
  in order, nine to a line; for the 72-pixel-wide logos each line is one row of the frame
  (`logoLines_rows`).
-/

namespace AssetPipeline

/-! ## RGB565 -/

/-- `((r & 0xF8) << 8) | ((g & 0xFC) << 3) | (b >> 3)` (`logo_converter.py:29`,
`animate_logo.py:84`). -/
def rgb565 (r g b : Nat) : Nat := ((r &&& 0xF8) <<< 8) ||| ((g &&& 0xFC) <<< 3) ||| (b >>> 3)

/-- `img.getpixel((x, y))` of an `RGB` image: three 8-bit channels. -/
abbrev RgbFrame := Nat → Nat → Fin 256 × Fin 256 × Fin 256

/-- The word of a pixel. -/
def pixelWord (p : Fin 256 × Fin 256 × Fin 256) : Nat := rgb565 p.1 p.2.1 p.2.2

/-- `& 0xF8` and `& 0xFC` on a channel keep its top five and six bits. -/
theorem and_F8_FC : (∀ r < 256, r &&& 0xF8 = 8 * (r / 8)) ∧ ∀ g < 256, g &&& 0xFC = 4 * (g / 4) := by
  set_option maxRecDepth 2000 in decide

/-- **The three channels sit side by side**: bits 11-15 are the top of red, bits 5-10 the top
of green, bits 0-4 the top of blue. -/
theorem rgb565_eq {r g b : Nat} (hr : r < 256) (hg : g < 256) (hb : b < 256) :
    rgb565 r g b = 2048 * (r / 8) + 32 * (g / 4) + b / 8 := by
  obtain ⟨hR, hG⟩ := and_F8_FC
  have hRG : 8 * (r / 8) * 2 ^ 8 ||| 4 * (g / 4) * 2 ^ 3 = 2 ^ 5 * (64 * (r / 8) + g / 4) := by
    rw [show 8 * (r / 8) * 2 ^ 8 = 2 ^ 11 * (r / 8) by ring,
      ← Nat.mul_add_lt_is_or (show 4 * (g / 4) * 2 ^ 3 < 2 ^ 11 by omega)]
    ring
  rw [rgb565, hR r hr, hG g hg, Nat.shiftLeft_eq, Nat.shiftLeft_eq, Nat.shiftRight_eq_div_pow, hRG,
    ← Nat.mul_add_lt_is_or (show b / 2 ^ 3 < 2 ^ 5 by omega)]
  omega

theorem rgb565_lt {r g b : Nat} (hr : r < 256) (hg : g < 256) (hb : b < 256) :
    rgb565 r g b < 65536 := by
  rw [rgb565_eq hr hg hb]
  omega

/-! ## Hexadecimal entries -/

/-- `f"0x{v:04X}"` for a word below 65536: four upper-case digits. -/
def hexWord (v : Nat) : String :=
  ⟨['0', 'x', hexDigit (v / 4096 % 16), hexDigit (v / 256 % 16), hexDigit (v / 16 % 16),
    hexDigit (v % 16)]⟩

/-- The upper-case hexadecimal digits. -/
def hexDigits : List Char := "0123456789ABCDEF".toList

/-- The value of a C hexadecimal literal `0x…` with upper-case digits, when the text is one. -/
def hexLiteral : List Char → Option Nat
  | '0' :: 'x' :: d :: ds =>
    if (d :: ds).all hexDigits.contains then
      some ((d :: ds).foldl (fun a c => 16 * a + hexDigitValue c) 0)
    else none
  | _ => none

theorem hexDigit_mem (n : Nat) : hexDigit n ∈ hexDigits := by
  rw [hexDigit, List.getD_eq_getElem?_getD]
  cases h : "0123456789ABCDEF".toList[n]? with
  | none => decide
  | some c => exact List.getElem?_mem h

theorem hexDigitValue_hexDigit {n : Nat} (hn : n < 16) : hexDigitValue (hexDigit n) = n := by
  have : ∀ n < 16, hexDigitValue (hexDigit n) = n := by decide
  exact this n hn

theorem hexLiteral_digits {d : Char} {ds : List Char} (h : ∀ c ∈ d :: ds, c ∈ hexDigits) :
    hexLiteral ('0' :: 'x' :: d :: ds) =
      some ((d :: ds).foldl (fun a c => 16 * a + hexDigitValue c) 0) := by
  rw [hexLiteral, if_pos (List.all_eq_true.mpr fun c hc => List.elem_eq_true_of_mem (h c hc))]

/-- A word's entry reads back as the word. -/
theorem hexLiteral_hexWord {v : Nat} (hv : v < 65536) : hexLiteral (hexWord v).toList = some v := by
  rw [show (hexWord v).toList = ['0', 'x', hexDigit (v / 4096 % 16), hexDigit (v / 256 % 16),
      hexDigit (v / 16 % 16), hexDigit (v % 16)] from rfl, hexLiteral_digits (by simp [hexDigit_mem])]
  simp only [List.foldl_cons, List.foldl_nil, Option.some.injEq,
    hexDigitValue_hexDigit (Nat.mod_lt _ (show 0 < 16 by decide))]
  omega

/-- A byte's entry (`f"0x{byte:02X}"`, `convert_logo.py:38`) reads back as the byte. -/
theorem hexLiteral_hexByte {b : Nat} (hb : b < 256) : hexLiteral (hexByte b).toList = some b := by
  rw [show (hexByte b).toList = ['0', 'x', hexDigit (b / 16), hexDigit (b % 16)] from rfl,
    hexLiteral_digits (by simp [hexDigit_mem])]
  simp only [List.foldl_cons, List.foldl_nil, Option.some.injEq,
    hexDigitValue_hexDigit (Nat.mod_lt _ (show 0 < 16 by decide)),
    hexDigitValue_hexDigit (show b / 16 < 16 by omega)]
  omega

/-! ## Reading an array initializer -/

/-- The text between the commas of an initializer, blanks stripped. -/
def initPieces (body : List Char) : List (List Char) := (body.splitOn ',').map stripList

/-- The elements of a C array initializer `{ … }`, as the compiler reads the text between the
braces: a last empty piece is the trailing comma C allows, any other empty piece is an
error. -/
def initElems (body : List Char) : Option (List (List Char)) :=
  let ps := initPieces body
  let es := if ps.getLast? = some [] then ps.dropLast else ps
  if [] ∈ es then none else some es

/-- A table entry as a C token: not empty, with no comma and no blank at either end. -/
def Entry (w : List Char) : Prop := w ≠ [] ∧ ',' ∉ w ∧ stripList w = w

theorem dropWhile_isSpace_of_forall {l : List Char} (h : ∀ c ∈ l, isSpace c = false) :
    l.dropWhile isSpace = l := by
  cases l with
  | nil => rfl
  | cons c cs => exact List.dropWhile_cons_of_neg (by simp [h c (List.mem_cons_self _ _)])

theorem entry_hex {ds : List Char} (h : ∀ c ∈ ds, c ∈ hexDigits) : Entry ('0' :: 'x' :: ds) := by
  have hd : ∀ c ∈ '0' :: 'x' :: hexDigits, isSpace c = false ∧ c ≠ ',' := by decide
  have hall : ∀ c ∈ '0' :: 'x' :: ds, isSpace c = false ∧ c ≠ ',' := by
    simp only [List.forall_mem_cons] at hd ⊢
    exact ⟨hd.1, hd.2.1, fun c hc => hd.2.2 c (h c hc)⟩
  refine ⟨List.cons_ne_nil _ _, fun hc => (hall _ hc).2 rfl, ?_⟩
  unfold stripList
  rw [dropWhile_isSpace_of_forall fun c hc => (hall c hc).1,
    dropWhile_isSpace_of_forall fun c hc => (hall c (List.mem_reverse.mp hc)).1, List.reverse_reverse]

theorem entry_hexWord (v : Nat) : Entry (hexWord v).toList :=
  entry_hex (by simp [hexDigit_mem])

theorem entry_hexByte (b : Nat) : Entry (hexByte b).toList :=
  entry_hex (by simp [hexDigit_mem])

theorem splitOn_comma_append (a b : List Char) :
    (a ++ ',' :: b).splitOn ',' = a.splitOn ',' ++ b.splitOn ',' := by
  simp only [List.splitOn]
  induction a with
  | nil => simp
  | cons c a ih =>
    rw [List.cons_append, List.splitOnP_cons, List.splitOnP_cons, ih]
    split
    · rfl
    · obtain ⟨p, ps, h⟩ := List.exists_cons_of_ne_nil (List.splitOnP_ne_nil (· == ',') a)
      rw [h]
      rfl

/-- A comma ends the pieces of the text before it. -/
theorem initPieces_comma_append (a b : List Char) :
    initPieces (a ++ ',' :: b) = initPieces a ++ initPieces b := by
  rw [initPieces, splitOn_comma_append, List.map_append]
  rfl

/-- Blanks are stripped from the piece they start. -/
theorem initPieces_blank_cons {c : Char} (hc : isSpace c = true) (l : List Char) :
    initPieces (c :: l) = initPieces l := by
  have hne : (c == ',') = false := beq_false_of_ne fun h => by
    subst h
    exact absurd hc (by decide)
  simp only [initPieces, List.splitOn, List.splitOnP_cons, hne, if_neg Bool.false_ne_true]
  obtain ⟨p, ps, h⟩ := List.exists_cons_of_ne_nil (List.splitOnP_ne_nil (· == ',') l)
  have hs : stripList ([c] ++ p ++ []) = stripList p :=
    stripList_pad (by simpa using hc) (by simp)
  rw [List.append_nil, List.singleton_append] at hs
  rw [h, List.modifyHead, List.map_cons, List.map_cons, hs]

theorem initPieces_blanks {b : List Char} (hb : ∀ c ∈ b, isSpace c = true) (l : List Char) :
    initPieces (b ++ l) = initPieces l := by
  induction b with
  | nil => rfl
  | cons c b ih =>
    rw [List.cons_append, initPieces_blank_cons (hb c (List.mem_cons_self _ _)),
      ih fun c hc => hb c (List.mem_cons_of_mem _ hc)]

/-- An entry and the blanks after it are one piece, the entry. -/
theorem initPieces_entry {w t : List Char} (hw : Entry w) (ht : ∀ c ∈ t, isSpace c = true) :
    initPieces (w ++ t) = [w] := by
  have hcomma : ∀ c ∈ w ++ t, ¬ (c == ',') = true := fun c hc he => by
    rw [beq_iff_eq] at he
    subst he
    rcases List.mem_append.mp hc with h | h
    exacts [hw.2.1 h, absurd (ht _ h) (by decide)]
  rw [initPieces, List.splitOn, List.splitOnP_eq_single _ _ hcomma, List.map_singleton,
    show stripList (w ++ t) = stripList w by simpa using stripList_pad (l := []) (by simp) ht,
    hw.2.2]

/-- `", ".join(line)` reads back as the line's entries. -/
theorem initPieces_intercalate {w : String} {ws : List String} (hw : ∀ x ∈ w :: ws, Entry x.toList)
    {t : List Char} (ht : ∀ c ∈ t, isSpace c = true) :
    initPieces ((", ".intercalate (w :: ws)).toList ++ t) = (w :: ws).map String.toList := by
  rw [show (", ".intercalate (w :: ws)).toList =
    w.toList ++ (ws.map fun a => ", ".toList ++ a.toList).flatten from data_intercalate_go w ", " ws]
  induction ws generalizing w with
  | nil => simpa using initPieces_entry (hw w (List.mem_singleton_self _)) ht
  | cons x xs ih =>
    have hx : ∀ y ∈ x :: xs, Entry y.toList := fun y hy => hw y (List.mem_cons_of_mem _ hy)
    have hsplit : w.toList ++ ((x :: xs).map fun a => ", ".toList ++ a.toList).flatten ++ t =
        w.toList ++ ',' :: ' ' :: (x.toList ++ (xs.map fun a => ", ".toList ++ a.toList).flatten ++ t) := by
      simp only [List.map_cons, List.flatten_cons, List.append_assoc]
      rfl
    rw [hsplit, initPieces_comma_append, initPieces_blank_cons (by decide), ih hx,
      show initPieces w.toList = [w.toList] by
        simpa using initPieces_entry (hw w (List.mem_cons_self _ _)) (t := []) (by simp)]
    rfl

/-- A line `", ".join(line)` with its trailing comma and newline, then what follows. -/
theorem initPieces_line {w : String} {ws : List String} (hw : ∀ x ∈ w :: ws, Entry x.toList)
    (rest : List Char) :
    initPieces ((", ".intercalate (w :: ws)).toList ++ ',' :: '\n' :: rest) =
      (w :: ws).map String.toList ++ initPieces rest := by
  have h := initPieces_intercalate hw (t := []) (by simp)
  rw [List.append_nil] at h
  rw [initPieces_comma_append, initPieces_blank_cons (by decide), h]

/-- The compiler reads the entries, with or without a trailing comma. -/
theorem initElems_eq {es : List (List Char)} (hes : ∀ e ∈ es, e ≠ []) {body : List Char}
    (h : initPieces body = es ∨ initPieces body = es ++ [[]]) : initElems body = some es := by
  have hnot : [] ∉ es := fun hm => hes _ hm rfl
  unfold initElems
  rcases h with h | h
  · have hlast : es.getLast? ≠ some [] := fun hl => hnot (List.mem_of_getLast?_eq_some hl)
    simp only [h, if_neg hlast, if_neg hnot]
  · simp only [h, List.getLast?_concat, List.dropLast_concat, if_true, if_neg hnot]

/-- Rows of entries, each written as `", ".join(line) + ",\n"`, read back as their entries, with
the trailing comma of the last row. -/
theorem initPieces_rows {rows : List (List String)}
    (h : ∀ ws ∈ rows, ws ≠ [] ∧ ∀ w ∈ ws, Entry w.toList) :
    initPieces ((rows.map fun ws => (", ".intercalate ws ++ ",\n").toList).flatten) =
      (rows.flatMap fun ws => ws.map String.toList) ++ [[]] := by
  induction rows with
  | nil => rfl
  | cons ws rows ih =>
    obtain ⟨⟨w, ws', rfl⟩, hw⟩ := (fun ⟨hne, hw⟩ => ⟨List.exists_cons_of_ne_nil hne, hw⟩ :
      _ → (∃ w ws', ws = w :: ws') ∧ _) (h ws (List.mem_cons_self _ _))
    rw [List.map_cons, List.flatten_cons, toList_append,
      show (",\n" : String).toList = [',', '\n'] from rfl, List.append_assoc, List.cons_append,
      List.singleton_append, initPieces_line hw, ih fun r hr => h r (List.mem_cons_of_mem _ hr),
      List.flatMap_cons, List.append_assoc]

/-! ## `convert_to_rgb565` -/

/-- The `line` of row `y` (`logo_converter.py:24-31`): the words of its pixels. -/
def rgb565Line (img : RgbFrame) (width y : Nat) : List String :=
  (List.range width).map fun x => hexWord (pixelWord (img x y))

/-- The rows the loop writes, `", ".join(line) + ",\n"` each (`logo_converter.py:32`). -/
def rgb565Rows (img : RgbFrame) (width height : Nat) : List String :=
  (List.range height).map fun y => ", ".intercalate (rgb565Line img width y) ++ ",\n"

/-- `count` after the loops (`logo_converter.py:22-31`), which the script prints. -/
def rgb565Count (width height : Nat) : Nat :=
  (List.range height).foldl
    (fun count _ => (List.range width).foldl (fun count _ => count + 1) count) 0

/-- The text `convert_to_rgb565` writes to `output_path` (`logo_converter.py:14-35`). -/
def convertToRgb565 (img : RgbFrame) (width height : Nat) : String :=
  String.join (["#ifndef LOGO_POSIPRO_RGB565_H\n", "#define LOGO_POSIPRO_RGB565_H\n\n",
    "#include <Arduino.h>\n\n", "#define LOGO_WIDTH  " ++ toString width ++ "\n",
    "#define LOGO_HEIGHT " ++ toString height ++ "\n\n",
    "const uint16_t logo_posipro_rgb565[] PROGMEM = \x7b\n"] ++ rgb565Rows img width height ++
    ["\x7d;\n\n", "#endif\n"])

theorem pixelWord_lt (p : Fin 256 × Fin 256 × Fin 256) : pixelWord p < 65536 :=
  rgb565_lt p.1.isLt p.2.1.isLt p.2.2.isLt

theorem foldl_add_const {α : Type} (l : List α) (k c : Nat) :
    l.foldl (fun c _ => c + k) c = c + k * l.length := by
  induction l generalizing c with
  | nil => simp
  | cons a l ih =>
    rw [List.foldl_cons, ih, List.length_cons]
    ring

/-- The count the script prints is the number of pixels. -/
theorem rgb565Count_eq (width height : Nat) : rgb565Count width height = width * height := by
  simp only [rgb565Count, foldl_add_const, List.length_range]
  ring

/-- **The compiler reads the array `convert_to_rgb565` writes as the words of the frame, row
after row**, for every frame at least one pixel wide. -/
theorem rgb565Table_reads (img : RgbFrame) {width : Nat} (hw : 0 < width) (height : Nat) :
    (initElems (String.join (rgb565Rows img width height)).toList).map (·.map hexLiteral) =
      some ((List.range height).flatMap fun y =>
        (List.range width).map fun x => some (pixelWord (img x y))) := by
  have hrows : ∀ ws ∈ (List.range height).map (rgb565Line img width), ws ≠ [] ∧
      ∀ w ∈ ws, Entry w.toList := by
    simp only [List.mem_map, rgb565Line]
    rintro _ ⟨y, -, rfl⟩
    exact ⟨by simpa using Nat.pos_iff_ne_zero.mp hw, by
      simp only [List.mem_map]
      rintro _ ⟨x, -, rfl⟩
      exact entry_hexWord _⟩
  have hp : initPieces (((List.range height).map fun y =>
      ", ".intercalate (rgb565Line img width y) ++ ",\n").map String.toList).flatten =
      ((List.range height).flatMap fun y => (rgb565Line img width y).map String.toList) ++ [[]] := by
    simpa [List.map_map, Function.comp_def, List.flatMap_map] using initPieces_rows hrows
  rw [rgb565Rows, toList_join, initElems_eq ?_ (.inr hp)]
  · simp only [Option.map_some', List.flatMap_map, List.map_flatMap, rgb565Line, List.map_map,
      Function.comp_def, hexLiteral_hexWord (pixelWord_lt _)]
  · intro e he
    obtain ⟨y, hy, he⟩ := List.mem_flatMap.mp he
    obtain ⟨w, hw', rfl⟩ := List.mem_map.mp he
    exact ((hrows _ (List.mem_map_of_mem _ hy)).2 w hw').1

theorem rgb565Table_reads_orange :
    0 < 2 ∧ (initElems (String.join (rgb565Rows (fun _ _ => (255, 128, 0)) 2 1)).toList).map
      (·.map hexLiteral) = some ((List.range 1).flatMap fun y => (List.range 2).map fun x =>
        some (pixelWord ((fun _ _ => (255, 128, 0) : RgbFrame) x y))) :=
  ⟨by decide, rgb565Table_reads _ (by decide) 1⟩

/-! ## `generate_animated_logo` -/

/-- The loop over a frame's pixels with its `line` buffer (`animate_logo.py:80-90`): a line is
written with a trailing comma once it holds twelve entries, and what is left at the end is
written without one. -/
def lineLoop (line : List String) : List String → List String
  | [] => if line = [] then [] else [", ".intercalate line ++ "\n"]
  | e :: es =>
    if (line ++ [e]).length ≥ 12 then (", ".intercalate (line ++ [e]) ++ ",\n") :: lineLoop [] es
    else lineLoop (line ++ [e]) es

/-- The array name of frame `i`. -/
def frameName (i : Nat) : String := "logo_frame_" ++ toString i

/-- What the loop over the frames writes for frame `i`, whose pixels are `frame.getdata()`
(`animate_logo.py:78-91`). -/
def frameWrites (i : Nat) (pixels : List (Fin 256 × Fin 256 × Fin 256)) : List String :=
  ("const uint16_t " ++ frameName i ++ "[] PROGMEM = \x7b\n") ::
    lineLoop [] (pixels.map fun p => hexWord (pixelWord p)) ++ ["\x7d;\n\n"]

/-- The header `generate_animated_logo` writes (`animate_logo.py:70-96`) for its frames. -/
def animatedHeader (width height : Nat) (frames : List (List (Fin 256 × Fin 256 × Fin 256))) :
    String :=
  String.join (["#ifndef LOGO_POSIPRO_ANIMATED_H\n", "#define LOGO_POSIPRO_ANIMATED_H\n\n",
    "#include <Arduino.h>\n\n", "#define LOGO_WIDTH  " ++ toString width ++ "\n",
    "#define LOGO_HEIGHT " ++ toString height ++ "\n",
    "#define LOGO_FRAMES " ++ toString frames.length ++ "\n\n"] ++
    (frames.enum.flatMap fun (i, f) => frameWrites i f) ++
    ["const uint16_t* const logo_frames[] PROGMEM = \x7b\n",
      ", ".intercalate ((List.range frames.length).map frameName) ++ "\n", "\x7d;\n\n", "#endif\n"])

/-- What the loop has written, read back: the entries of the buffer and of the pixels still to
come, with a trailing comma when the last line was full. -/
theorem initPieces_lineLoop {line : List String} (es : List String) (hl : line.length < 12)
    (he : ∀ w ∈ line ++ es, Entry w.toList) :
    initPieces (String.join (lineLoop line es)).toList = (line ++ es).map String.toList ∨
      initPieces (String.join (lineLoop line es)).toList =
        (line ++ es).map String.toList ++ [[]] := by
  induction es generalizing line with
  | nil =>
    rw [lineLoop]
    split
    · subst line
      exact .inr rfl
    · obtain ⟨w, ws, rfl⟩ := List.exists_cons_of_ne_nil ‹_›
      left
      rw [List.append_nil, toList_join, List.map_singleton, List.flatten_singleton, toList_append]
      exact initPieces_intercalate (by simpa using he) (by decide)
  | cons e es ih =>
    rw [lineLoop]
    split
    · rename_i hfull
      obtain ⟨w, ws, hw⟩ := List.exists_cons_of_ne_nil
        (List.append_ne_nil_of_right_ne_nil line (List.cons_ne_nil e []))
      have hfull : ∀ x ∈ w :: ws, Entry x.toList := fun x hx => by
        rw [← hw, List.mem_append, List.mem_singleton] at hx
        rcases hx with hx | rfl
        exacts [he x (List.mem_append_left _ hx), he x (by simp)]
      have hrest := @ih [] (by simp) fun x hx =>
        he x (List.mem_append_right _ (List.mem_cons_of_mem _ hx))
      rw [toList_join, List.map_cons, List.flatten_cons, ← toList_join, toList_append, hw,
        show (",\n" : String).toList = [',', '\n'] from rfl, List.append_assoc,
        List.cons_append, List.singleton_append, initPieces_line hfull, ← hw]
      simp only [List.nil_append] at hrest
      rcases hrest with h | h <;> rw [h]
      · exact .inl (by simp)
      · exact .inr (by simp)
    · rename_i hfull
      simpa using @ih (line ++ [e]) (Nat.lt_of_not_le hfull) (by simpa using he)

/-- **Each frame array of the animated header reads back as the words of its frame's pixels**,
in order, whether its last line is full (and ends with a comma) or not. -/
theorem frameTable_reads (pixels : List (Fin 256 × Fin 256 × Fin 256)) :
    (initElems (String.join (lineLoop [] (pixels.map fun p => hexWord (pixelWord p)))).toList).map
      (·.map hexLiteral) = some (pixels.map fun p => some (pixelWord p)) := by
  have hent : ∀ w ∈ [] ++ pixels.map fun p => hexWord (pixelWord p), Entry w.toList := by
    simp only [List.nil_append, List.mem_map]
    rintro _ ⟨p, -, rfl⟩
    exact entry_hexWord _
  rw [initElems_eq ?_ (by simpa using initPieces_lineLoop _ (by decide) hent), Option.map_some',
    List.map_map]
  · exact congrArg some (List.map_congr_left fun p _ => hexLiteral_hexWord (pixelWord_lt p))
  · simp only [List.map_map, List.mem_map]
    rintro _ ⟨p, -, rfl⟩
    exact (entry_hexWord _).1

/-! ## The main block of `convert_logo.py` -/

/-- The lines the main block prints for one table (`convert_logo.py:58-59`):
`"    " + ", ".join(hex_data[i:i+9]) + ","` for `i` in `range(0, len(hex_data), 9)`. -/
def logoLines (hexData : List String) : List String :=
  (List.range' 0 ((hexData.length + 8) / 9) 9).map fun i =>
    "    " ++ ", ".intercalate ((hexData.drop i).take 9) ++ ","

/-- What the main block prints (`convert_logo.py:50-62`) for the logos `images`, each with the
frame `convert_to_bitmap` makes of its file; `print` ends every line with a newline. -/
def logosHeader (images : List (String × Frame)) : String :=
  String.join ((["#ifndef LOGOS_H", "#define LOGOS_H\n", "#include <Arduino.h>\n"] ++
    images.flatMap (fun (name, img) => ["// Logo " ++ name ++ ": 72x40",
      "static const uint8_t PROGMEM logo_" ++ name ++ "_bmp[] = \x7b"] ++
      logoLines (convertToBitmap img 72 40) ++ ["\x7d;\n"]) ++
    ["#endif // LOGOS_H"]).map (· ++ "\n"))

theorem range'_eq_map (s n k : Nat) : List.range' s n k = (List.range n).map (s + k * ·) := by
  induction n generalizing s with
  | zero => rfl
  | succ n ih =>
    rw [List.range', ih, List.range_succ_eq_map, List.map_cons, List.map_map]
    congr 1
    exact List.map_congr_left fun a _ => by
      simp only [Function.comp_apply, Nat.succ_eq_add_one]
      ring

/-- The slices `xs[i:i+9]` for `i` in `range(s, …, 9)` put back together. -/
theorem flatten_slices {α : Type} (l : List α) (k s : Nat) (hk : l.length ≤ s + 9 * k) :
    ((List.range' s k 9).map fun i => (l.drop i).take 9).flatten = l.drop s := by
  induction k generalizing s with
  | zero => simp [List.drop_eq_nil_of_le (by omega : l.length ≤ s)]
  | succ k ih =>
    rw [List.range', List.map_cons, List.flatten_cons, ih (s + 9) (by omega), ← List.drop_drop,
      List.take_append_drop]

/-- Printed lines of entries read back as the entries, with the trailing comma of the last. -/
theorem initPieces_logoLines {cs : List (List String)}
    (h : ∀ c ∈ cs, c ≠ [] ∧ ∀ w ∈ c, Entry w.toList) :
    initPieces ((cs.map fun c => ("    " ++ ", ".intercalate c ++ "," ++ "\n").toList).flatten) =
      (cs.flatten.map String.toList) ++ [[]] := by
  induction cs with
  | nil => rfl
  | cons c cs ih =>
    obtain ⟨hne, hc⟩ := h c (List.mem_cons_self _ _)
    obtain ⟨w, ws, rfl⟩ := List.exists_cons_of_ne_nil hne
    rw [List.map_cons, List.flatten_cons, toList_append, toList_append, toList_append,
      show ("    " : String).toList = [' ', ' ', ' ', ' '] from rfl,
      show ("," : String).toList = [','] from rfl, show ("\n" : String).toList = ['\n'] from rfl,
      List.append_assoc, List.append_assoc, List.append_assoc, initPieces_blanks (by decide),
      List.singleton_append, List.singleton_append, initPieces_line hc,
      ih fun c' hc' => h c' (List.mem_cons_of_mem _ hc'), List.flatten_cons, List.map_append,
      List.append_assoc]

/-- A printed table reads back as the entries of `hex_data`, in order. -/
theorem initElems_logoLines {hexData : List String} (h : ∀ w ∈ hexData, Entry w.toList) :
    initElems (String.join ((logoLines hexData).map (· ++ "\n"))).toList =
      some (hexData.map String.toList) := by
  have hslices : ∀ c ∈ (List.range' 0 ((hexData.length + 8) / 9) 9).map
      (fun i => (hexData.drop i).take 9), c ≠ [] ∧ ∀ w ∈ c, Entry w.toList := by
    simp only [List.mem_map, List.mem_range'_1]
    rintro _ ⟨i, hi, rfl⟩
    obtain ⟨j, hj, rfl⟩ := List.mem_range'.mp hi
    refine ⟨fun he => ?_, fun w hw => h w (List.mem_of_mem_drop (List.mem_of_mem_take hw))⟩
    have := congrArg List.length he
    simp only [List.length_take, List.length_drop, List.length_nil] at this
    omega
  refine initElems_eq (fun e he => ?_) (.inr ?_)
  · obtain ⟨w, hw, rfl⟩ := List.mem_map.mp he
    exact (h w hw).1
  · have hp := initPieces_logoLines hslices
    rw [flatten_slices hexData _ 0 (by omega), List.drop_zero, List.map_map] at hp
    rw [logoLines, List.map_map, toList_join, List.map_map]
    simpa [Function.comp_def] using hp

/-- **The compiler reads a table the main block prints as the bytes `convert_to_bitmap` packs**,
in order, nine to a line. -/
theorem logoTable_reads (img : Frame) (width height : Nat) :
    (initElems (String.join ((logoLines (convertToBitmap img width height)).map (· ++ "\n"))).toList).map
      (·.map hexLiteral) = some ((packBitmap img width height).map some) := by
  have hlt : ∀ b ∈ packBitmap img width height, b < 256 := by
    intro b hb
    obtain ⟨y, -, hb⟩ := List.mem_flatMap.mp hb
    obtain ⟨xByte, -, rfl⟩ := List.mem_map.mp hb
    exact packByte_lt img width y xByte
  rw [initElems_logoLines (by
      simp only [convertToBitmap, List.mem_map]
      rintro _ ⟨b, -, rfl⟩
      exact entry_hexByte b),
    Option.map_some', convertToBitmap, List.map_map, List.map_map]
  exact congrArg some (List.map_congr_left fun b hb => hexLiteral_hexByte (hlt b hb))

theorem length_flatMap_range {α : Type} {f : Nat → List α} {k : Nat} (hf : ∀ y, (f y).length = k)
    (h : Nat) : ((List.range h).flatMap f).length = k * h := by
  induction h with
  | zero => simp
  | succ h ih =>
    rw [List.range_succ, List.flatMap_append, List.length_append, ih, List.flatMap_singleton, hf]
    ring

/-- The slice `[k * y : k * y + k]` of rows of `k` entries each is row `y`. -/
theorem take_drop_flatMap_range {α : Type} {f : Nat → List α} {k : Nat}
    (hf : ∀ y, (f y).length = k) {y h : Nat} (hy : y < h) :
    (((List.range h).flatMap f).drop (k * y)).take k = f y := by
  induction h with
  | zero => omega
  | succ h ih =>
    rw [List.range_succ, List.flatMap_append, List.flatMap_singleton]
    rcases Nat.lt_succ_iff_lt_or_eq.mp hy with hy | rfl
    · have hle : k * y + k ≤ k * h := by simpa [Nat.mul_succ] using Nat.mul_le_mul_left k hy
      rw [List.drop_append_of_le_length (by rw [length_flatMap_range hf]; omega),
        List.take_append_of_le_length (by rw [List.length_drop, length_flatMap_range hf]; omega),
        ih hy]
    · rw [List.drop_left' (length_flatMap_range hf y), List.take_of_length_le (hf y).le]

/-- **For the 72-pixel-wide logos each printed line is one row of the frame**: its nine bytes,
for every frame and every height. -/
theorem logoLines_rows (img : Frame) (height : Nat) :
    logoLines (convertToBitmap img 72 height) = (List.range height).map fun y =>
      "    " ++ ", ".intercalate ((List.range 9).map fun xb => hexByte (packByte img 72 y xb)) ++
        "," := by
  have hrow : ∀ y, ((List.range 9).map fun xb => hexByte (packByte img 72 y xb)).length = 9 := by
    simp
  have hdata : convertToBitmap img 72 height = (List.range height).flatMap fun y =>
      (List.range 9).map fun xb => hexByte (packByte img 72 y xb) := by
    rw [convertToBitmap, packBitmap, show rowBytes 72 = 9 from rfl, List.map_flatMap]
    simp only [List.map_map, Function.comp_def]
  rw [logoLines, hdata, length_flatMap_range hrow, show (9 * height + 8) / 9 = height by omega,
    range'_eq_map, List.map_map]
  exact List.map_congr_left fun y hy => by
    simp only [Function.comp_apply, Nat.zero_add]
    rw [take_drop_flatMap_range hrow (List.mem_range.mp hy)]

end AssetPipeline

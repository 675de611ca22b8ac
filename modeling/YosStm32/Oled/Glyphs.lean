/-
**The built-in fonts put the right glyphs on the screen.**

`GlyphTable` is a font over a table that holds whole glyphs, and that is short enough for the index of a
character without a glyph to miss it: a character below `start_char` has a negative index, which comes
out at the upper end of the 16 bits. So what is sent for a page of a character is `GlyphTable.row`. On the
side of the display each row of bytes is a row of cells, from the column of its character on, and
none of them is outside the screen (`yosSsd1306Puts_glyphs`).
-/

import Mathlib.Tactic.SplitIfs
import YosStm32.Oled.Puts

namespace YosStm32.Oled

open Lib

/-! ### Tables of glyphs -/

/-- How many bytes a glyph has. -/
def YosSsd1306Font.glyphSize (font : YosSsd1306Font) : Nat := font.width.toNat * font.rowTake.toNat

/-- A font over a table of whole glyphs. -/
structure GlyphTable where
  font : YosSsd1306Font
  data : List UInt8
  count : Nat
  reads : font.getFontByte = some (fontGetByte data)
  size : font.fontDataLen.toNat = data.length
  whole : data.length = count * font.glyphSize
  wide : font.width ≠ 0
  high : font.height ≠ 0
  /-- No character without a glyph has an index in the table. -/
  apart : data.length + 255 * font.glyphSize ≤ 65536

/-- The number of a character's glyph, also where there is none. -/
def GlyphTable.number (glyphs : GlyphTable) (signed : Bool) (c : UInt8) : Int :=
  charValue signed c - charValue signed glyphs.font.startChar

/-- The character is neither below `start_char` nor past the table. -/
def GlyphTable.HasGlyph (glyphs : GlyphTable) (signed : Bool) (c : UInt8) : Prop :=
  0 ≤ glyphs.number signed c ∧ glyphs.number signed c < glyphs.count

instance (glyphs : GlyphTable) (signed : Bool) (c : UInt8) : Decidable (glyphs.HasGlyph signed c) :=
  inferInstanceAs (Decidable (_ ∧ _))

/-- The bytes for page `j` of a character. -/
def GlyphTable.row (glyphs : GlyphTable) (signed : Bool) (c : UInt8) (j : Nat) : List UInt8 :=
  if glyphs.HasGlyph signed c then
    (glyphs.data.drop
      ((glyphs.number signed c).toNat * glyphs.font.glyphSize + j * glyphs.font.width.toNat)).take
        glyphs.font.width.toNat
  else []

section Rows

variable (glyphs : GlyphTable) {signed : Bool} {c : UInt8}

/-- Two values of `char` differ by less than 256. -/
theorem charValue_sub_range (signed : Bool) (c d : UInt8) :
    -255 ≤ charValue signed c - charValue signed d ∧
      charValue signed c - charValue signed d ≤ 255 := by
  have one := c.toNat_lt
  have two := d.toNat_lt
  cases signed with
  | false =>
      simp only [charValue, Bool.false_eq_true, false_and, if_false]
      omega
  | true =>
      simp only [charValue, true_and]
      split_ifs <;> omega

/-- The bytes of a row inside the table. -/
theorem GlyphTable.rowBytes_inside {index : UInt16} {left : Nat} {i : UInt16}
    (inside : index.toNat + i.toNat + left ≤ glyphs.data.length) :
    rowBytes glyphs.font (fontGetByte glyphs.data) index left i =
      (glyphs.data.drop (index.toNat + i.toNat)).take left := by
  have length := glyphs.font.fontDataLen.toNat_lt
  rw [glyphs.size] at length
  induction left generalizing i with
  | zero => rw [rowBytes, List.take_zero]
  | succ left ih =>
      have here : index.toNat + i.toNat < glyphs.data.length := by omega
      have place : (index + i).toNat = index.toNat + i.toNat := by
        rw [UInt16.toNat_add]
        exact Nat.mod_eq_of_lt (by omega)
      have next : (i + 1).toNat = i.toNat + 1 := by
        rw [UInt16.toNat_add]
        exact Nat.mod_eq_of_lt (by rw [UInt16.toNat_one]; omega)
      have byte : fontGetByte glyphs.data (index + i) = glyphs.data[index.toNat + i.toNat] := by
        rw [fontGetByte, place, if_pos here, List.getD_eq_getElem?_getD, List.getElem?_eq_getElem here]
        rfl
      rw [rowBytes, glyphs.size, if_pos here, ih (by omega), next, byte, List.drop_eq_getElem_cons here,
        List.take_succ_cons]
      rfl

/-- A row past the table. -/
theorem GlyphTable.rowBytes_outside {index : UInt16} (outside : glyphs.data.length ≤ index.toNat)
    (left : Nat) (i : UInt16) : rowBytes glyphs.font (fontGetByte glyphs.data) index left i = [] := by
  cases left with
  | zero => rfl
  | succ left =>
      have past : ¬ index.toNat + i.toNat < glyphs.data.length := by omega
      rw [rowBytes, glyphs.size, if_neg past]

theorem toNat_ofInt (z : Int) : ((UInt16.ofInt z).toNat : Int) = z % 65536 := by
  have small : (z % 65536).toNat < 65536 := by omega
  have cut : (UInt16.ofInt z).toNat = (z % 65536).toNat % 65536 := UInt16.toNat_ofNat'
  rw [cut, Nat.mod_eq_of_lt small]
  omega

/-- The index of page `j`, before it is cut to 16 bits. -/
def GlyphTable.index (signed : Bool) (c : UInt8) (j : Nat) : Int :=
  glyphs.number signed c * glyphs.font.glyphSize + j * glyphs.font.width.toNat

/-- A row of a glyph lies in it. -/
theorem GlyphTable.row_le {j : Nat} (page : j < glyphs.font.rowTake.toNat) :
    j * glyphs.font.width.toNat + glyphs.font.width.toNat ≤ glyphs.font.glyphSize := by
  rw [← Nat.succ_mul, YosSsd1306Font.glyphSize, Nat.mul_comm glyphs.font.width.toNat]
  exact Nat.mul_le_mul_right _ page

/-- **The index of a glyph is in the table**, with the whole row. -/
theorem GlyphTable.index_inside (glyph : glyphs.HasGlyph signed c) {j : Nat}
    (page : j < glyphs.font.rowTake.toNat) :
    (UInt16.ofInt (glyphs.index signed c j)).toNat =
        (glyphs.number signed c).toNat * glyphs.font.glyphSize + j * glyphs.font.width.toNat ∧
      (glyphs.number signed c).toNat * glyphs.font.glyphSize + j * glyphs.font.width.toNat +
        glyphs.font.width.toNat ≤ glyphs.data.length := by
  obtain ⟨n, same⟩ := Int.eq_ofNat_of_zero_le glyph.1
  have small : n < glyphs.count := Int.ofNat_lt.mp (same ▸ glyph.2)
  have length := glyphs.font.fontDataLen.toNat_lt
  have row := glyphs.row_le page
  have whole : n * glyphs.font.glyphSize + glyphs.font.glyphSize ≤ glyphs.data.length := by
    rw [← Nat.succ_mul, glyphs.whole]
    exact Nat.mul_le_mul_right _ small
  have cut := toNat_ofInt (glyphs.index signed c j)
  rw [glyphs.size] at length
  rw [GlyphTable.index, same, ← Int.natCast_mul, ← Int.natCast_mul, ← Int.natCast_add] at cut
  rw [GlyphTable.index, same, ← Int.natCast_mul, ← Int.natCast_mul, ← Int.natCast_add,
    Int.toNat_natCast]
  omega

/-- **The index of any other character is past the table**, in all its pages. -/
theorem GlyphTable.index_outside (none : ¬ glyphs.HasGlyph signed c) {j : Nat}
    (page : j < glyphs.font.rowTake.toNat) :
    glyphs.data.length ≤ (UInt16.ofInt (glyphs.index signed c j)).toNat := by
  have row := glyphs.row_le page
  have apart := glyphs.apart
  have cut := toNat_ofInt (glyphs.index signed c j)
  obtain ⟨low, high⟩ := charValue_sub_range signed c glyphs.font.startChar
  have size : (0 : Int) ≤ glyphs.font.glyphSize := Int.natCast_nonneg _
  have least : -255 * (glyphs.font.glyphSize : Int) ≤ glyphs.number signed c * glyphs.font.glyphSize :=
    Int.mul_le_mul_of_nonneg_right low size
  have most : glyphs.number signed c * glyphs.font.glyphSize ≤ 255 * (glyphs.font.glyphSize : Int) :=
    Int.mul_le_mul_of_nonneg_right high size
  have positive := toNat_pos glyphs.wide
  rw [GlyphTable.index, ← Int.natCast_mul] at cut ⊢
  rcases Int.lt_or_le (glyphs.number signed c) 0 with below | atLeast
  · have negative : glyphs.number signed c * glyphs.font.glyphSize ≤ -1 * (glyphs.font.glyphSize : Int) :=
      Int.mul_le_mul_of_nonneg_right (Int.le_sub_one_of_lt below) size
    omega
  · have past : (glyphs.count : Int) ≤ glyphs.number signed c :=
      Int.not_lt.mp fun few => none ⟨atLeast, few⟩
    have behind : (glyphs.count : Int) * glyphs.font.glyphSize ≤
        glyphs.number signed c * glyphs.font.glyphSize := Int.mul_le_mul_of_nonneg_right past size
    rw [← Int.natCast_mul, ← glyphs.whole] at behind
    -- A table that is not empty has a glyph's length at least.
    rcases Nat.eq_zero_or_pos glyphs.count with empty | some
    · rw [glyphs.whole, empty, Nat.zero_mul]
      exact Nat.zero_le _
    · have one := Nat.le_mul_of_pos_left glyphs.font.glyphSize some
      rw [← glyphs.whole] at one
      omega

/-- **The bytes that are sent for one page of a character.** -/
theorem GlyphTable.rowBytes_eq (signed : Bool) (c : UInt8) {j : Nat}
    (page : j < glyphs.font.rowTake.toNat) :
    rowBytes glyphs.font (fontGetByte glyphs.data) (UInt16.ofInt (glyphs.index signed c j))
      glyphs.font.width.toNat 0 = glyphs.row signed c j := by
  rw [GlyphTable.row]
  split
  · rename_i glyph
    obtain ⟨place, fits⟩ := glyphs.index_inside glyph page
    rw [← place] at fits ⊢
    exact glyphs.rowBytes_inside fits
  · rename_i none
    exact glyphs.rowBytes_outside (glyphs.index_outside none page) _ 0

/-- One page further, the index is further by the width. -/
theorem GlyphTable.index_succ (signed : Bool) (c : UInt8) (j : Nat) :
    UInt16.ofInt (glyphs.index signed c j) + glyphs.font.width.toUInt16 =
      UInt16.ofInt (glyphs.index signed c (j + 1)) := by
  have further : glyphs.index signed c (j + 1) = glyphs.index signed c j + glyphs.font.width.toNat := by
    rw [GlyphTable.index, GlyphTable.index, Int.natCast_add, Int.natCast_one, Int.add_mul, Int.one_mul,
      Int.add_assoc]
  have width : glyphs.font.width.toUInt16 = UInt16.ofInt glyphs.font.width.toNat := by
    have bound := glyphs.font.width.toNat_lt
    have cut := toNat_ofInt glyphs.font.width.toNat
    refine UInt16.toNat_inj.mp ?_
    rw [UInt8.toNat_toUInt16]
    omega
  rw [further, UInt16.ofInt_add, width]

/-- The pages of a character from the `j`-th on. -/
theorem GlyphTable.rows_eq (signed : Bool) (c x y : UInt8) {left j : Nat}
    (all : j + left = glyphs.font.rowTake.toNat) :
    rows glyphs.font (fontGetByte glyphs.data) x y left (UInt16.ofNat j)
        (UInt16.ofInt (glyphs.index signed c j)) =
      (List.range' j left).flatMap fun j =>
        ssd1306Setpos x (UInt8.ofNat (y.toNat + j)) ++ [.data (glyphs.row signed c j)] := by
  induction left generalizing j with
  | zero => rfl
  | succ left ih =>
      have later := ih (by omega : j + 1 + left = glyphs.font.rowTake.toNat)
      have page : y + (UInt16.ofNat j).toUInt8 = UInt8.ofNat (y.toNat + j) := by
        rw [UInt8.ofNat_add, UInt8.ofNat_toNat, UInt16.toUInt8_ofNat']
      rw [UInt16.ofNat_add] at later
      rw [rows, glyphs.rowBytes_eq signed c (by omega), glyphs.index_succ, List.range'_succ,
        List.flatMap_cons, ← later, page, List.append_assoc]
      rfl

/-- **What is sent for a character.** -/
theorem GlyphTable.drawChar_eq (signed : Bool) (x y c : UInt8) :
    drawChar signed glyphs.font (fontGetByte glyphs.data) x y c =
      (List.range glyphs.font.rowTake.toNat).flatMap fun j =>
        ssd1306Setpos x (UInt8.ofNat (y.toNat + j)) ++ [.data (glyphs.row signed c j)] := by
  have all := glyphs.rows_eq signed c x y (Nat.zero_add glyphs.font.rowTake.toNat)
  have first : glyphs.index signed c 0 =
      (charValue signed c - charValue signed glyphs.font.startChar) *
        (glyphs.font.width.toNat * glyphs.font.rowTake.toNat) := by
    rw [GlyphTable.index, YosSsd1306Font.glyphSize, GlyphTable.number, Int.natCast_mul, Int.natCast_zero,
      Int.zero_mul, Int.add_zero]
  rw [first] at all
  rw [List.range_eq_range']
  exact all

theorem GlyphTable.row_length (signed : Bool) (c : UInt8) {j : Nat}
    (page : j < glyphs.font.rowTake.toNat) :
    (glyphs.row signed c j).length = if glyphs.HasGlyph signed c then glyphs.font.width.toNat else 0 := by
  rw [GlyphTable.row]
  split
  · rename_i glyph
    have fits := (glyphs.index_inside glyph page).2
    rw [List.length_take, List.length_drop]
    omega
  · rfl

end Rows

/-! ### Text on the screen -/

/-- The cells of some characters, drawn in a row. -/
def GlyphTable.cells (glyphs : GlyphTable) (signed : Bool) (x y : Nat) (text : List UInt8) : List Cell :=
  text.zipIdx.flatMap fun entry =>
    (List.range glyphs.font.rowTake.toNat).flatMap fun j =>
      (glyphs.row signed entry.1 j).mapIdx fun i byte =>
        ⟨y + j, x + entry.2 * glyphs.font.width.toNat + i, byte⟩

/-- The messages draw these characters, each in its place. -/
structure TextDrawn (glyphs : GlyphTable) (signed : Bool) (x y : Nat) (text : List UInt8)
    (messages : List Message) : Prop where
  sent : messages = text.zipIdx.flatMap fun entry =>
    (List.range glyphs.font.rowTake.toNat).flatMap fun j =>
      ssd1306Setpos (UInt8.ofNat (x + entry.2 * glyphs.font.width.toNat)) (UInt8.ofNat (y + j)) ++
        [.data (glyphs.row signed entry.1 j)]
  columns : ∀ k < text.length, x + (k + 1) * glyphs.font.width.toNat < 128
  pages : text ≠ [] → y + glyphs.font.rowTake.toNat ≤ 8
  lengths : ∀ c ∈ text, ∀ j < glyphs.font.rowTake.toNat, (glyphs.row signed c j).length =
    if glyphs.HasGlyph signed c then glyphs.font.width.toNat else 0
  written : ∀ display : Display,
    (display.receiveAll messages).written = display.written ++ glyphs.cells signed x y text
  onScreen : ∀ cell ∈ glyphs.cells signed x y text, cell.page < 8 ∧ cell.column < 128

section Text

variable (glyphs : GlyphTable) {signed : Bool} {text : List UInt8}

theorem toNat_ofNat_small {n : Nat} (small : n < 256) : (UInt8.ofNat n).toNat = n :=
  UInt8.toNat_ofNat_of_lt' small

/-- **All cells of the text are on the screen.** -/
theorem GlyphTable.cells_onScreen {x y : Nat}
    (columns : ∀ k < text.length, x + (k + 1) * glyphs.font.width.toNat < 128)
    (pages : text ≠ [] → y + glyphs.font.rowTake.toNat ≤ 8) {cell : Cell}
    (member : cell ∈ glyphs.cells signed x y text) : cell.page < 8 ∧ cell.column < 128 := by
  obtain ⟨⟨c, k⟩, inText, member⟩ := List.mem_flatMap.mp member
  obtain ⟨j, isPage, member⟩ := List.mem_flatMap.mp member
  obtain ⟨i, inside, rfl⟩ := List.mem_mapIdx.mp member
  have place := List.mem_zipIdx' inText
  have page := List.mem_range.mp isPage
  have fits := pages (List.ne_nil_of_length_pos (Nat.zero_lt_of_lt place.1))
  have column := columns k place.1
  rw [glyphs.row_length signed c page] at inside
  have before : i < glyphs.font.width.toNat := by
    split at inside
    · exact inside
    · exact absurd inside (Nat.not_lt_zero i)
  rw [Nat.succ_mul] at column
  exact ⟨by show y + j < 8; omega, by show x + k * _ + i < 128; omega⟩

/-- **Visible characters are drawn in their places.** -/
theorem GlyphTable.drawing_drawn {x y : UInt8}
    (columns : ∀ k < text.length, x.toNat + (k + 1) * glyphs.font.width.toNat < 128)
    (pages : text ≠ [] → y.toNat + glyphs.font.rowTake.toNat ≤ 8) :
    TextDrawn glyphs signed x.toNat y.toNat text
      (drawing signed glyphs.font (fontGetByte glyphs.data) x.toNat y text) where
  sent := by
    rw [drawing]
    simp only [glyphs.drawChar_eq]
  columns := columns
  pages := pages
  lengths := fun c _ j page => glyphs.row_length signed c page
  onScreen := fun _ member => glyphs.cells_onScreen columns pages member
  written := fun display => by
    rw [drawing, GlyphTable.cells]
    refine display.written_flatMap fun entry inText display => ?_
    rw [glyphs.drawChar_eq]
    refine display.written_flatMap fun j isPage display => ?_
    have place := List.mem_zipIdx' inText
    have page := List.mem_range.mp isPage
    have fits := pages (List.ne_nil_of_length_pos (Nat.zero_lt_of_lt place.1))
    have column := columns entry.2 place.1
    rw [Nat.succ_mul] at column
    have isColumn : (UInt8.ofNat (x.toNat + entry.2 * glyphs.font.width.toNat)).toNat =
        x.toNat + entry.2 * glyphs.font.width.toNat := toNat_ofNat_small (by omega)
    have isRow : (UInt8.ofNat (y.toNat + j)).toNat % 8 = y.toNat + j := by
      rw [toNat_ofNat_small (by omega)]
      omega
    rw [Display.written_row, isColumn, isRow]

/-- Text does not invert the display. -/
theorem TextDrawn.inverted {x y : Nat} {messages : List Message}
    (drawn : TextDrawn glyphs signed x y text messages) (display : Display) :
    (display.receiveAll messages).inverted = display.inverted := by
  rw [drawn.sent]
  refine display.inverted_flatMap fun entry _ display => ?_
  refine display.inverted_flatMap fun j _ display => ?_
  rw [Display.receiveAll_append, Display.receiveAll_setpos]
  rfl

/-- **The visible characters of a string are drawn.** -/
theorem GlyphTable.puts_drawn (signed : Bool) {s : List UInt8} (clean : 0 ∉ s) (rest : List UInt8)
    (x y : UInt8) :
    ∃ messages, yosSsd1306Puts signed (some glyphs.font) x y (some (s ++ 0 :: rest)) = some messages ∧
      TextDrawn glyphs signed x.toNat y.toNat
        (s.take (glyphs.font.visible x.toNat y.toNat s.length)) messages := by
  refine ⟨_, yosSsd1306Puts_draws glyphs.reads glyphs.wide glyphs.high clean rest x y, ?_⟩
  refine glyphs.drawing_drawn (fun k before => ?_) fun some => ?_
  · rw [List.length_take_of_le (YosSsd1306Font.visible_le ..)] at before
    exact ((YosSsd1306Font.lt_visible glyphs.wide).mp before).2.2
  · have first := List.length_pos_iff.mpr some
    rw [List.length_take_of_le (YosSsd1306Font.visible_le ..)] at first
    exact ((YosSsd1306Font.lt_visible glyphs.wide).mp first).2.1

/-- A string that ends before the last column is drawn whole. -/
theorem GlyphTable.puts_whole (signed : Bool) {s : List UInt8} (clean : 0 ∉ s) (rest : List UInt8)
    {x y : UInt8} (columns : x.toNat + s.length * glyphs.font.width.toNat < 128)
    (pages : y.toNat + glyphs.font.rowTake.toNat ≤ 8) :
    ∃ messages, yosSsd1306Puts signed (some glyphs.font) x y (some (s ++ 0 :: rest)) = some messages ∧
      TextDrawn glyphs signed x.toNat y.toNat s messages := by
  have all : s.length ≤ glyphs.font.visible x.toNat y.toNat s.length := by
    cases count : s.length with
    | zero => exact Nat.zero_le _
    | succ k =>
        rw [count] at columns
        exact (YosSsd1306Font.lt_visible glyphs.wide).mpr ⟨Nat.lt_succ_self k, pages, columns⟩
  have drawn := glyphs.puts_drawn signed clean rest x y
  rwa [List.take_of_length_le all] at drawn

end Text

/-! ### The two fonts -/

/-- `YOS_SSD1306_FONT_6X8` and `YOS_SSD1306_FONT_8X16`. -/
inductive BuiltInFont where
  | font6X8
  | font8X16
  deriving DecidableEq, Repr

theorem font6X8_length : ssd1306xledFont6x8data.length = 92 * 6 := by decide +kernel

theorem font8X16_length : ssd1306xledFont8x16data.length = 95 * 16 := by decide +kernel

def BuiltInFont.glyphs : BuiltInFont → GlyphTable
  | .font6X8 =>
      { font := yosSsd1306Font6X8
        data := ssd1306xledFont6x8data
        count := 92
        reads := rfl
        size := by rw [yosSsd1306Font6X8, font6X8_length]; rfl
        whole := font6X8_length
        wide := by decide
        high := by decide
        apart := by rw [font6X8_length]; decide }
  | .font8X16 =>
      { font := yosSsd1306Font8X16
        data := ssd1306xledFont8x16data
        count := 95
        reads := rfl
        size := by rw [yosSsd1306Font8X16, font8X16_length]; rfl
        whole := font8X16_length
        wide := by decide
        high := by decide
        apart := by rw [font8X16_length]; decide }

/-- **Text in a built-in font stays on the screen, and shows the right glyphs.** -/
theorem yosSsd1306Puts_glyphs (signed : Bool) (builtIn : BuiltInFont) {s : List UInt8} (clean : 0 ∉ s)
    (rest : List UInt8) (x y : UInt8) :
    ∃ messages, yosSsd1306Puts signed (some builtIn.glyphs.font) x y (some (s ++ 0 :: rest)) =
        some messages ∧
      TextDrawn builtIn.glyphs signed x.toNat y.toNat
        (s.take (builtIn.glyphs.font.visible x.toNat y.toNat s.length)) messages :=
  builtIn.glyphs.puts_drawn signed clean rest x y

/-- An `A` between two bytes without a glyph. -/
theorem yosSsd1306Puts_glyphs_some :
    ∃ messages, yosSsd1306Puts true (some yosSsd1306Font8X16) 0 0 (some [10, 65, 200, 0]) =
        some messages ∧
      TextDrawn BuiltInFont.font8X16.glyphs true 0 0 [10, 65, 200] messages :=
  yosSsd1306Puts_glyphs true .font8X16 (by decide : (0 : UInt8) ∉ [10, 65, 200]) [] 0 0

end YosStm32.Oled

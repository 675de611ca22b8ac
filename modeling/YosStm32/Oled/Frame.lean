/-
**What the display shows.**

The display memory has a byte for each column of each page; the address counter goes from the end of a page to
the next, and from the end of the last one to the first (`Cell.place`). What is shown at a place is what was
written there last (`Display.screen`). `ssd1306_fill` and `ssd1306_fill4` set every place, a text and a bitmap
the places of their rectangle, and each leaves all others alone.
-/

import YosStm32.Lib.Overlay
import YosStm32.Oled.Glyphs

namespace YosStm32.Oled

open Lib

/-! ### The display memory -/

/-- The place of a cell: the columns of a page are side by side, and the pages follow one another. -/
def Cell.place (cell : Cell) : Nat := (cell.page * 128 + cell.column) % 1024

/-- The byte that some cells leave at a column of a page. -/
def shown (cells : List Cell) (page column : Nat) : Option UInt8 :=
  lastWrite (cells.map fun cell => (cell.place, cell.byte)) (page * 128 + column)

/-- The byte at a column of a page, `none` if it has never been written. -/
def Display.screen (display : Display) (page column : Nat) : Option UInt8 := shown display.written page column

section Memory

theorem shown_append (first second : List Cell) (page column : Nat) :
    shown (first ++ second) page column = (shown second page column).or (shown first page column) := by
  rw [shown, List.map_append, lastWrite_append]
  rfl

theorem Display.screen_append {display next : Display} {cells : List Cell}
    (written : next.written = display.written ++ cells) (page column : Nat) :
    next.screen page column = (shown cells page column).or (display.screen page column) := by
  rw [Display.screen, written, shown_append]
  rfl

/-- Bytes that are sent in a row, possibly over several pages. -/
theorem shown_run (page column : Nat) {bytes : List UInt8}
    (fits : page * 128 + column + bytes.length ≤ 1024) (p c : Nat) :
    shown (bytes.mapIdx fun i byte => ⟨page, column + i, byte⟩) p c =
      if page * 128 + column ≤ p * 128 + c then bytes[p * 128 + c - (page * 128 + column)]? else none := by
  have places : (bytes.mapIdx fun i byte => Cell.mk page (column + i) byte).map
      (fun cell => (cell.place, cell.byte)) =
        bytes.mapIdx fun i byte => (page * 128 + column + i, byte) := by
    refine List.ext_getElem? fun i => ?_
    rw [List.getElem?_map, List.getElem?_mapIdx, List.getElem?_mapIdx, Option.map_map]
    cases here : bytes[i]? with
    | none => rfl
    | some byte =>
        have inside := (List.getElem?_eq_some_iff.mp here).1
        have place : (page * 128 + (column + i)) % 1024 = page * 128 + column + i := by omega
        exact congrArg (fun place => some (place, byte)) place
  rw [shown, places, lastWrite_row]

/-- Bytes that stay in their page. -/
theorem shown_row (page column : Nat) {bytes : List UInt8} (range : page < 8)
    (fits : column + bytes.length ≤ 128) (p : Nat) {c : Nat} (inside : c < 128) :
    shown (bytes.mapIdx fun i byte => ⟨page, column + i, byte⟩) p c =
      if p = page ∧ column ≤ c then bytes[c - column]? else none := by
  rw [shown_run page column (by omega)]
  by_cases here : p = page ∧ column ≤ c
  · have offset : p * 128 + c - (page * 128 + column) = c - column := by omega
    rw [if_pos here, if_pos (by omega), offset]
  · rw [if_neg here]
    split
    · exact List.getElem?_eq_none (by omega)
    · rfl

/-- **Rows under one another.** -/
theorem shown_rows {rows : Nat → List UInt8} {x y n : Nat}
    (columns : ∀ j < n, x + (rows j).length ≤ 128) (pages : y + n ≤ 8) (p : Nat) {c : Nat}
    (inside : c < 128) :
    shown ((List.range n).flatMap fun j => (rows j).mapIdx fun i byte => ⟨y + j, x + i, byte⟩) p c =
      if y ≤ p ∧ p < y + n ∧ x ≤ c then (rows (p - y))[c - x]? else none := by
  induction n with
  | zero =>
      rw [if_neg (by omega)]
      rfl
  | succ n ih =>
      have row := shown_row (y + n) x (by omega) (columns n (Nat.lt_succ_self n)) p inside
      rw [List.range_succ, List.flatMap_append, List.flatMap_singleton, shown_append, row,
        ih (fun j before => columns j (Nat.lt_succ_of_lt before)) (by omega)]
      by_cases last : p = y + n
      · subst last
        rw [if_neg (by omega : ¬ (y ≤ y + n ∧ y + n < y + n ∧ x ≤ c)), Option.or_none,
          Nat.add_sub_cancel_left]
        by_cases right : x ≤ c
        · rw [if_pos ⟨rfl, right⟩, if_pos (by omega)]
        · rw [if_neg (by omega), if_neg (by omega)]
      · rw [if_neg (by omega), Option.none_or]
        by_cases before : y ≤ p ∧ p < y + n ∧ x ≤ c
        · rw [if_pos before, if_pos (by omega)]
        · rw [if_neg before, if_neg (by omega)]

end Memory

/-! ### Whole screens -/

/-- `ssd1306_fill4`. -/
def ssd1306Fill4 (p1 p2 p3 p4 : UInt8) : List Message :=
  ssd1306Setpos 0 0 ++ [.data (List.replicate (128 * 8 / 4) [p1, p2, p3, p4]).flatten]

section Whole

variable {bytes : List UInt8} {p c : Nat}

/-- Bytes for the whole screen. -/
theorem Display.screen_whole (display : Display) (whole : bytes.length = 1024) (page : p < 8)
    (column : c < 128) :
    (display.receiveAll (ssd1306Setpos 0 0 ++ [.data bytes])).screen p c = bytes[p * 128 + c]? := by
  have written := display.written_row 0 0 bytes
  have all : shown (bytes.mapIdx fun i byte => ⟨0, 0 + i, byte⟩) p c = bytes[p * 128 + c]? := by
    rw [shown_run 0 0 (by omega), if_pos (by omega)]
    rfl
  rw [Display.screen_append written]
  refine (congrArg (Option.or · _) all).trans ?_
  rw [List.getElem?_eq_getElem (by omega)]
  rfl

/-- **`ssd1306_fill` leaves nothing of what was there.** -/
theorem Display.screen_fill (display : Display) (byte : UInt8) (page : p < 8) (column : c < 128) :
    (display.receiveAll (ssd1306Fill byte)).screen p c = some byte := by
  rw [ssd1306Fill, display.screen_whole (List.length_replicate ..) page column, List.getElem?_replicate,
    if_pos (by omega)]

theorem getElem?_flatten_replicate {pattern : List UInt8} {count i : Nat}
    (inside : i < count * pattern.length) :
    (List.replicate count pattern).flatten[i]? = pattern[i % pattern.length]? := by
  induction count generalizing i with
  | zero => exact absurd inside (by omega)
  | succ count ih =>
      rw [List.replicate_succ, List.flatten_cons]
      by_cases first : i < pattern.length
      · rw [List.getElem?_append_left first, Nat.mod_eq_of_lt first]
      · rw [Nat.succ_mul] at inside
        rw [List.getElem?_append_right (by omega), ih (by omega), ← Nat.mod_eq_sub_mod (by omega)]

/-- **`ssd1306_fill4` repeats its four bytes** over all pages. -/
theorem Display.screen_fill4 (display : Display) (p1 p2 p3 p4 : UInt8) (page : p < 8) (column : c < 128) :
    (display.receiveAll (ssd1306Fill4 p1 p2 p3 p4)).screen p c = [p1, p2, p3, p4][c % 4]? := by
  have length : (List.replicate (128 * 8 / 4) [p1, p2, p3, p4]).flatten.length = 1024 := by
    rw [List.length_flatten, List.map_replicate, List.sum_replicate_nat]
    rfl
  have same : (p * 128 + c) % 4 = c % 4 := by omega
  rw [ssd1306Fill4, display.screen_whole length page column,
    getElem?_flatten_replicate (by show _ < 1024; omega)]
  exact congrArg ([p1, p2, p3, p4][·]?) same

end Whole

/-! ### Text -/

/-- The byte of a text at a column of a page. -/
def GlyphTable.textByte (glyphs : GlyphTable) (signed : Bool) (x y : Nat) (text : List UInt8)
    (page column : Nat) : Option UInt8 :=
  if y ≤ page ∧ page < y + glyphs.font.rowTake.toNat ∧ x ≤ column then
    text[(column - x) / glyphs.font.width.toNat]?.bind fun c =>
      (glyphs.row signed c (page - y))[(column - x) % glyphs.font.width.toNat]?
  else none

section Text

variable (glyphs : GlyphTable) {signed : Bool}

theorem GlyphTable.row_length_le (signed : Bool) (c : UInt8) {j : Nat}
    (page : j < glyphs.font.rowTake.toNat) : (glyphs.row signed c j).length ≤ glyphs.font.width.toNat := by
  rw [glyphs.row_length signed c page]
  split
  · exact Nat.le_refl _
  · exact Nat.zero_le _

theorem GlyphTable.cells_cons (x y : Nat) (c : UInt8) (text : List UInt8) :
    glyphs.cells signed x y (c :: text) =
      ((List.range glyphs.font.rowTake.toNat).flatMap fun j =>
        (glyphs.row signed c j).mapIdx fun i byte => ⟨y + j, x + i, byte⟩) ++
        glyphs.cells signed (x + glyphs.font.width.toNat) y text := by
  have further : ∀ k i, x + (k + 1) * glyphs.font.width.toNat + i =
      x + glyphs.font.width.toNat + k * glyphs.font.width.toNat + i := by
    intro k i
    rw [Nat.succ_mul]
    omega
  rw [GlyphTable.cells, GlyphTable.cells, List.zipIdx_cons', List.flatMap_cons, List.flatMap_map]
  simp only [Prod.map, id_eq, Nat.zero_mul, Nat.add_zero, further]

/-- **The cells of a text, seen at a place.** -/
theorem GlyphTable.shown_cells {x y : Nat} {text : List UInt8}
    (columns : x + text.length * glyphs.font.width.toNat ≤ 128)
    (pages : y + glyphs.font.rowTake.toNat ≤ 8) {page column : Nat} (inside : column < 128) :
    shown (glyphs.cells signed x y text) page column = glyphs.textByte signed x y text page column := by
  have wide := toNat_pos glyphs.wide
  induction text generalizing x with
  | nil =>
      rw [GlyphTable.textByte]
      split <;> rfl
  | cons c text ih =>
      rw [List.length_cons, Nat.succ_mul] at columns
      have short : ∀ j < glyphs.font.rowTake.toNat, x + (glyphs.row signed c j).length ≤ 128 := by
        intro j before
        have row := glyphs.row_length_le signed c before
        omega
      rw [glyphs.cells_cons, shown_append, shown_rows short pages page inside, ih (by omega)]
      unfold GlyphTable.textByte
      by_cases there : y ≤ page ∧ page < y + glyphs.font.rowTake.toNat ∧ x ≤ column
      · rw [if_pos there, if_pos there]
        by_cases later : x + glyphs.font.width.toNat ≤ column
        · -- the place is in the characters behind the first one
          have row := glyphs.row_length_le signed c (by omega : page - y < glyphs.font.rowTake.toNat)
          have beyond : (glyphs.row signed c (page - y))[column - x]? = none :=
            List.getElem?_eq_none (by omega)
          have split : column - x = column - (x + glyphs.font.width.toNat) + glyphs.font.width.toNat := by
            omega
          rw [if_pos ⟨there.1, there.2.1, later⟩, beyond, Option.or_none, split, Nat.add_div_right _ wide,
            Nat.add_mod_right, List.getElem?_cons_succ]
        · rw [if_neg fun further => later further.2.2, Option.none_or, Nat.div_eq_of_lt (by omega),
            Nat.mod_eq_of_lt (by omega), List.getElem?_cons_zero, Option.bind_some]
      · rw [if_neg there, if_neg there, if_neg (by omega)]
        rfl

/-- **A text covers its own places only.** -/
theorem TextDrawn.screen {x y : Nat} {text : List UInt8} {messages : List Message}
    (drawn : TextDrawn glyphs signed x y text messages) (display : Display) (page : Nat) {column : Nat}
    (inside : column < 128) :
    (display.receiveAll messages).screen page column =
      (glyphs.textByte signed x y text page column).or (display.screen page column) := by
  rw [Display.screen_append (drawn.written display)]
  cases text with
  | nil =>
      have nothing : glyphs.textByte signed x y [] page column = none := by
        rw [GlyphTable.textByte]
        split <;> rfl
      rw [nothing]
      rfl
  | cons c text =>
      have last := drawn.columns text.length (Nat.lt_succ_self _)
      rw [glyphs.shown_cells (Nat.le_of_lt last) (drawn.pages (List.cons_ne_nil _ _)) inside]

end Text

/-! ### Bitmaps -/

/-- The inner loop of `ssd1306_draw_bmp`; `none` if it reads past the end of `bitmap`. -/
def drawBmpRow (bitmap : List UInt8) : (left : Nat) → (j : UInt16) → Option (List UInt8 × UInt16)
  | 0, j => some ([], j)
  | left + 1, j =>
      bitmap[j.toNat]?.bind fun byte =>
        (drawBmpRow bitmap left (j + 1)).map fun (bytes, j) => (byte :: bytes, j)

/-- The outer loop. -/
def drawBmpRows (bitmap : List UInt8) (x0 x1 : UInt8) : (left : Nat) → (y : UInt8) → (j : UInt16) →
    Option (List Message)
  | 0, _, _ => some []
  | left + 1, y, j =>
      (drawBmpRow bitmap (x1.toNat - x0.toNat) j).bind fun (bytes, j) =>
        (drawBmpRows bitmap x0 x1 left (y + 1) j).map fun messages =>
          ssd1306Setpos x0 y ++ [.data bytes] ++ messages

/-- `ssd1306_draw_bmp`. What it computes from `y1` first is overwritten by the loop. -/
def ssd1306DrawBmp (x0 y0 x1 y1 : UInt8) (bitmap : List UInt8) : Option (List Message) :=
  drawBmpRows bitmap x0 x1 (y1.toNat - y0.toNat) y0 0

section Bitmaps

variable {bitmap : List UInt8}

/-- **A row of the bitmap**; the index does not wrap. -/
theorem drawBmpRow_eq {left : Nat} {j : UInt16} (small : j.toNat + left < 65536) :
    drawBmpRow bitmap left j =
      if left = 0 ∨ j.toNat + left ≤ bitmap.length then
        some ((bitmap.drop j.toNat).take left, UInt16.ofNat (j.toNat + left))
      else none := by
  induction left generalizing j with
  | zero =>
      rw [if_pos (Or.inl rfl), Nat.add_zero, UInt16.ofNat_toNat]
      rfl
  | succ left ih =>
      have next : (j + 1).toNat = j.toNat + 1 := by
        rw [UInt16.toNat_add]
        exact Nat.mod_eq_of_lt (by show j.toNat + 1 < 65536; omega)
      have rest := ih (by omega : (j + 1).toNat + left < 65536)
      rw [next] at rest
      rw [drawBmpRow]
      by_cases inside : j.toNat < bitmap.length
      · rw [List.getElem?_eq_getElem inside, Option.bind_some, rest]
        by_cases more : j.toNat + (left + 1) ≤ bitmap.length
        · rw [if_pos (by omega), if_pos (Or.inr more), List.drop_eq_getElem_cons inside, List.take_succ_cons,
            Nat.add_right_comm]
          rfl
        · rw [if_neg (by omega), if_neg (by omega)]
          rfl
      · rw [List.getElem?_eq_none (Nat.le_of_not_lt inside), if_neg (by omega)]
        rfl

/-- **The rows of the bitmap.** -/
theorem drawBmpRows_eq {x0 x1 : UInt8} {left width : Nat} (wide : x1.toNat - x0.toNat = width) (y : UInt8)
    (j : UInt16) (small : j.toNat + left * width < 65536) :
    drawBmpRows bitmap x0 x1 left y j =
      if left * width = 0 ∨ j.toNat + left * width ≤ bitmap.length then
        some ((List.range left).flatMap fun k => ssd1306Setpos x0 (y + UInt8.ofNat k) ++
          [.data ((bitmap.drop (j.toNat + k * width)).take width)])
      else none := by
  induction left generalizing y j with
  | zero =>
      rw [if_pos (Or.inl (Nat.zero_mul _))]
      rfl
  | succ left ih =>
      rw [Nat.succ_mul] at small ⊢
      rw [drawBmpRows, wide, drawBmpRow_eq (by omega)]
      by_cases row : width = 0 ∨ j.toNat + width ≤ bitmap.length
      · have index : (UInt16.ofNat (j.toNat + width)).toNat = j.toNat + width :=
          Nat.mod_eq_of_lt (by show _ < 65536; omega)
        have rest := ih (y + 1) (UInt16.ofNat (j.toNat + width)) (by omega)
        have later : ∀ k, y + UInt8.ofNat (k + 1) = y + 1 + UInt8.ofNat k := by
          intro k
          rw [UInt8.ofNat_add, UInt8.add_assoc, UInt8.add_comm 1]
          rfl
        have place : ∀ k, j.toNat + (k + 1) * width = j.toNat + width + k * width := by
          intro k
          rw [Nat.succ_mul]
          omega
        rw [index] at rest
        rw [if_pos row, Option.bind_some]
        dsimp only
        rw [rest]
        by_cases all : left * width = 0 ∨ j.toNat + width + left * width ≤ bitmap.length
        · rw [if_pos all, if_pos (by omega), List.range_succ_eq_map, List.flatMap_cons, List.flatMap_map]
          have first : y + UInt8.ofNat 0 = y := UInt8.add_zero y
          simp only [Option.map_some, Nat.zero_mul, Nat.add_zero, place, Nat.succ_eq_add_one, later, first]
        · rw [if_neg all, if_neg (by omega)]
          rfl
      · rw [if_neg row, if_neg (by omega)]
        rfl

/-- A bitmap can be drawn if and only if it has a byte for each column of each page. -/
theorem ssd1306DrawBmp_eq (x0 y0 x1 y1 : UInt8) (bitmap : List UInt8) :
    ssd1306DrawBmp x0 y0 x1 y1 bitmap =
      if (y1.toNat - y0.toNat) * (x1.toNat - x0.toNat) ≤ bitmap.length then
        some ((List.range (y1.toNat - y0.toNat)).flatMap fun k => ssd1306Setpos x0 (y0 + UInt8.ofNat k) ++
          [.data ((bitmap.drop (k * (x1.toNat - x0.toNat))).take (x1.toNat - x0.toNat))])
      else none := by
  have right := x1.toNat_lt
  have bottom := y1.toNat_lt
  have most : (y1.toNat - y0.toNat) * (x1.toNat - x0.toNat) ≤ 255 * 255 :=
    Nat.mul_le_mul (by omega) (by omega)
  have small : (0 : UInt16).toNat + (y1.toNat - y0.toNat) * (x1.toNat - x0.toNat) < 65536 := by
    show 0 + _ < 65536
    omega
  have rows : drawBmpRows bitmap x0 x1 (y1.toNat - y0.toNat) y0 0 = _ := drawBmpRows_eq rfl y0 0 small
  have first : (0 : UInt16).toNat = 0 := rfl
  simp only [first, Nat.zero_add] at rows
  rw [ssd1306DrawBmp, rows]
  by_cases enough : (y1.toNat - y0.toNat) * (x1.toNat - x0.toNat) ≤ bitmap.length
  · rw [if_pos (Or.inr enough), if_pos enough]
  · rw [if_neg (by omega), if_neg enough]

/-- What the rows of a bitmap write: one of them a page. -/
theorem Display.written_bmp (display : Display) (x0 : UInt8) {y0 : UInt8} {h : Nat} (w : Nat)
    (bottom : h = 0 ∨ y0.toNat + h ≤ 8) :
    (display.receiveAll ((List.range h).flatMap fun k =>
        ssd1306Setpos x0 (y0 + UInt8.ofNat k) ++ [.data ((bitmap.drop (k * w)).take w)])).written =
      display.written ++ (List.range h).flatMap fun k =>
        ((bitmap.drop (k * w)).take w).mapIdx fun i byte => ⟨y0.toNat + k, x0.toNat + i, byte⟩ := by
  refine display.written_flatMap fun k member display => ?_
  have before := List.mem_range.mp member
  have row : (y0 + UInt8.ofNat k).toNat % 8 = y0.toNat + k := by
    rw [UInt8.toNat_add, UInt8.toNat_ofNat']
    omega
  rw [display.written_row, row]

/-- **A bitmap covers its rectangle and nothing else.** It can be drawn whenever it is long enough; the 16 bits
of its index are enough for every rectangle. -/
theorem ssd1306DrawBmp_screen {x0 y0 x1 y1 : UInt8}
    (enough : (y1.toNat - y0.toNat) * (x1.toNat - x0.toNat) ≤ bitmap.length) (right : x1.toNat ≤ 128)
    (bottom : y1.toNat ≤ 8) (display : Display) (page : Nat) {column : Nat} (inside : column < 128) :
    ∃ messages, ssd1306DrawBmp x0 y0 x1 y1 bitmap = some messages ∧
      (display.receiveAll messages).screen page column =
        if y0.toNat ≤ page ∧ page < y1.toNat ∧ x0.toNat ≤ column ∧ column < x1.toNat then
          bitmap[(page - y0.toNat) * (x1.toNat - x0.toNat) + (column - x0.toNat)]?
        else display.screen page column := by
  rw [ssd1306DrawBmp_eq, if_pos enough]
  refine ⟨_, rfl, ?_⟩
  generalize height : y1.toNat - y0.toNat = h at enough
  generalize width : x1.toNat - x0.toNat = w at enough
  have lengths : ∀ k, ((bitmap.drop (k * w)).take w).length ≤ w := fun k => List.length_take_le _ _
  rw [Display.screen_append (display.written_bmp x0 w (by omega))]
  by_cases empty : h = 0 ∨ w = 0
  · have nothing : ((List.range h).flatMap fun k =>
        ((bitmap.drop (k * w)).take w).mapIdx fun i byte => Cell.mk (y0.toNat + k) (x0.toNat + i) byte) = [] := by
      rcases empty with rfl | rfl
      · rfl
      · exact List.flatMap_eq_nil_iff.mpr fun _ _ => rfl
    rw [nothing, if_neg (by omega)]
    rfl
  · have short : ∀ k < h, x0.toNat + ((bitmap.drop (k * w)).take w).length ≤ 128 := by
      intro k _
      have row := lengths k
      omega
    rw [shown_rows short (by omega) page inside]
    by_cases there : y0.toNat ≤ page ∧ page < y0.toNat + h ∧ x0.toNat ≤ column
    · rw [if_pos there, List.getElem?_take, List.getElem?_drop]
      by_cases before : column - x0.toNat < w
      · have last : page - y0.toNat + 1 ≤ h := by omega
        have rows := Nat.mul_le_mul_right w last
        rw [Nat.succ_mul] at rows
        rw [if_pos before, if_pos (by omega), List.getElem?_eq_getElem (by omega)]
        rfl
      · rw [if_neg before, if_neg (by omega)]
        rfl
    · rw [if_neg there, if_neg (by omega)]
      rfl

/-- Two columns of two pages. -/
theorem ssd1306DrawBmp_screen_square :
    ∃ messages, ssd1306DrawBmp 126 6 128 8 [1, 2, 3, 4] = some messages ∧
      (Display.receiveAll ⟨0, 0, false, []⟩ messages).screen 7 126 = some 3 :=
  ssd1306DrawBmp_screen (by decide) (by decide) (by decide) ⟨0, 0, false, []⟩ 7 (by decide)

end Bitmaps

end YosStm32.Oled

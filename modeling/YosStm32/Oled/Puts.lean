/-
**Drawing text** (`yos_ssd1306_font.c`).

`yosSsd1306Puts` draws characters one after the other, until the next one is out of range. The check
for that is one for all of them: of a string, the first `visible` characters are drawn
(`yosSsd1306Puts_draws`), which end before the last column of the screen. So a character that would end
right at the edge is left out (`yosSsd1306Puts_longest`).
-/

import YosStm32.Lib.CString
import YosStm32.Oled.Fonts
import YosStm32.Oled.Ssd1306

namespace YosStm32.Oled

open Lib

/-- `_yos_ssd1306_is_out_of_range`. -/
def yosSsd1306IsOutOfRange (font : YosSsd1306Font) (x y : UInt8) : Bool :=
  decide (x.toNat + font.width.toNat ≥ yosSsd1306ScreenWidth ∨
    y.toNat + font.rowTake.toNat > yosSsd1306ScreenHeight / yosSsd1306ScreenMemUnitHeight)

/-- `yos_ssd1306_char_col_to_pixel`. -/
def yosSsd1306CharColToPixel (font : Option YosSsd1306Font) (col : UInt8) : UInt8 :=
  match font with
  | none => UInt8.ofNat yosSsd1306ScreenWidth
  | some font => col * font.width

/-- `while (i < font->width)`, with as many rounds left. -/
def rowBytes (font : YosSsd1306Font) (get : UInt16 → UInt8) (index : UInt16) :
    (left : Nat) → (i : UInt16) → List UInt8
  | 0, _ => []
  | left + 1, i =>
      if index.toNat + i.toNat < font.fontDataLen.toNat then
        get (index + i) :: rowBytes font get index left (i + 1)
      else []

/-- `while (j < font->row_take)`, with as many rounds left. -/
def rows (font : YosSsd1306Font) (get : UInt16 → UInt8) (x y : UInt8) :
    (left : Nat) → (j index : UInt16) → List Message
  | 0, _, _ => []
  | left + 1, j, index =>
      ssd1306Setpos x (y + j.toUInt8) ++ .data (rowBytes font get index font.width.toNat 0) ::
        rows font get x y left (j + 1) (index + font.width.toUInt16)

/-- What the loop over the string does with a character that is in range. -/
def drawChar (signed : Bool) (font : YosSsd1306Font) (get : UInt16 → UInt8) (x y c : UInt8) :
    List Message :=
  rows font get x y font.rowTake.toNat 0
    (UInt16.ofInt ((charValue signed c - charValue signed font.startChar) *
      (font.width.toNat * font.rowTake.toNat)))

/-- `while (*c != '\0')`. -/
def putsLoop (signed : Bool) (font : YosSsd1306Font) (get : UInt16 → UInt8) (y : UInt8) :
    List UInt8 → (x : UInt8) → Option (List Message)
  | [], _ => none
  | c :: rest, x =>
      if c ≠ 0 then
        if yosSsd1306IsOutOfRange font x y then some []
        else
          (putsLoop signed font get y rest (x + font.width)).map (drawChar signed font get x y c ++ ·)
      else some []

/-- `yos_ssd1306_puts`. -/
def yosSsd1306Puts (signed : Bool) (font : Option YosSsd1306Font) (x y : UInt8)
    (str : Option (List UInt8)) : Option (List Message) :=
  match font, str with
  | some font, some str =>
      match font.getFontByte with
      | some get =>
          if font.width = 0 ∨ font.height = 0 then some [] else putsLoop signed font get y str x
      | none => some []
  | _, _ => some []

/-! ### How far it comes -/

/-- Some characters drawn in a row, from the column `x` on. -/
def drawing (signed : Bool) (font : YosSsd1306Font) (get : UInt16 → UInt8) (x : Nat) (y : UInt8)
    (s : List UInt8) : List Message :=
  s.zipIdx.flatMap fun entry =>
    drawChar signed font get (UInt8.ofNat (x + entry.2 * font.width.toNat)) y entry.1

/-- How many characters of a string are in range. -/
def YosSsd1306Font.visible (font : YosSsd1306Font) (x y length : Nat) : Nat :=
  if y + font.rowTake.toNat ≤ 8 then min length ((127 - x) / font.width.toNat) else 0

section Drawing

variable {signed : Bool} {font : YosSsd1306Font} {get : UInt16 → UInt8} {s : List UInt8}

theorem toNat_pos {c : UInt8} (nonzero : c ≠ 0) : 0 < c.toNat :=
  Nat.pos_of_ne_zero fun zero => nonzero (UInt8.toNat_inj.mp zero)

theorem drawing_cons (x : Nat) (y c : UInt8) (s : List UInt8) :
    drawing signed font get x y (c :: s) =
      drawChar signed font get (UInt8.ofNat x) y c ++
        drawing signed font get (x + font.width.toNat) y s := by
  have shift : ∀ k : Nat, x + (k + 1) * font.width.toNat =
      x + font.width.toNat + k * font.width.toNat := fun k => by
    rw [Nat.succ_mul, Nat.add_comm (k * font.width.toNat), Nat.add_assoc]
  rw [drawing, List.zipIdx_cons', List.flatMap_cons, List.flatMap_map, Nat.zero_mul, Nat.add_zero]
  simp only [Prod.map_fst, Prod.map_snd, id_eq, shift]
  rfl

/-- The last column that is written is before the last one of the screen. -/
theorem YosSsd1306Font.lt_visible (wide : font.width ≠ 0) {x y length k : Nat} :
    k < font.visible x y length ↔
      k < length ∧ y + font.rowTake.toNat ≤ 8 ∧ x + (k + 1) * font.width.toNat < 128 := by
  have positive := toNat_pos wide
  have atLeast : font.width.toNat ≤ (k + 1) * font.width.toNat :=
    Nat.le_mul_of_pos_left _ (Nat.succ_pos k)
  have whole : k < (127 - x) / font.width.toNat ↔ (k + 1) * font.width.toNat ≤ 127 - x :=
    Nat.le_div_iff_mul_le positive
  rw [YosSsd1306Font.visible]
  split
  · rename_i inside
    rw [Nat.lt_min, whole]
    refine and_congr_right fun _ => ⟨fun fits => ⟨inside, by omega⟩, fun fits => by omega⟩
  · rename_i outside
    refine ⟨fun none => absurd none (Nat.not_lt_zero k), fun fits => absurd fits.2.1 outside⟩

theorem YosSsd1306Font.visible_le (x y length : Nat) : font.visible x y length ≤ length := by
  rw [YosSsd1306Font.visible]
  split
  · exact Nat.min_le_left _ _
  · exact Nat.zero_le _

theorem outOfRange_iff {x y : UInt8} :
    yosSsd1306IsOutOfRange font x y = true ↔
      ¬ (y.toNat + font.rowTake.toNat ≤ 8 ∧ x.toNat + font.width.toNat < 128) := by
  rw [yosSsd1306IsOutOfRange, decide_eq_true_eq]
  show x.toNat + font.width.toNat ≥ 128 ∨ y.toNat + font.rowTake.toNat > 8 ↔ _
  omega

/-- One character after the first. -/
theorem YosSsd1306Font.visible_succ (wide : font.width ≠ 0) {x y : Nat}
    (pages : y + font.rowTake.toNat ≤ 8) (columns : x + font.width.toNat < 128) (length : Nat) :
    font.visible x y (length + 1) = font.visible (x + font.width.toNat) y length + 1 := by
  have fits : font.width.toNat ≤ 127 - x := by omega
  rw [YosSsd1306Font.visible, YosSsd1306Font.visible, if_pos pages, if_pos pages,
    Nat.div_eq_sub_div (toNat_pos wide) fits, Nat.sub_sub, Nat.add_min_add_right]

/-- **The loop draws what is visible.** -/
theorem putsLoop_draws (wide : font.width ≠ 0) (clean : 0 ∉ s) (rest : List UInt8) (x y : UInt8) :
    putsLoop signed font get y (s ++ 0 :: rest) x =
      some (drawing signed font get x.toNat y (s.take (font.visible x.toNat y.toNat s.length))) := by
  induction s generalizing x with
  | nil =>
      rw [List.take_nil]
      rfl
  | cons c s ih =>
      obtain ⟨nonzero, clean⟩ := avoids_cons clean
      rw [List.cons_append, putsLoop, if_pos nonzero]
      split
      · rename_i out
        have none : ¬ 0 < font.visible x.toNat y.toNat (c :: s).length := fun some => by
          obtain ⟨_, pages, columns⟩ := (YosSsd1306Font.lt_visible wide).mp some
          rw [Nat.zero_add, Nat.one_mul] at columns
          exact outOfRange_iff.mp out ⟨pages, columns⟩
        rw [Nat.eq_zero_of_not_pos none]
        rfl
      · rename_i inRange
        obtain ⟨pages, columns⟩ := not_not.mp fun out => inRange (outOfRange_iff.mpr out)
        -- The column does not wrap around.
        have next : (x + font.width).toNat = x.toNat + font.width.toNat := by
          rw [UInt8.toNat_add]
          exact Nat.mod_eq_of_lt (Nat.lt_trans columns (by decide))
        rw [ih clean, next, List.length_cons, font.visible_succ wide pages columns, List.take_succ_cons,
          drawing_cons, UInt8.ofNat_toNat, Option.map_some]

/-- **What is drawn of a string**: its visible characters. -/
theorem yosSsd1306Puts_draws (reads : font.getFontByte = some get) (wide : font.width ≠ 0)
    (high : font.height ≠ 0) (clean : 0 ∉ s) (rest : List UInt8) (x y : UInt8) :
    yosSsd1306Puts signed (some font) x y (some (s ++ 0 :: rest)) =
      some (drawing signed font get x.toNat y (s.take (font.visible x.toNat y.toNat s.length))) := by
  rw [← putsLoop_draws wide clean rest x y, yosSsd1306Puts]
  simp only [reads]
  rw [if_neg (not_or_intro wide high)]

/-- A font without a function draws nothing. -/
theorem yosSsd1306Puts_none (absent : font.getFontByte = none) (x y : UInt8) (str : List UInt8) :
    yosSsd1306Puts signed (some font) x y (some str) = some [] := by
  rw [yosSsd1306Puts]
  simp only [absent]

end Drawing

/-! ### What fits on the screen -/

/-- The cell of the `k`-th character lies within the screen. -/
def YosSsd1306Font.CellFits (font : YosSsd1306Font) (x y k : Nat) : Prop :=
  x + (k + 1) * font.width.toNat ≤ yosSsd1306ScreenWidth ∧
    y + font.rowTake.toNat ≤ yosSsd1306ScreenHeight / yosSsd1306ScreenMemUnitHeight

instance (font : YosSsd1306Font) (x y k : Nat) : Decidable (font.CellFits x y k) :=
  inferInstanceAs (Decidable (_ ∧ _))

/-- The longest prefix whose cells all lie within the screen. -/
structure LongestFitting (font : YosSsd1306Font) (x y : Nat) (s shown : List UInt8) : Prop where
  isPrefix : shown <+: s
  fits : ∀ k < shown.length, font.CellFits x y k
  longest : ∀ more, more <+: s → (∀ k < more.length, font.CellFits x y k) →
    more.length ≤ shown.length

/-- These characters are drawn, and nothing else. -/
def DrawsExactly (signed : Bool) (font : YosSsd1306Font) (x y : UInt8) (str shown : List UInt8) : Prop :=
  match font.getFontByte with
  | some get =>
      yosSsd1306Puts signed (some font) x y (some str) =
        some (drawing signed font get x.toNat y shown)
  | none => yosSsd1306Puts signed (some font) x y (some str) = some [] ∧ shown = []

section Fitting

variable {signed : Bool} {font : YosSsd1306Font} {s : List UInt8}

theorem rows_length (font : YosSsd1306Font) (get : UInt16 → UInt8) (x y : UInt8) (left : Nat)
    (j index : UInt16) : (rows font get x y left j index).length = left * 2 := by
  induction left generalizing j index with
  | zero => rw [rows, List.length_nil, Nat.zero_mul]
  | succ left ih => rw [rows, List.length_append, List.length_cons, ih, Nat.succ_mul, Nat.add_comm]; rfl

theorem drawing_length (get : UInt16 → UInt8) (x : Nat) (y : UInt8) (s : List UInt8) :
    (drawing signed font get x y s).length = s.length * (font.rowTake.toNat * 2) := by
  induction s generalizing x with
  | nil => rw [List.length_nil, Nat.zero_mul]; rfl
  | cons c s ih =>
      rw [drawing_cons, List.length_append, drawChar, rows_length, ih, List.length_cons, Nat.succ_mul,
        Nat.add_comm]

/-- A cell further left fits as well. -/
theorem YosSsd1306Font.CellFits.before {x y k k' : Nat} (fits : font.CellFits x y k) (before : k' ≤ k) :
    font.CellFits x y k' :=
  ⟨Nat.le_trans (Nat.add_le_add_left (Nat.mul_le_mul_right _ (Nat.succ_le_succ before)) x) fits.1, fits.2⟩

/-- The prefixes that fit, up to a character whose cell fits. -/
theorem LongestFitting.reaches {x y k : Nat} {shown : List UInt8} (most : LongestFitting font x y s shown)
    (inside : k < s.length) (fits : font.CellFits x y k) : k < shown.length := by
  have length : (s.take (k + 1)).length = k + 1 := List.length_take_of_le inside
  have all : ∀ k' < (s.take (k + 1)).length, font.CellFits x y k' := fun k' before => by
    rw [length] at before
    exact fits.before (Nat.le_of_lt_succ before)
  have longer := most.longest (s.take (k + 1)) (List.take_prefix _ _) all
  rw [length] at longer
  exact longer

/-- The visible characters fit. -/
theorem YosSsd1306Font.cellFits_of_visible (wide : font.width ≠ 0) {x y length k : Nat}
    (visible : k < font.visible x y length) : font.CellFits x y k := by
  obtain ⟨_, pages, columns⟩ := (YosSsd1306Font.lt_visible wide).mp visible
  exact ⟨Nat.le_of_lt columns, pages⟩

/-- No cell that fits ends at the edge: then all of them are visible. -/
theorem longestFitting_visible (wide : font.width ≠ 0) {x y : Nat}
    (inner : ∀ k < s.length, font.CellFits x y k → x + (k + 1) * font.width.toNat ≠ 128) :
    LongestFitting font x y s (s.take (font.visible x y s.length)) where
  isPrefix := List.take_prefix _ _
  fits := fun k before => by
    rw [List.length_take_of_le (font.visible_le ..)] at before
    exact font.cellFits_of_visible wide before
  longest := fun more isPrefix fits => by
    rw [List.length_take_of_le (font.visible_le ..)]
    cases count : more.length with
    | zero => exact Nat.zero_le _
    | succ k =>
        rw [count] at fits
        have inside := isPrefix.length_le
        rw [count] at inside
        have cell := fits k (Nat.lt_succ_self k)
        refine (YosSsd1306Font.lt_visible wide).mpr ⟨inside, cell.2, ?_⟩
        exact Nat.lt_of_le_of_ne cell.1 (inner k inside cell)

/-- As many characters as drawn. -/
theorem length_of_drawing (paged : font.rowTake ≠ 0) {get : UInt16 → UInt8} {x : Nat} {y : UInt8}
    {one two : List UInt8}
    (same : drawing signed font get x y one = drawing signed font get x y two) :
    one.length = two.length := by
  have positive : 0 < font.rowTake.toNat * 2 := Nat.mul_pos (toNat_pos paged) (by decide)
  have lengths := congrArg List.length same
  rw [drawing_length, drawing_length] at lengths
  exact Nat.eq_of_mul_eq_mul_right positive lengths

/-- **What is drawn is the longest prefix that fits**, unless the cell of some character ends right at
the edge of the screen; a font without a function only does so where nothing fits. -/
theorem yosSsd1306Puts_longest (wide : font.width ≠ 0) (high : font.height ≠ 0)
    (paged : font.rowTake ≠ 0) (clean : 0 ∉ s) (rest : List UInt8) (x y : UInt8) :
    (∃ shown, LongestFitting font x.toNat y.toNat s shown ∧
        DrawsExactly signed font x y (s ++ 0 :: rest) shown) ↔
      ∀ k < s.length, font.CellFits x.toNat y.toNat k →
        font.getFontByte.isSome ∧ x.toNat + (k + 1) * font.width.toNat ≠ yosSsd1306ScreenWidth := by
  cases reads : font.getFontByte with
  | none =>
      simp only [DrawsExactly, reads]
      constructor
      · rintro ⟨shown, most, -, rfl⟩ k inside fits
        exact absurd (most.reaches inside fits) (Nat.not_lt_zero k)
      · intro nothing
        refine ⟨[], ⟨List.nil_prefix, fun k before => absurd before (Nat.not_lt_zero k), ?_⟩,
          yosSsd1306Puts_none reads x y _, rfl⟩
        intro more isPrefix fits
        refine Nat.le_of_not_lt fun some => ?_
        have inside : 0 < s.length := Nat.lt_of_lt_of_le some isPrefix.length_le
        exact absurd (nothing 0 inside (fits 0 some)).1 (by decide)
  | some get =>
      have drawn : yosSsd1306Puts signed (some font) x y (some (s ++ 0 :: rest)) = _ :=
        yosSsd1306Puts_draws reads wide high clean rest x y
      simp only [DrawsExactly, reads, drawn, Option.some.injEq]
      constructor
      · rintro ⟨shown, most, same⟩ k inside fits
        have count := length_of_drawing paged same
        rw [List.length_take_of_le (font.visible_le ..)] at count
        have visible := most.reaches inside fits
        rw [← count] at visible
        exact ⟨rfl, Nat.ne_of_lt ((YosSsd1306Font.lt_visible wide).mp visible).2.2⟩
      · intro inner
        exact ⟨_, longestFitting_visible wide fun k inside fits => (inner k inside fits).2, rfl⟩

/-- Of two characters near the right edge the second one does not fit. -/
theorem yosSsd1306Puts_longest_cut :
    LongestFitting yosSsd1306Font8X16 116 0 [65, 66] [65] ∧
      DrawsExactly false yosSsd1306Font8X16 116 0 [65, 66, 0] [65] := by
  have drawn : ∃ shown, LongestFitting yosSsd1306Font8X16 116 0 [65, 66] shown ∧
      DrawsExactly false yosSsd1306Font8X16 116 0 [65, 66, 0] shown :=
    (yosSsd1306Puts_longest (by decide) (by decide) (by decide) (by decide : (0 : UInt8) ∉ [65, 66]) [] 116
      0).mpr (by decide)
  obtain ⟨shown, most, drawn⟩ := drawn
  have first : 0 < shown.length := most.reaches (by decide) (by decide)
  have second : shown.length ≤ 1 := by
    by_contra longer
    exact absurd (most.fits 1 (Nat.lt_of_not_le longer)) (by decide)
  obtain rfl : shown = [65] := by
    rw [List.prefix_iff_eq_take.mp most.isPrefix, Nat.le_antisymm second first]
    rfl
  exact ⟨most, drawn⟩

/-- The last character of a line of sixteen would fit, and is not drawn. -/
theorem yosSsd1306Puts_edge :
    yosSsd1306Font8X16.CellFits 120 0 0 ∧
      ¬ ∃ shown, LongestFitting yosSsd1306Font8X16 120 0 [65] shown ∧
        DrawsExactly false yosSsd1306Font8X16 120 0 [65, 0] shown := by
  have fits : yosSsd1306Font8X16.CellFits 120 0 0 := by decide
  refine ⟨fits, ?_⟩
  rintro ⟨shown, most, drawn⟩
  have nothing : yosSsd1306Puts false (some yosSsd1306Font8X16) 120 0 (some [65, 0]) = some [] := rfl
  have same : drawing false yosSsd1306Font8X16 (fontGetByte ssd1306xledFont8x16data) 120 0 [] =
      drawing false yosSsd1306Font8X16 (fontGetByte ssd1306xledFont8x16data) 120 0 shown :=
    Option.some.inj (nothing.symm.trans drawn)
  have count := length_of_drawing (by decide) same
  have reached := most.reaches (Nat.succ_pos 0) fits
  rw [← count] at reached
  exact absurd reached (Nat.not_lt_zero 0)

end Fitting

end YosStm32.Oled

/-
**The screen of the uptime task.**

Every round draws its texts where the round before has drawn its own, and each text covers the one before
but for one case: a temperature below -99 has a fourth character, which a shorter one does not cover.
So the screen shows the texts of the last round, under them what the last such temperature has left, then the
title, and is blank elsewhere (`oledTask_screen`).
-/

import YosStm32.Oled.Frame
import YosStm32.Oled.Uptime

namespace YosStm32.Oled

open Cmdline Lib

/-! ### Texts on the screen -/

/-- The byte of a text of the task at a column of a page. -/
def textAt (signed : Bool) (entry : UInt8 × UInt8 × List UInt8) (page column : Nat) : Option UInt8 :=
  BuiltInFont.font6X8.glyphs.textByte signed (pixel entry.1).toNat entry.2.1.toNat entry.2.2 page column

/-- Texts that are drawn one after the other. -/
def textsAt (signed : Bool) (texts : List (UInt8 × UInt8 × List UInt8)) (page column : Nat) : Option UInt8 :=
  texts.foldl (fun below entry => (textAt signed entry page column).or below) none

/-- Every character has a glyph in the font. -/
def Visible (text : List UInt8) : Prop := ∀ c ∈ text, 32 ≤ c.toNat ∧ c.toNat < 124

instance (text : List UInt8) : Decidable (Visible text) :=
  List.decidableBAll (fun c : UInt8 => 32 ≤ c.toNat ∧ c.toNat < 124) text

section Texts

variable {signed : Bool} {page column : Nat} {text : List UInt8}

theorem font6X8_sizes : BuiltInFont.font6X8.glyphs.font.rowTake.toNat = 1 ∧
    BuiltInFont.font6X8.glyphs.font.width.toNat = 6 := ⟨rfl, rfl⟩

theorem hasGlyph_of_visible {c : UInt8} (low : 32 ≤ c.toNat) (high : c.toNat < 124) :
    BuiltInFont.font6X8.glyphs.HasGlyph signed c := by
  have value : charValue signed c = c.toNat := by
    rw [charValue, if_neg (by omega)]
  have first : charValue signed BuiltInFont.font6X8.glyphs.font.startChar = 32 := by
    cases signed <;> rfl
  have count : BuiltInFont.font6X8.glyphs.count = 92 := rfl
  rw [GlyphTable.HasGlyph, GlyphTable.number, value, first, count]
  omega

/-- **Where a text is seen**: in its page, six columns for each character. -/
theorem textByte_eq_none {x y : Nat} (visible : Visible text) :
    BuiltInFont.font6X8.glyphs.textByte signed x y text page column = none ↔
      ¬ (page = y ∧ x ≤ column ∧ column < x + text.length * 6) := by
  rw [GlyphTable.textByte, font6X8_sizes.1, font6X8_sizes.2]
  by_cases there : y ≤ page ∧ page < y + 1 ∧ x ≤ column
  · rw [if_pos there]
    by_cases inside : (column - x) / 6 < text.length
    · have row : page - y < BuiltInFont.font6X8.glyphs.font.rowTake.toNat := by
        rw [font6X8_sizes.1]
        omega
      obtain ⟨low, high⟩ := visible _ (List.getElem_mem inside)
      have length := BuiltInFont.font6X8.glyphs.row_length signed text[(column - x) / 6] row
      rw [if_pos (hasGlyph_of_visible low high), font6X8_sizes.2] at length
      rw [List.getElem?_eq_getElem inside, Option.bind_some, List.getElem?_eq_getElem (by omega)]
      simp only [reduceCtorEq, false_iff, not_not]
      omega
    · rw [List.getElem?_eq_none (Nat.le_of_not_lt inside)]
      simp only [Option.bind_none, true_iff]
      omega
  · rw [if_neg there]
    simp only [true_iff]
    omega

/-- A text under others. -/
theorem textsAt_cons (entry : UInt8 × UInt8 × List UInt8) (texts : List (UInt8 × UInt8 × List UInt8)) :
    textsAt signed (entry :: texts) page column =
      (textsAt signed texts page column).or (textAt signed entry page column) := by
  have general : ∀ (texts : List (UInt8 × UInt8 × List UInt8)) (below : Option UInt8),
      texts.foldl (fun below entry => (textAt signed entry page column).or below) below =
        (textsAt signed texts page column).or below := by
    intro texts
    induction texts with
    | nil => exact fun below => rfl
    | cons entry texts ih =>
        intro below
        rw [textsAt, List.foldl_cons, List.foldl_cons, ih, ih, Option.or_assoc, Option.or_assoc,
          Option.none_or]
  rw [textsAt, List.foldl_cons, general, Option.or_none]

/-- **What calls that draw leave on the screen.** -/
theorem shows_screen {texts : List (UInt8 × UInt8 × List UInt8)} {calls : List OledCall}
    (shown : List.Forall₂ (OledCall.Shows signed) texts calls) (display : Display) (inside : column < 128) :
    (display.receiveAll (calls.flatMap OledCall.messages)).screen page column =
      (textsAt signed texts page column).or (display.screen page column) := by
  induction shown generalizing display with
  | nil => rfl
  | cons one _ ih =>
      obtain ⟨messages, rfl, drawn⟩ := one
      rw [List.flatMap_cons, Display.receiveAll_append, ih, textsAt_cons, Option.or_assoc]
      exact congrArg _ (drawn.screen _ display page inside)

/-- Calls that draw no text leave the screen alone. -/
theorem silent_screen {calls : List OledCall} (silent : calls.filterMap OledCall.text = [])
    (display : Display) :
    (display.receiveAll (calls.flatMap OledCall.messages)).screen page column =
      display.screen page column := by
  induction calls generalizing display with
  | nil => rfl
  | cons call calls ih =>
      rw [List.flatMap_cons, Display.receiveAll_append]
      cases call with
      | draw text messages => cases silent
      | displayInvert invert =>
          refine (ih silent _).trans ?_
          rw [OledCall.messages, Display.receiveAll_displayInvert]
          rfl
      | msleep ms => exact ih silent display

end Texts

/-! ### The texts of a round -/

/-- The temperature has a fourth character. -/
def Readings.Wide (readings : Readings) : Prop := readings.temperature.toInt ≤ -100

instance (readings : Readings) : Decidable readings.Wide := inferInstanceAs (Decidable (_ ≤ _))

/-- The text of the temperature, with its place. -/
def temperatureText (readings : Readings) : UInt8 × UInt8 × List UInt8 :=
  (0, 4, [84, 58, 32] ++ padded 32 3 readings.temperature.toInt)

/-- The columns and the page of the texts of a round, `wide` with a fourth character for the temperature. -/
def InTexts (wide : Prop) (page column : Nat) : Prop :=
  (page = 2 ∧ (column < 30 ∨ (36 ≤ column ∧ column < 60) ∨ (66 ≤ column ∧ column < 90) ∨
    (96 ≤ column ∧ column < 120))) ∨
  (page = 4 ∧ (column < 36 ∨ (wide ∧ column < 42) ∨ (48 ≤ column ∧ column < 90)))

section Round

variable {signed : Bool} {page column : Nat}

theorem mem_decimal {n : Int} {c : UInt8} (member : c ∈ decimal n) : 45 ≤ c.toNat ∧ c.toNat ≤ 57 := by
  rcases List.mem_append.mp member with sign | digits
  · split at sign
    · rw [List.mem_singleton.mp sign]
      decide
    · cases sign
  · obtain ⟨digit, isDigit, rfl⟩ := List.mem_map.mp digits
    have range := Char.isDigit_iff_toNat.mp (Nat.isDigit_of_mem_toDigits (by decide) (by decide) isDigit)
    have low : 48 ≤ digit.toNat := range.1
    have high : digit.toNat ≤ 57 := range.2
    rw [UInt8.toNat_ofNat']
    omega

/-- A number between two labels. -/
theorem visible_labelled {first last : List UInt8} {pad : UInt8} {width : Nat} {n : Int}
    (firstVisible : Visible first) (lastVisible : Visible last) (low : 32 ≤ pad.toNat)
    (high : pad.toNat < 124) : Visible (first ++ padded pad width n ++ last) := by
  intro c member
  rcases List.mem_append.mp member with member | inLast
  · rcases List.mem_append.mp member with inFirst | member
    · exact firstVisible c inFirst
    · rcases List.mem_append.mp member with inPad | inNumber
      · rw [List.eq_of_mem_replicate inPad]
        exact ⟨low, high⟩
      · obtain ⟨low, high⟩ := mem_decimal inNumber
        exact ⟨by omega, by omega⟩
  · exact lastVisible c inLast

theorem padded_length {pad : UInt8} {width : Nat} {n : Int} (fits : (decimal n).length ≤ width) :
    (padded pad width n).length = width := by
  rw [padded, List.length_leftpad, Nat.max_eq_left fits]

theorem decimal_length (n : Int) :
    (decimal n).length = (if n < 0 then 1 else 0) + (Nat.toDigits 10 n.natAbs).length := by
  rw [decimal, List.length_append, List.length_map]
  split <;> rfl

/-- As many digits as the width. -/
theorem counter_length {pad : UInt8} {width n : Nat} (positive : 0 < width) (small : n < 10 ^ width) :
    (padded pad width n).length = width := by
  have digits := (Nat.length_toDigits_le_iff (by decide : 1 < 10) positive).mpr small
  refine padded_length ?_
  rw [decimal_length, if_neg (Int.not_lt.mpr (Int.natCast_nonneg n)), Int.natAbs_natCast, Nat.zero_add]
  exact digits

/-- The temperature takes three characters, or four. -/
theorem temperature_length (readings : Readings) :
    (padded 32 3 readings.temperature.toInt).length = if readings.Wide then 4 else 3 := by
  have low := readings.temperature.le_toInt
  have high := readings.temperature.toInt_lt
  have same : readings.Wide ↔ readings.temperature.toInt ≤ -100 := Iff.rfl
  rw [padded, List.length_leftpad, decimal_length]
  simp only [same]
  generalize readings.temperature.toInt = t at low high
  have two : (Nat.toDigits 10 t.natAbs).length ≤ 2 ↔ t.natAbs < 100 :=
    Nat.length_toDigits_le_iff (by decide) (by decide)
  have three : (Nat.toDigits 10 t.natAbs).length ≤ 3 ↔ t.natAbs < 1000 :=
    Nat.length_toDigits_le_iff (by decide) (by decide)
  split_ifs <;> omega

/-- A counter with its unit is seen where it is drawn. -/
theorem counter_eq_none {col : UInt8} {x width n : Nat} {unit : List UInt8} (place : (pixel col).toNat = x)
    (positive : 0 < width) (small : n < 10 ^ width) (visible : Visible unit) :
    textAt signed (col, 2, padded 48 width n ++ unit) page column = none ↔
      ¬ (page = 2 ∧ x ≤ column ∧ column < x + (width + unit.length) * 6) := by
  have text : Visible ([] ++ padded 48 width n ++ unit) :=
    visible_labelled (by decide) visible (by decide) (by decide)
  rw [List.nil_append] at text
  rw [textAt, textByte_eq_none text, List.length_append, counter_length positive small, place]
  rfl

/-- So is the temperature. -/
theorem temperature_eq_none (readings : Readings) :
    textAt signed (temperatureText readings) page column = none ↔
      ¬ (page = 4 ∧ column < 36 + if readings.Wide then 6 else 0) := by
  have text : Visible ([84, 58, 32] ++ padded 32 3 readings.temperature.toInt ++ []) :=
    visible_labelled (by decide) (by decide) (by decide) (by decide)
  rw [List.append_nil] at text
  have place : (pixel 0).toNat = 0 := by decide
  have row : (4 : UInt8).toNat = 4 := rfl
  rw [temperatureText, textAt, textByte_eq_none text, List.length_append, temperature_length, place, row]
  simp only [List.length_cons, List.length_nil, Nat.zero_le, true_and]
  split <;> omega

/-- And the humidity. -/
theorem humidity_eq_none (readings : Readings) :
    textAt signed (8, 4, [72, 58, 32] ++ padded 32 3 readings.humidity.toNat ++ [37]) page column = none ↔
      ¬ (page = 4 ∧ 48 ≤ column ∧ column < 90) := by
  have text : Visible ([72, 58, 32] ++ padded 32 3 readings.humidity.toNat ++ [37]) :=
    visible_labelled (by decide) (by decide) (by decide) (by decide)
  have length : (padded 32 3 readings.humidity.toNat).length = 3 :=
    counter_length (by decide) (Nat.lt_trans readings.humidity.toNat_lt (by decide))
  have place : (pixel 8).toNat = 48 := by decide
  have row : (4 : UInt8).toNat = 4 := rfl
  rw [textAt, textByte_eq_none text, List.length_append, List.length_append, length, place, row]
  rfl

/-- **Where the texts of a round are seen.** -/
theorem textsAt_eq_none {dd hh mm ss : Nat} (days : dd < 256) (hours : hh < 24) (minutes : mm < 60)
    (seconds : ss < 60) (readings : Readings) :
    textsAt signed (uptimeTexts dd hh mm ss readings) page column = none ↔
      ¬ InTexts readings.Wide page column := by
  have dayPlace : textAt signed (0, 2, padded 48 3 dd ++ [32, 68]) page column = none ↔ _ :=
    counter_eq_none (by decide : _ = 0) (by decide) (by show dd < 1000; omega) (by decide)
  have hourPlace : textAt signed (6, 2, padded 48 2 hh ++ [32, 72]) page column = none ↔ _ :=
    counter_eq_none (by decide : _ = 36) (by decide) (by show hh < 100; omega) (by decide)
  have minutePlace : textAt signed (11, 2, padded 48 2 mm ++ [32, 77]) page column = none ↔ _ :=
    counter_eq_none (by decide : _ = 66) (by decide) (by show mm < 100; omega) (by decide)
  have secondPlace : textAt signed (16, 2, padded 48 2 ss ++ [32, 83]) page column = none ↔ _ :=
    counter_eq_none (by decide : _ = 96) (by decide) (by show ss < 100; omega) (by decide)
  have temperaturePlace : textAt signed (0, 4, [84, 58, 32] ++ padded 32 3 readings.temperature.toInt) page
      column = none ↔ _ := temperature_eq_none readings
  have humidityPlace : textAt signed (8, 4, [72, 58, 32] ++ padded 32 3 readings.humidity.toNat ++ [37]) page
      column = none ↔ _ := humidity_eq_none readings
  have empty : textsAt signed [] page column = none := rfl
  unfold InTexts uptimeTexts
  by_cases wide : readings.Wide
  · rw [if_pos wide] at temperaturePlace
    simp only [textsAt_cons, Option.or_eq_none_iff, dayPlace, hourPlace, minutePlace, secondPlace,
      temperaturePlace, humidityPlace, empty, List.length_cons, List.length_nil, wide,
      true_and]
    omega
  · rw [if_neg wide] at temperaturePlace
    simp only [textsAt_cons, Option.or_eq_none_iff, dayPlace, hourPlace, minutePlace, secondPlace,
      temperaturePlace, humidityPlace, empty, List.length_cons, List.length_nil, wide,
      true_and, false_and, false_or]
    omega

end Round

/-! ### The loop -/

/-- The texts of the last round, after some. -/
def latest (signed : Bool) (past : List Readings) (page column : Nat) : Option UInt8 :=
  past.getLast?.bind fun now =>
    textsAt signed (uptimeTexts ((past.length - 1) / 86400 % 256) ((past.length - 1) / 3600 % 24)
      ((past.length - 1) / 60 % 60) ((past.length - 1) % 60) now) page column

/-- The last temperature with a fourth character. -/
def lastWide (signed : Bool) (past : List Readings) (page column : Nat) : Option UInt8 :=
  (past.filter fun readings => decide readings.Wide).getLast?.bind fun readings =>
    textAt signed (temperatureText readings) page column

/-- `"YOS OLED"`, on a blank screen. -/
def titleAt (signed : Bool) (page column : Nat) : Option UInt8 :=
  (textAt signed (0, 0, [89, 79, 83, 32, 79, 76, 69, 68]) page column).or (some 0)

section Loop

variable {signed : Bool} {page column : Nat}

theorem latest_concat (past : List Readings) (now : Readings) :
    latest signed (past ++ [now]) page column =
      textsAt signed (uptimeTexts (past.length / 86400 % 256) (past.length / 3600 % 24)
        (past.length / 60 % 60) (past.length % 60) now) page column := by
  rw [latest, List.getLast?_concat, List.length_append, List.length_singleton, Nat.add_sub_cancel]
  rfl

theorem lastWide_concat (past : List Readings) (now : Readings) :
    lastWide signed (past ++ [now]) page column =
      if now.Wide then textAt signed (temperatureText now) page column
      else lastWide signed past page column := by
  rw [lastWide, List.filter_append, List.filter_singleton]
  by_cases wide : now.Wide
  · rw [if_pos wide, decide_eq_true wide, cond_true, List.getLast?_concat]
    rfl
  · rw [if_neg wide, decide_eq_false wide, cond_false, List.append_nil]
    rfl

/-- The last round is seen in the places of its texts. -/
theorem latest_eq_none (past : List Readings) (now : Readings) :
    latest signed (past ++ [now]) page column = none ↔ ¬ InTexts now.Wide page column := by
  rw [latest_concat]
  exact textsAt_eq_none (Nat.mod_lt _ (by decide)) (Nat.mod_lt _ (by decide)) (Nat.mod_lt _ (by decide))
    (Nat.mod_lt _ (by decide)) now

/-- What a wide temperature leaves is in its place. -/
theorem lastWide_place {past : List Readings} (seen : lastWide signed past page column ≠ none) :
    page = 4 ∧ column < 42 := by
  rw [lastWide] at seen
  cases last : (past.filter fun readings => decide readings.Wide).getLast? with
  | none =>
      rw [last] at seen
      exact absurd rfl seen
  | some readings =>
      have member := List.mem_filter.mp (List.mem_of_getLast? last)
      have wide : readings.Wide := of_decide_eq_true member.2
      rw [last, Option.bind_some, ne_eq, temperature_eq_none, if_pos wide, not_not] at seen
      exact seen

/-- A text is not seen in another page. -/
theorem textAt_page {entry : UInt8 × UInt8 × List UInt8} (other : page ≠ entry.2.1.toNat) :
    textAt signed entry page column = none := by
  rw [textAt, GlyphTable.textByte, font6X8_sizes.1]
  exact if_neg (by omega)

/-- In the place of the fourth character, the last round shows nothing but the temperature. -/
theorem latest_fourth {past : List Readings} {now : Readings} (wide : now.Wide) (right : column < 42) :
    latest signed (past ++ [now]) 4 column = lastWide signed (past ++ [now]) 4 column := by
  have humidity : textAt signed (8, 4, [72, 58, 32] ++ padded 32 3 now.humidity.toNat ++ [37]) 4 column =
      none := (humidity_eq_none now).mpr (by omega)
  have counter : ∀ col text, textAt signed (col, 2, text) 4 column = none := fun col text =>
    textAt_page (by decide : (4 : Nat) ≠ (2 : UInt8).toNat)
  have empty : textsAt signed [] 4 column = none := rfl
  rw [latest_concat, lastWide_concat, if_pos wide, temperatureText]
  unfold uptimeTexts
  simp only [textsAt_cons, humidity, counter, empty, Option.none_or, Option.or_none]

theorem InTexts.imp {wide wide' : Prop} (weaker : wide → wide') (there : InTexts wide page column) :
    InTexts wide' page column :=
  there.imp_right fun ⟨row, place⟩ =>
    ⟨row, place.imp_right (Or.imp_left fun ⟨wide, left⟩ => ⟨weaker wide, left⟩)⟩

/-- Only the place of the fourth character makes a difference. -/
theorem InTexts.fourth {wide wide' : Prop} (there : InTexts wide page column)
    (outside : ¬ InTexts wide' page column) : wide ∧ page = 4 ∧ column < 42 := by
  rcases there with counters | ⟨row, left | ⟨wide, fourth⟩ | right⟩
  · exact absurd (Or.inl counters) outside
  · exact absurd (Or.inr ⟨row, Or.inl left⟩) outside
  · exact ⟨wide, row, fourth⟩
  · exact absurd (Or.inr ⟨row, Or.inr (Or.inr right)⟩) outside

/-- **A round covers the one before**, but for the fourth character of a temperature. -/
theorem covers (past : List Readings) (now : Readings) (below : Option UInt8) :
    (latest signed (past ++ [now]) page column).or
        ((latest signed past page column).or ((lastWide signed past page column).or below)) =
      (latest signed (past ++ [now]) page column).or
        ((lastWide signed (past ++ [now]) page column).or below) := by
  by_cases hidden : latest signed (past ++ [now]) page column = none
  swap
  · obtain ⟨byte, seen⟩ := Option.ne_none_iff_exists'.mp hidden
    rw [seen]
    rfl
  rw [hidden, Option.none_or, Option.none_or]
  have outside := (latest_eq_none past now).mp hidden
  by_cases wide : now.Wide
  · -- nothing of the temperatures or of the round before is seen outside the new texts
    have temperature : ∀ readings : List Readings, lastWide signed readings page column = none := by
      intro readings
      by_contra seen
      obtain ⟨row, left⟩ := lastWide_place seen
      exact outside (Or.inr ⟨row, Or.inr (Or.inl ⟨wide, left⟩)⟩)
    have before : latest signed past page column = none := by
      rcases List.eq_nil_or_concat past with rfl | ⟨older, last, rfl⟩
      · rfl
      · rw [List.concat_eq_append, latest_eq_none]
        exact fun there => outside (there.imp fun _ => wide)
    rw [temperature, temperature, before, Option.none_or]
  · rw [lastWide_concat, if_neg wide]
    by_cases before : latest signed past page column = none
    · rw [before, Option.none_or]
    · rcases List.eq_nil_or_concat past with rfl | ⟨older, last, rfl⟩
      · exact absurd rfl before
      · rw [List.concat_eq_append] at before ⊢
        rw [latest_eq_none, not_not] at before
        -- the new texts leave only the fourth character of the temperature before
        obtain ⟨fourth, rfl, right⟩ := before.fourth outside
        rw [latest_fourth fourth right, ← Option.or_assoc, Option.or_self]

/-- **What a round leaves on the screen.** -/
theorem Running.round_screen {k : Nat} {task : OledTask} {past : List OledCall}
    (running : Running k task past) (signed : Bool) (readings : Readings) :
    ∃ next calls, oledRound signed task readings = some (next, calls) ∧
      Running (k + 1) next (past ++ calls) ∧
      ∀ display : Display, ∀ page column, column < 128 →
        (display.receiveAll (calls.flatMap OledCall.messages)).screen page column =
          (textsAt signed (uptimeTexts (k / 86400 % 256) (k / 3600 % 24) (k / 60 % 60) (k % 60) readings)
            page column).or (display.screen page column) := by
  obtain ⟨next, draws, more, round, shown, silent, -, running⟩ := running.round signed readings
  refine ⟨next, draws ++ more, round, running, fun display page column inside => ?_⟩
  rw [List.flatMap_append, Display.receiveAll_append, silent_screen silent, shows_screen shown _ inside]

/-- The screen before the loop: the title. -/
theorem oledStart_screen (signed : Bool) :
    ∃ start, oledStart signed = some start ∧ ∀ display : Display, ∀ page column, page < 8 → column < 128 →
      (display.receiveAll start).screen page column = titleAt signed page column := by
  obtain ⟨title, started, drawn, -⟩ := oledStart_shows signed
  refine ⟨_, started, fun display page column inside right => ?_⟩
  rw [Display.receiveAll_append, drawn.screen _ _ page right, Display.receiveAll_append,
    Display.screen_fill _ 0 inside right]
  rfl

/-- **The whole screen**, after any number of rounds and whatever the readings were: the texts of the last
round, under them what the last temperature with four characters has left, under that the title, and blank
elsewhere. Nothing of an older round is left. -/
theorem oledTask_screen (signed : Bool) {buf : List UInt8} (room : buf.length = 16)
    (past : List Readings) :
    ∃ start task, oledStart signed = some start ∧
      runEvents (oledStep signed) (OledTask.start buf) past = some task ∧
      ∀ display : Display, ∀ page column, page < 8 → column < 128 →
        (display.receiveAll (start ++ (oledHistory signed buf past).flatMap OledCall.messages)).screen
            page column =
          (latest signed past page column).or
            ((lastWide signed past page column).or (titleAt signed page column)) := by
  obtain ⟨start, started, before⟩ := oledStart_screen signed
  suffices rounds : ∃ task, runEvents (oledStep signed) (OledTask.start buf) past = some task ∧
      Running past.length task (oledHistory signed buf past) ∧
      ∀ display : Display, ∀ page column, page < 8 → column < 128 →
        (display.receiveAll (start ++ (oledHistory signed buf past).flatMap OledCall.messages)).screen
            page column =
          (latest signed past page column).or
            ((lastWide signed past page column).or (titleAt signed page column)) by
    obtain ⟨task, run, -, screen⟩ := rounds
    exact ⟨start, task, started, run, screen⟩
  induction past using List.reverseRecOn with
  | nil =>
      refine ⟨_, rfl, Running.start room, fun display page column inside right => ?_⟩
      rw [oledHistory, emitted_nil, List.flatMap_nil, List.append_nil, before display page column inside right]
      rfl
  | append_singleton past readings ih =>
      obtain ⟨task, run, running, screen⟩ := ih
      obtain ⟨next, calls, round, running, covered⟩ := running.round_screen signed readings
      have step : oledStep signed task readings = some next := by
        rw [oledStep, round]
        rfl
      have out : oledCalls signed task readings = calls := by
        rw [oledCalls, round]
        rfl
      have history : oledHistory signed buf (past ++ [readings]) = oledHistory signed buf past ++ calls := by
        rw [oledHistory, emitted_append run, emitted_cons step, out, emitted_nil, List.append_nil]
        rfl
      refine ⟨next, runEvents_append.mpr ⟨task, run, runEvents_cons.mpr ⟨next, step, rfl⟩⟩, ?_, ?_⟩
      · rw [history, List.length_append]
        exact running
      · intro display page column inside right
        rw [history, List.flatMap_append, ← List.append_assoc, Display.receiveAll_append,
          covered _ page column right, screen display page column inside right, ← latest_concat, covers]

end Loop

end YosStm32.Oled

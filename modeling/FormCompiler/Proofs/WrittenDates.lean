import FormCompiler.FieldBuilder
import FormCompiler.Form.Writer
import FormCompiler.Proofs.CalendarDays
import FormCompiler.Proofs.DateTexts
import Mathlib.Algebra.Group.Nat.Defs

/-!
# FormCompiler.Proofs.WrittenDates

Written dates are read back.  Every part of a timestamp's text is undone by the
reader of that part, whatever follows it: padded numbers
(`Timestamp.readPart_padded`), a fraction without the zeros that end it
(`Timestamp.readFraction_renderFraction`), the offset
(`Timestamp.readOffset_renderOffset`).  So the text of a timestamp is read as
that timestamp (`Timestamp.parse_of_render?`), and as a date expression it means
it at every reference instant (`written_date_reread`).
-/

namespace FormCompiler

namespace Timestamp

/-! ## padded numbers -/

section

variable {width n : Nat}

/-- Digits in front are taken with their value. -/
theorem takeDigits?_append {digits : List Char} (h : ∀ d ∈ digits, d.isDigit) (rest : List Char) :
    takeDigits? digits.length (digits ++ rest) = some (Nat.ofDigitChars 10 digits 0, rest) := by
  have hall : digits.all Char.isDigit := List.all_eq_true.mpr h
  rw [takeDigits?, List.take_left, List.drop_left, if_pos ⟨rfl, hall⟩, digitsValue_eq]

theorem length_padded (hwidth : 0 < width) (h : n < 10 ^ width) :
    (padded width n).length = width := by
  have hlength := (Nat.length_toDigits_le_iff (by decide) hwidth).mpr h
  rw [padded, List.length_append, List.length_replicate]
  omega

theorem isDigit_of_mem_padded {d : Char} (h : d ∈ padded width n) : d.isDigit := by
  rcases List.mem_append.mp h with h | h
  · rw [List.eq_of_mem_replicate h]
    rfl
  · exact Nat.isDigit_of_mem_toDigits (by decide) (by decide) h

/-- Zeros in front do not count. -/
theorem ofDigitChars_padded (width n : Nat) : Nat.ofDigitChars 10 (padded width n) 0 = n := by
  rw [padded, Nat.ofDigitChars_append, Nat.ofDigitChars_replicate_zero, Nat.mul_zero,
    Nat.ofDigitChars_ten_toDigits]

/-- A padded number is read back, whatever follows it. -/
theorem readPart_padded (part : TimestampPart) (hwidth : 0 < width) (h : n < 10 ^ width)
    (rest : List Char) : readPart part width (padded width n ++ rest) = .ok (n, rest) := by
  have hdigits : ∀ d ∈ padded width n, d.isDigit := fun _ => isDigit_of_mem_padded
  have htaken := takeDigits?_append hdigits rest
  rw [length_padded hwidth h, ofDigitChars_padded] at htaken
  rw [readPart, htaken]

theorem Leaves.padded {cs rest : List Char} (h : Leaves rest cs) :
    Leaves rest (padded width n ++ cs) :=
  .trans ⟨Timestamp.padded width n, rfl,
    fun _ hd => (Text.isPlain_of_isDigit (isDigit_of_mem_padded hd)).isBlank⟩ h

end

/-! ## fractions -/

section

variable {n : Nat}

/-- The zeros that end a text are cut off. -/
theorem exists_trailing_zeros (cs : List Char) :
    ∃ count, cs = (cs.reverse.dropWhile (· = '0')).reverse ++ List.replicate count '0' := by
  have hzero : ∀ c ∈ cs.reverse.takeWhile (· = '0'), c = '0' := by
    intro c hc
    simpa using List.mem_takeWhile_imp hc
  have hzeros := List.eq_replicate_of_mem hzero
  refine ⟨(cs.reverse.takeWhile (· = '0')).length, ?_⟩
  calc cs = (cs.reverse.takeWhile (· = '0') ++ cs.reverse.dropWhile (· = '0')).reverse := by
        rw [List.takeWhile_append_dropWhile, List.reverse_reverse]
    _ = _ := by rw [List.reverse_append, ← List.reverse_replicate, ← hzeros]

/-- The digits of a fraction, and the zeros that are left out behind them. -/
theorem exists_renderFraction (hzero : n ≠ 0) (h : n < 10 ^ 9) :
    ∃ digits count, renderFraction n = '.' :: digits ∧
      padded 9 n = digits ++ List.replicate count '0' ∧ digits ≠ [] ∧ count ≤ 9 := by
  obtain ⟨count, hpadded⟩ := exists_trailing_zeros (padded 9 n)
  refine ⟨_, count, if_neg hzero, hpadded, fun hnil => hzero ?_, ?_⟩
  · rw [hnil, List.nil_append] at hpadded
    rw [← ofDigitChars_padded 9 n, hpadded, Nat.ofDigitChars_replicate_zero, Nat.mul_zero]
  · have hlength := congrArg List.length hpadded
    rw [length_padded (by decide) h, List.length_append, List.length_replicate] at hlength
    omega

/-- Digits that are left out count as zeros. -/
theorem fractionValue_eq {digits : List Char} {count : Nat} (h : n < 10 ^ 9)
    (hpadded : padded 9 n = digits ++ List.replicate count '0') (hcount : count ≤ 9) :
    fractionValue digits = n := by
  have hlength := length_padded (by decide) h
  have hzeros : List.replicate 9 '0' =
      List.replicate count '0' ++ List.replicate (9 - count) '0' := by
    rw [List.replicate_append_replicate, Nat.add_sub_cancel' hcount]
  rw [fractionValue, hzeros, ← List.append_assoc, ← hpadded, List.take_left' hlength,
    digitsValue_eq, ofDigitChars_padded]

/-- A fraction is read back up to the character that ends its digits. -/
theorem readFraction_renderFraction (h : n < 10 ^ 9) {c : Char} (hdigit : c.isDigit = false)
    (hdot : c ≠ '.') (cs : List Char) :
    readFraction (renderFraction n ++ c :: cs) = .ok (n, c :: cs) := by
  by_cases hzero : n = 0
  · rw [renderFraction, if_pos hzero, List.nil_append, readFraction, hzero]
    simpa using hdot
  · obtain ⟨digits, count, hfraction, hpadded, hne, hcount⟩ := exists_renderFraction hzero h
    have hdigits : ∀ d ∈ digits, d.isDigit := fun d hd =>
      isDigit_of_mem_padded (hpadded ▸ List.mem_append_left _ hd)
    have htake : (digits ++ c :: cs).takeWhile Char.isDigit = digits := by
      rw [List.takeWhile_append_of_pos hdigits, List.takeWhile_cons_of_neg (by simp [hdigit]),
        List.append_nil]
    have hdrop : (digits ++ c :: cs).dropWhile Char.isDigit = c :: cs := by
      rw [List.dropWhile_append_of_pos hdigits, List.dropWhile_cons_of_neg (by simp [hdigit])]
    rw [hfraction, List.cons_append, readFraction, htake, hdrop, fractionValue_eq h hpadded hcount]
    simp [hne]

theorem leaves_renderFraction (h : n < 10 ^ 9) (rest : List Char) :
    Leaves rest (renderFraction n ++ rest) := by
  by_cases hzero : n = 0
  · rw [renderFraction, if_pos hzero]
    exact Leaves.refl rest
  · obtain ⟨digits, count, hfraction, hpadded, -⟩ := exists_renderFraction hzero h
    rw [hfraction]
    refine Leaves.cons (by decide) ⟨digits, rfl, fun d hd => ?_⟩
    exact (Text.isPlain_of_isDigit
      (isDigit_of_mem_padded (hpadded ▸ List.mem_append_left _ hd))).isBlank

end

/-! ## offsets -/

section

variable {offset : UtcOffset}

/-- The hours and minutes of an offset are read back. -/
theorem readSignedOffset_padded {negative : Bool} {hours minutes : Nat} (hhours : hours < 24)
    (hminutes : minutes < 60) (h : offsetOf? negative hours minutes = some offset)
    (rest : List Char) :
    readSignedOffset negative (padded 2 hours ++ ':' :: (padded 2 minutes ++ rest)) =
      .ok (offset, rest) := by
  have hfirst := readPart_padded .offsetHour (by decide) (show hours < 10 ^ 2 by omega)
    (':' :: (padded 2 minutes ++ rest))
  have hsecond := readPart_padded .offsetMinute (by decide) (show minutes < 10 ^ 2 by omega) rest
  rw [readSignedOffset, hfirst]
  dsimp only [bind, Except.bind]
  rw [if_neg (by omega), readLiteral, if_pos rfl]
  dsimp only [pure, Except.pure]
  rw [hsecond]
  dsimp only
  rw [if_neg (by omega), h]

/-- The signed hours and minutes of an offset give it back. -/
theorem offsetOf?_natAbs (offset : UtcOffset) :
    offsetOf? (decide (offset.minutes < 0)) (offset.minutes.natAbs / 60)
      (offset.minutes.natAbs % 60) = some offset := by
  obtain ⟨minutes, hrange⟩ := offset
  have htotal : (if decide (minutes < 0) = true then
      -(((minutes.natAbs / 60 : Nat) : Int) * 60 + (minutes.natAbs % 60 : Nat)) else
      ((minutes.natAbs / 60 : Nat) : Int) * 60 + (minutes.natAbs % 60 : Nat)) = minutes := by
    split
    · next hneg =>
        have := of_decide_eq_true hneg
        omega
    · next hneg =>
        have : ¬ minutes < 0 := fun h => hneg (decide_eq_true h)
        omega
  unfold offsetOf?
  simp only [htotal, hrange, and_self, dite_true]

/-- An offset is read back, be it none or one with a sign. -/
theorem readOffset_renderOffset (offset : UtcOffset) (rest : List Char) :
    readOffset (renderOffset offset ++ rest) = .ok (offset, rest) := by
  obtain ⟨hlow, hhigh⟩ := offset.valid
  have hsigned := offsetOf?_natAbs offset
  unfold renderOffset
  by_cases hzero : offset.minutes = 0
  · rw [if_pos hzero]
    have hutc : offset = .utc := by
      cases offset
      simp_all [UtcOffset.utc]
    rw [hutc]
    rfl
  · rw [if_neg hzero]
    simp only [List.cons_append, List.append_assoc]
    by_cases hneg : offset.minutes < 0
    · rw [decide_eq_true hneg] at hsigned
      rw [if_pos hneg]
      exact readSignedOffset_padded (by omega) (by omega) hsigned rest
    · rw [decide_eq_false hneg] at hsigned
      rw [if_neg hneg]
      exact readSignedOffset_padded (by omega) (by omega) hsigned rest

/-- An offset starts with a letter or a sign. -/
theorem exists_renderOffset (offset : UtcOffset) :
    ∃ c cs, renderOffset offset = c :: cs ∧ c.isDigit = false ∧ c ≠ '.' := by
  unfold renderOffset
  by_cases hzero : offset.minutes = 0
  · exact ⟨'Z', [], if_pos hzero, rfl, by decide⟩
  · by_cases hneg : offset.minutes < 0
    · exact ⟨'-', _, by rw [if_neg hzero, if_pos hneg], rfl, by decide⟩
    · exact ⟨'+', _, by rw [if_neg hzero, if_neg hneg], rfl, by decide⟩

theorem leaves_renderOffset (offset : UtcOffset) : Leaves [] (renderOffset offset) := by
  have hread := readOffset_renderOffset offset []
  rw [List.append_nil] at hread
  exact leaves_of_readOffset hread

end

/-! ## timestamps -/

/-- The parts of a date are those of a date. -/
theorem dateOf_date (d : Date) (hyear : 0 ≤ d.year) :
    dateOf d.year.toNat d.month d.day = .ok d := by
  obtain ⟨-, hmonth, -⟩ := d.valid
  have hdate : Date.of? d.year.toNat d.month d.day = some d :=
    Date.of?_eq_some_iff.mpr ⟨(Int.toNat_of_nonneg hyear).symm, rfl, rfl⟩
  rw [dateOf, if_neg (by omega), hdate]

/-- The parts of a time are those of a time, also in a leap second. -/
theorem timeOf_time (time : TimeOfDay) :
    timeOf time.hour time.minute time.second time.nanosecond = .ok time := by
  obtain ⟨hhour, hminute, -⟩ := time.valid
  rw [timeOf, if_neg (by omega), if_neg (by omega), dif_pos time.valid]

section

variable {t : Timestamp} {text : List Char}

theorem readLiteral_cons (literal : Char) (rest : List Char) :
    readLiteral literal (literal :: rest) = .ok rest := if_pos rfl

theorem readSeparator_letter (rest : List Char) : readSeparator ('T' :: rest) = .ok rest := by
  rw [readSeparator, if_pos (by decide)]

/-- The text of a timestamp is read as that timestamp. -/
theorem parse_of_render? (h : t.render? = some text) : parse text = .ok t := by
  obtain ⟨hnegative, h⟩ : ¬ t.date.year < 0 ∧ _ := by simpa [render?] using h
  obtain ⟨hyears, ⟨hmonth, hlast⟩, hday⟩ := t.date.valid
  obtain ⟨hhour, hminute, hsecond, hnanosecond⟩ := t.time.valid
  have hlength : daysInMonth t.date.year t.date.month ≤ 31 := daysInMonth_le _ _
  obtain ⟨c, cs, hoffset, hdigit, hdot⟩ := exists_renderOffset t.offset
  have hfraction := readFraction_renderFraction hnanosecond hdigit hdot cs
  rw [← hoffset] at hfraction
  rw [← h]
  unfold parse
  -- the parts of the date, then the separator
  refine except_bind_eq_ok.mpr ⟨_, readPart_padded .year (by decide) (by omega) _, ?_⟩
  refine except_bind_eq_ok.mpr ⟨_, readLiteral_cons '-' _, ?_⟩
  refine except_bind_eq_ok.mpr ⟨_, readPart_padded .month (by decide) (by omega) _, ?_⟩
  dsimp only
  rw [if_neg (by omega)]
  refine except_bind_eq_ok.mpr ⟨_, readLiteral_cons '-' _, ?_⟩
  refine except_bind_eq_ok.mpr ⟨_, readPart_padded .day (by decide) (by omega) _, ?_⟩
  refine except_bind_eq_ok.mpr ⟨_, readSeparator_letter _, ?_⟩
  -- the parts of the time, then the offset
  refine except_bind_eq_ok.mpr ⟨_, readPart_padded .hour (by decide) (by omega) _, ?_⟩
  refine except_bind_eq_ok.mpr ⟨_, readLiteral_cons ':' _, ?_⟩
  refine except_bind_eq_ok.mpr ⟨_, readPart_padded .minute (by decide) (by omega) _, ?_⟩
  refine except_bind_eq_ok.mpr ⟨_, readLiteral_cons ':' _, ?_⟩
  refine except_bind_eq_ok.mpr ⟨_, readPart_padded .second (by decide) (by omega) _, ?_⟩
  refine except_bind_eq_ok.mpr ⟨_, hfraction, ?_⟩
  rw [← List.append_nil (renderOffset t.offset)]
  refine except_bind_eq_ok.mpr ⟨_, readOffset_renderOffset t.offset [], ?_⟩
  dsimp only
  rw [if_neg (by simp)]
  have hleap : t.time.second ≠ 60 := by omega
  rw [if_neg hleap, if_neg hleap]
  refine except_bind_eq_ok.mpr ⟨_, dateOf_date t.date (by omega), ?_⟩
  refine except_bind_eq_ok.mpr ⟨_, timeOf_time t.time, ?_⟩
  rw [decide_eq_false hleap]
  rfl

theorem leaves_of_render? (h : t.render? = some text) : Leaves [] text := by
  obtain ⟨-, h⟩ : ¬ t.date.year < 0 ∧ _ := by simpa [render?] using h
  obtain ⟨-, -, -, hnanosecond⟩ := t.time.valid
  rw [← h]
  refine .padded (.cons rfl (.padded (.cons rfl (.padded (.cons rfl ?_)))))
  refine .padded (.cons rfl (.padded (.cons rfl (.padded ?_))))
  exact (leaves_renderFraction hnanosecond _).trans (leaves_renderOffset t.offset)

/-- A date from the year zero on has a text. -/
theorem exists_render? (h : 0 ≤ t.date.year) : ∃ text, t.render? = some text :=
  ⟨_, if_neg (Int.not_lt.mpr h)⟩

end

end Timestamp

/-! ## bounds -/

section

open DateExpression

variable {e : String} {now t : Timestamp}

/-- The text of a timestamp means it at every reference instant. -/
theorem DateExpression.resolve?_of_render? {text : List Char} (h : t.render? = some text)
    (now : Timestamp) : resolve? (String.ofList text) now = some t := by
  obtain ⟨front, hfront, hnone⟩ := Timestamp.leaves_of_render? h
  rw [List.append_nil] at hfront
  rw [resolve?, String.toList_ofList, Text.trim_of_noBlank (hfront ▸ hnone),
    Timestamp.parse_of_render? h]

/-- A date from the year zero on is written as a text, which means the same date
at every reference instant. -/
theorem written_date_reread (h : resolve? e now = some t) (hyear : 0 ≤ t.date.year) :
    ∃ text, (dateBound (.string e) now).toJson = .ok (.string text) ∧
      ∀ other, resolve? text other = some t := by
  obtain ⟨text, htext⟩ := Timestamp.exists_render? hyear
  have hwritten : (dateBound (.string e) now).toJson = .ok (.string (String.ofList text)) := by
    have hbound : dateBound (.string e) now = some t := h
    rw [hbound, DateBound.toJson, Timestamp.toJson, htext]
  exact ⟨String.ofList text, hwritten, fun other => resolve?_of_render? htext other⟩

/-- A leap second half an hour behind UTC, in the last minute of June there. -/
theorem written_date_reread_of_leap_second :
    let e := " 2024-06-30t23:29:60-00:30"
    let t : Timestamp :=
      ⟨⟨2024, 6, 30, by decide⟩, ⟨23, 29, 59, 999999999, by decide⟩, ⟨-30, by decide⟩⟩
    resolve? e .unixEpoch = some t ∧ 0 ≤ t.date.year ∧
      ∃ text, (dateBound (.string e) .unixEpoch).toJson = .ok (.string text) ∧
        ∀ other, resolve? text other = some t := by
  intro e t
  have hresolve : resolve? e .unixEpoch = some t := by decide
  have hyear : 0 ≤ t.date.year := by decide
  exact ⟨hresolve, hyear, written_date_reread hresolve hyear⟩

end

end FormCompiler

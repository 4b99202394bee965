import FormCompiler.DateExpression
import FormCompiler.Proofs.WalkOutcome
import FormCompiler.Proofs.Words

/-!
# FormCompiler.Proofs.DateTexts

The texts of whole dates, timestamps and short dates.  `Timestamp.Leaves` is
what every part of a reader does: it takes characters off the front, none of
them a blank.  Only the separator between date and time may be one.

* `Timestamp.length_words_of_parse`, `Timestamp.isDigit_head_of_parse`: a
  timestamp has two words at most, and starts with a digit.
* `DateExpression.length_words_of_shortDate?`: a short date is one word.
-/

namespace FormCompiler

namespace Timestamp

/-! ## digits -/

/-- Digits have the value that the library gives them. -/
theorem digitsValue_eq (digits : List Char) :
    digitsValue digits = Nat.ofDigitChars 10 digits 0 := by
  rw [digitsValue, Nat.ofDigitChars_eq_foldl]
  congr 1
  funext value digit
  omega

/-- Digits that are taken come first, and are as many as asked for. -/
theorem eq_append_of_takeDigits? {count value : Nat} {cs rest : List Char}
    (h : takeDigits? count cs = some (value, rest)) :
    ∃ digits, cs = digits ++ rest ∧ digits.length = count ∧ ∀ d ∈ digits, d.isDigit := by
  simp only [takeDigits?] at h
  split at h
  · next hdigits =>
      obtain ⟨hlength, hall⟩ := hdigits
      obtain ⟨-, rfl⟩ : _ ∧ cs.drop count = rest := by simpa using h
      exact ⟨cs.take count, (List.take_append_drop count cs).symm, hlength,
        List.all_eq_true.mp hall⟩
  · cases h

/-- A part of a timestamp is read from a fixed count of digits. -/
theorem takeDigits?_of_readPart {part : TimestampPart} {count value : Nat} {cs rest : List Char}
    (h : readPart part count cs = .ok (value, rest)) :
    takeDigits? count cs = some (value, rest) := by
  unfold readPart at h
  split at h
  · next result hdigits => rw [hdigits, Except.ok.inj h]
  · cases h

theorem eq_cons_of_readLiteral {literal : Char} {cs rest : List Char}
    (h : readLiteral literal cs = .ok rest) : cs = literal :: rest := by
  cases cs with
  | nil => cases h
  | cons c cs =>
      rw [readLiteral] at h
      split at h
      · next hc => rw [hc, Except.ok.inj h]
      · cases h

/-! ## parts without blanks -/

/-- Some characters in front of the rest, none of them a blank. -/
def Leaves (rest cs : List Char) : Prop :=
  ∃ front, cs = front ++ rest ∧ ∀ c ∈ front, Text.isBlank c = false

section

variable {cs cs' rest : List Char} {value : Nat}

theorem Leaves.cons {c : Char} (hc : Text.isBlank c = false) (h : Leaves rest cs) :
    Leaves rest (c :: cs) := by
  obtain ⟨front, rfl, hfront⟩ := h
  exact ⟨c :: front, rfl, List.forall_mem_cons.mpr ⟨hc, hfront⟩⟩

theorem Leaves.refl (cs : List Char) : Leaves cs cs := ⟨[], rfl, by simp⟩

theorem Leaves.trans (hfirst : Leaves cs' cs) (hsecond : Leaves rest cs') : Leaves rest cs := by
  obtain ⟨front, rfl, hfront⟩ := hfirst
  obtain ⟨back, rfl, hback⟩ := hsecond
  exact ⟨front ++ back, (List.append_assoc _ _ _).symm, List.forall_mem_append.mpr ⟨hfront, hback⟩⟩

theorem leaves_of_takeDigits? {count : Nat} (h : takeDigits? count cs = some (value, rest)) :
    Leaves rest cs := by
  obtain ⟨digits, rfl, -, hdigits⟩ := eq_append_of_takeDigits? h
  exact ⟨digits, rfl, fun d hd => (Text.isPlain_of_isDigit (hdigits d hd)).isBlank⟩

theorem leaves_of_readPart {part : TimestampPart} {count : Nat}
    (h : readPart part count cs = .ok (value, rest)) : Leaves rest cs :=
  leaves_of_takeDigits? (takeDigits?_of_readPart h)

/-- A literal that is no blank is read off the front. -/
theorem leaves_of_readLiteral {literal : Char} (hliteral : Text.isBlank literal = false)
    (h : readLiteral literal cs = .ok rest) : Leaves rest cs := by
  rw [eq_cons_of_readLiteral h]
  exact (Leaves.refl rest).cons hliteral

/-- A fraction is a dot and digits, or nothing. -/
theorem leaves_of_readFraction (h : readFraction cs = .ok (value, rest)) : Leaves rest cs := by
  unfold readFraction at h
  split at h
  · next cs =>
      dsimp only at h
      split at h
      · cases h
      · obtain ⟨-, rfl⟩ : _ ∧ cs.dropWhile Char.isDigit = rest := by simpa using h
        refine Leaves.cons (by decide) ⟨cs.takeWhile Char.isDigit,
          (List.takeWhile_append_dropWhile).symm, fun d hd => ?_⟩
        exact (Text.isPlain_of_isDigit (List.mem_takeWhile_imp hd)).isBlank
  · obtain ⟨-, rfl⟩ : _ ∧ cs = rest := by simpa using h
    exact Leaves.refl cs

/-- Hours, a colon and minutes hold no blank. -/
theorem leaves_of_readSignedOffset {negative : Bool} {offset : UtcOffset}
    (h : readSignedOffset negative cs = .ok (offset, rest)) : Leaves rest cs := by
  unfold readSignedOffset at h
  obtain ⟨⟨hours, cs₁⟩, hhours, h⟩ := except_bind_eq_ok.mp h
  dsimp only at h
  split at h
  · cases h
  obtain ⟨cs₂, hcolon, h⟩ := except_bind_eq_ok.mp h
  obtain ⟨⟨minutes, cs₃⟩, hminutes, h⟩ := except_bind_eq_ok.mp h
  dsimp only at h
  split at h
  · cases h
  have hrest : Leaves cs₃ cs := ((leaves_of_readPart hhours).trans
    (leaves_of_readLiteral (by decide) hcolon)).trans (leaves_of_readPart hminutes)
  split at h
  · obtain ⟨-, rfl⟩ := Prod.mk.inj (Except.ok.inj h)
    exact hrest
  · cases h

/-- An offset is a letter for none, or a sign with hours and minutes. -/
theorem leaves_of_readOffset {offset : UtcOffset} (h : readOffset cs = .ok (offset, rest)) :
    Leaves rest cs := by
  unfold readOffset at h
  split at h
  · obtain ⟨-, rfl⟩ := Prod.mk.inj (Except.ok.inj h)
    exact (Leaves.refl _).cons (by decide)
  · obtain ⟨-, rfl⟩ := Prod.mk.inj (Except.ok.inj h)
    exact (Leaves.refl _).cons (by decide)
  · exact (leaves_of_readSignedOffset h).cons (by decide)
  · exact (leaves_of_readSignedOffset h).cons (by decide)
  · cases h

theorem exists_of_readSeparator (h : readSeparator cs = .ok rest) : ∃ c, cs = c :: rest := by
  cases cs with
  | nil => cases h
  | cons c cs =>
      rw [readSeparator] at h
      split at h
      · exact ⟨c, by rw [Except.ok.inj h]⟩
      · cases h

/-- A timestamp starts with the digits of its year and has at most one blank,
between date and time. -/
theorem exists_separator_of_parse {t : Timestamp} (h : parse cs = .ok t) :
    (∃ digits rest, cs = digits ++ rest ∧ digits.length = 4 ∧ ∀ d ∈ digits, d.isDigit) ∧
      ∃ separator time, Leaves (separator :: time) cs ∧ Leaves [] time := by
  unfold parse at h
  -- the parts of the date
  obtain ⟨⟨year, cs₁⟩, hyear, h⟩ := except_bind_eq_ok.mp h
  obtain ⟨cs₂, hdash, h⟩ := except_bind_eq_ok.mp h
  obtain ⟨⟨month, cs₃⟩, hmonth, h⟩ := except_bind_eq_ok.mp h
  dsimp only at h
  split at h
  · cases h
  obtain ⟨cs₄, hdash', h⟩ := except_bind_eq_ok.mp h
  obtain ⟨⟨day, cs₅⟩, hday, h⟩ := except_bind_eq_ok.mp h
  obtain ⟨cs₆, hseparator, h⟩ := except_bind_eq_ok.mp h
  -- the parts of the time
  obtain ⟨⟨hour, cs₇⟩, hhour, h⟩ := except_bind_eq_ok.mp h
  obtain ⟨cs₈, hcolon, h⟩ := except_bind_eq_ok.mp h
  obtain ⟨⟨minute, cs₉⟩, hminute, h⟩ := except_bind_eq_ok.mp h
  obtain ⟨cs₁₀, hcolon', h⟩ := except_bind_eq_ok.mp h
  obtain ⟨⟨second, cs₁₁⟩, hsecond, h⟩ := except_bind_eq_ok.mp h
  obtain ⟨⟨nanosecond, cs₁₂⟩, hfraction, h⟩ := except_bind_eq_ok.mp h
  obtain ⟨⟨offset, cs₁₃⟩, hoffset, h⟩ := except_bind_eq_ok.mp h
  dsimp only at h
  split at h
  · cases h
  next hend =>
  obtain rfl : cs₁₃ = [] := by simpa using hend
  obtain ⟨digits, hcs, hlength, hdigits⟩ :=
    eq_append_of_takeDigits? (takeDigits?_of_readPart hyear)
  obtain ⟨separator, rfl⟩ := exists_of_readSeparator hseparator
  have hdash := leaves_of_readLiteral (by decide) hdash
  have hdash' := leaves_of_readLiteral (by decide) hdash'
  have hcolon := leaves_of_readLiteral (by decide) hcolon
  have hcolon' := leaves_of_readLiteral (by decide) hcolon'
  refine ⟨⟨digits, cs₁, hcs, hlength, hdigits⟩, separator, cs₆, ?_, ?_⟩
  · exact ((((leaves_of_readPart hyear).trans hdash).trans (leaves_of_readPart hmonth)).trans
      hdash').trans (leaves_of_readPart hday)
  · exact ((((((leaves_of_readPart hhour).trans hcolon).trans (leaves_of_readPart hminute)).trans
      hcolon').trans (leaves_of_readPart hsecond)).trans (leaves_of_readFraction hfraction)).trans
      (leaves_of_readOffset hoffset)

/-! ## words -/

/-- What is read to the end without a blank is one word at most. -/
theorem Leaves.length_words (h : Leaves [] cs) : (Text.words cs).length ≤ 1 := by
  obtain ⟨front, rfl, hfront⟩ := h
  rw [List.append_nil, Text.words, Text.splitWhere_of_forall hfront]
  exact List.length_filter_le _ _

/-- Only its separator may be a blank, so a timestamp has two words at most. -/
theorem length_words_of_parse {t : Timestamp} (h : parse cs = .ok t) :
    (Text.words cs).length ≤ 2 := by
  obtain ⟨-, separator, time, hdate, htime⟩ := exists_separator_of_parse h
  by_cases hblank : Text.isBlank separator = true
  · obtain ⟨date, rfl, hnone⟩ := hdate
    have hfirst : Leaves [] date := ⟨date, (List.append_nil _).symm, hnone⟩
    rw [Text.words_append_cons hblank, List.length_append]
    have := hfirst.length_words
    have := htime.length_words
    omega
  · have hall : Leaves [] cs := hdate.trans (htime.cons (by simpa using hblank))
    have := hall.length_words
    omega

/-- A timestamp starts with the first digit of its year. -/
theorem isDigit_head_of_parse {c : Char} {t : Timestamp} (h : parse (c :: cs) = .ok t) :
    c.isDigit := by
  obtain ⟨⟨digits, rest, hcs, hlength, hdigits⟩, -⟩ := exists_separator_of_parse h
  cases digits with
  | nil => cases hlength
  | cons d digits => exact (List.cons.inj hcs).1 ▸ hdigits d List.mem_cons_self

end

end Timestamp

/-! ## short dates -/

namespace DateExpression

open Timestamp

/-- A short date holds no blank at all. -/
theorem length_words_of_shortDate? {cs : List Char} {t : Timestamp}
    (h : shortDate? cs = some t) : (Text.words cs).length ≤ 1 := by
  unfold shortDate? at h
  split at h
  next negative unsigned hsign =>
  obtain ⟨⟨year, cs₁⟩, hyear, h⟩ := Option.bind_eq_some_iff.mp h
  obtain ⟨cs₂, hdash, h⟩ := Option.bind_eq_some_iff.mp h
  obtain ⟨⟨month, cs₃⟩, hmonth, h⟩ := Option.bind_eq_some_iff.mp h
  obtain ⟨cs₄, hdash', h⟩ := Option.bind_eq_some_iff.mp h
  obtain ⟨⟨day, cs₅⟩, hday, h⟩ := Option.bind_eq_some_iff.mp h
  dsimp only at h
  split at h
  · cases h
  next hend =>
  obtain rfl : cs₅ = [] := by simpa using hend
  have hdash := leaves_of_readLiteral (by decide) (ok_of_toOption hdash)
  have hdash' := leaves_of_readLiteral (by decide) (ok_of_toOption hdash')
  have hunsigned : Leaves [] unsigned := ((((leaves_of_takeDigits? hyear).trans hdash).trans
    (leaves_of_takeDigits? hmonth)).trans hdash').trans (leaves_of_takeDigits? hday)
  suffices Leaves [] cs from this.length_words
  split at hsign
  · obtain rfl := congrArg Prod.snd hsign
    exact hunsigned.cons (by decide)
  · obtain rfl := congrArg Prod.snd hsign
    exact hunsigned.cons (by decide)
  · obtain rfl := congrArg Prod.snd hsign
    exact hunsigned

end DateExpression

end FormCompiler

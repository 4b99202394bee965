import FormCompiler.Cardinality
import FormCompiler.Proofs.RelativeDates

/-!
# FormCompiler.Proofs.CardinalityTexts

Cardinalities as texts: two bounds around a dash, or one number for both.

* `Cardinality.Spells` is the text of a bound: a 64-bit number in decimal
  digits, with a plus in front if need be and any blanks around it.
  `Cardinality.bound?_eq_some_iff` says that nothing else is read as a bound.
* A text is cut at its first dash and again at the next one, so each bound
  depends on its own side alone (`Cardinality.parse_dash`), and what stands
  behind a further dash does not count (`Cardinality.parse_append_dash`).

What is written is read back, whatever the blanks around the bounds
(`Cardinality.texts_read_back`).
-/

namespace FormCompiler.Cardinality

open DateExpression (IsNumeral isNumeral_repr)

/-! ## bounds -/

/-- A 64-bit number in decimal digits, with a plus in front if need be and any
blanks around it. -/
def Spells (text : List Char) (n : Nat) : Prop :=
  n < limit ∧ ∃ digits, IsNumeral digits n ∧
    (Text.Pads digits text ∨ Text.Pads ('+' :: digits) text)

/-- What follows a plus, if the text begins with one. -/
def unsigned : List Char → List Char
  | '+' :: digits => digits
  | digits => digits

/-- At most one plus is taken off the front. -/
theorem eq_unsigned_or (cs : List Char) : cs = unsigned cs ∨ cs = '+' :: unsigned cs := by
  unfold unsigned
  split
  · exact .inr rfl
  · exact .inl rfl

theorem unsigned_of_isNumeral {digits : List Char} {n : Nat} (h : IsNumeral digits n) :
    unsigned digits = digits := by
  unfold unsigned
  split
  · have hplus := h.isDigit '+' List.mem_cons_self
    exact absurd hplus (by decide)
  · rfl

theorem noBlank_of_isNumeral {digits : List Char} {n : Nat} (h : IsNumeral digits n) :
    ∀ c ∈ digits, Text.isBlank c = false :=
  fun c hc => (Text.isPlain_of_isDigit (h.isDigit c hc)).isBlank

/-- A bound is read if digits are left of its text, for a number within 64
bits. -/
theorem bound?_eq_some_iff_unsigned {text : List Char} {n : Nat} :
    bound? text = some n ↔ IsNumeral (unsigned (Text.trim text)) n ∧ n < limit := by
  -- The reader takes the plus off in a match of its own, which is `unsigned`.
  have hbound : bound? text =
      if !(unsigned (Text.trim text)).isEmpty && (unsigned (Text.trim text)).all Char.isDigit &&
          Timestamp.digitsValue (unsigned (Text.trim text)) < limit then
        some (Timestamp.digitsValue (unsigned (Text.trim text))) else none := rfl
  generalize unsigned (Text.trim text) = digits at hbound ⊢
  rw [hbound, Option.ite_none_right_eq_some, Timestamp.digitsValue_eq, Option.some_inj]
  simp only [Bool.and_eq_true, decide_eq_true_eq, List.all_eq_true, Bool.not_eq_true',
    List.isEmpty_eq_false_iff]
  constructor
  · rintro ⟨⟨⟨hne, hall⟩, hlimit⟩, rfl⟩
    exact ⟨⟨hne, hall, rfl⟩, hlimit⟩
  · rintro ⟨⟨hne, hall, rfl⟩, hlimit⟩
    exact ⟨⟨⟨hne, hall⟩, hlimit⟩, rfl⟩

/-- A text is read as a bound exactly if it spells it. -/
theorem bound?_eq_some_iff {text : List Char} {n : Nat} :
    bound? text = some n ↔ Spells text n := by
  rw [bound?_eq_some_iff_unsigned]
  constructor
  · rintro ⟨hdigits, hlimit⟩
    have hpads := Text.pads_trim text
    refine ⟨hlimit, unsigned (Text.trim text), hdigits, ?_⟩
    rcases eq_unsigned_or (Text.trim text) with hplain | hplus
    · exact .inl (hplain ▸ hpads)
    · exact .inr (hplus ▸ hpads)
  · rintro ⟨hlimit, digits, hdigits, hpads | hpads⟩
    · rw [hpads.trim_eq (noBlank_of_isNumeral hdigits), unsigned_of_isNumeral hdigits]
      exact ⟨hdigits, hlimit⟩
    · have hblank : ∀ c ∈ '+' :: digits, Text.isBlank c = false :=
        List.forall_mem_cons.mpr ⟨by decide, noBlank_of_isNumeral hdigits⟩
      rw [hpads.trim_eq hblank]
      exact ⟨hdigits, hlimit⟩

/-! ## dashes -/

theorem toList_dash (first second : String) :
    (first ++ "-" ++ second).toList = first.toList ++ '-' :: second.toList := by
  rw [String.toList_append, String.toList_append, List.append_assoc]
  rfl

/-- Without a dash, the text stands for both bounds. -/
theorem parse_noDash {text : String} (h : '-' ∉ text.toList) :
    parse text = ⟨bound? text.toList, bound? text.toList⟩ := by
  rw [parse, Text.splitWhere_of_notMem h]

/-- Each bound is read from its own side of the dash. -/
theorem parse_dash {first second : String} (hfirst : '-' ∉ first.toList)
    (hsecond : '-' ∉ second.toList) :
    parse (first ++ "-" ++ second) = ⟨bound? first.toList, bound? second.toList⟩ := by
  have hpieces : Text.splitWhere (· = '-') (first ++ "-" ++ second).toList =
      [first.toList, second.toList] := by
    rw [toList_dash, Text.splitWhere_append_separator, Text.splitWhere_of_notMem hfirst,
      Text.splitWhere_of_notMem hsecond]
    rfl
  rw [parse, hpieces]

/-- A text with a dash is cut into two pieces at least. -/
theorem exists_pieces_of_dash {cs : List Char} (h : '-' ∈ cs) :
    ∃ least most others, Text.splitWhere (· = '-') cs = least :: most :: others := by
  obtain ⟨first, second, rfl⟩ := List.append_of_mem h
  obtain ⟨piece, pieces, hfirst⟩ :=
    List.exists_cons_of_ne_nil (Text.splitWhere_ne_nil (· = '-') first)
  obtain ⟨next, others, hsecond⟩ :=
    List.exists_cons_of_ne_nil (Text.splitWhere_ne_nil (· = '-') second)
  rw [Text.splitWhere_append_separator, hfirst, hsecond]
  cases pieces with
  | nil => exact ⟨piece, next, others, rfl⟩
  | cons most pieces => exact ⟨piece, most, pieces ++ next :: others, rfl⟩

/-- What stands behind a second dash does not count. -/
theorem parse_append_dash {text : String} (h : '-' ∈ text.toList) (rest : String) :
    parse (text ++ "-" ++ rest) = parse text := by
  -- The first two pieces are there already, and only they are read.
  obtain ⟨least, most, others, htext⟩ := exists_pieces_of_dash h
  have hpieces : Text.splitWhere (· = '-') (text ++ "-" ++ rest).toList =
      least :: most :: (others ++ Text.splitWhere (· = '-') rest.toList) := by
    rw [toList_dash, Text.splitWhere_append_separator, htext]
    rfl
  rw [parse, hpieces, parse, htext]

/-! ## written bounds -/

/-- A bound as it is written: nothing, if there is none. -/
def boundText : Option UInt64 → String
  | none => ""
  | some n => toString n

theorem isNumeral_toString (n : UInt64) : IsNumeral (toString n).toList n.toNat :=
  isNumeral_repr n.toNat

/-- The digits of a number spell it also between blanks. -/
theorem spells_of_pads {n : UInt64} {text : List Char}
    (h : Text.Pads (toString n).toList text) : Spells text n.toNat :=
  ⟨n.toNat_lt, (toString n).toList, isNumeral_toString n, .inl h⟩

theorem bound?_of_blanks {text : List Char} (h : Text.Pads [] text) : bound? text = none := by
  refine Option.eq_none_iff_forall_ne_some.mpr fun n hn => ?_
  have htrim : Text.trim text = [] := h.trim_eq fun _ hc => absurd hc List.not_mem_nil
  have hnil := (bound?_eq_some_iff_unsigned.mp hn).1.ne_nil
  rw [htrim] at hnil
  exact hnil rfl

/-- The text of a bound, or of none, is read back also between blanks. -/
theorem bound?_of_pads {bound : Option UInt64} {text : List Char}
    (h : Text.Pads (boundText bound).toList text) : bound? text = bound.map UInt64.toNat := by
  cases bound with
  | none => exact bound?_of_blanks h
  | some n => exact bound?_eq_some_iff.mpr (spells_of_pads h)

theorem noDash_of_isNumeral {digits : List Char} {n : Nat} (h : IsNumeral digits n) :
    '-' ∉ digits :=
  fun hdash => absurd (h.isDigit '-' hdash) (by decide)

theorem noDash_of_pads {core text : List Char} (h : Text.Pads core text) (hcore : '-' ∉ core) :
    '-' ∉ text := by
  obtain ⟨lead, trail, hlead, htrail, rfl⟩ := h
  have hblank : Text.isBlank '-' = false := by decide
  simp only [List.mem_append, not_or]
  refine ⟨⟨fun hdash => ?_, hcore⟩, fun hdash => ?_⟩
  · exact Bool.false_ne_true (hblank.symm.trans (hlead _ hdash))
  · exact Bool.false_ne_true (hblank.symm.trans (htrail _ hdash))

/-- The text of a bound holds no dash, so a cardinality is cut between its
bounds. -/
theorem noDash_of_boundText {bound : Option UInt64} {text : List Char}
    (h : Text.Pads (boundText bound).toList text) : '-' ∉ text := by
  refine noDash_of_pads h ?_
  cases bound with
  | none => exact List.not_mem_nil
  | some n => exact noDash_of_isNumeral (isNumeral_toString n)

/-! ## texts -/

/-- Bounds are read back from their text, whatever the blanks around them and
whatever stands behind a second dash.  A text that spells no 64-bit number
leaves its bound open, and the other bound as it is. -/
theorem texts_read_back :
    (∀ (least most : Option UInt64) (first second : String),
      Text.Pads (boundText least).toList first.toList →
      Text.Pads (boundText most).toList second.toList →
      parse (first ++ "-" ++ second) = ⟨least.map UInt64.toNat, most.map UInt64.toNat⟩) ∧
    (∀ (n : UInt64) (text : String), Text.Pads (toString n).toList text.toList →
      parse text = ⟨some n.toNat, some n.toNat⟩) ∧
    (∀ text rest : String, '-' ∈ text.toList → parse (text ++ "-" ++ rest) = parse text) ∧
    (∀ first second : String, '-' ∉ first.toList → '-' ∉ second.toList → ∀ n : Nat,
      ((parse (first ++ "-" ++ second)).least = some n ↔ Spells first.toList n) ∧
      ((parse (first ++ "-" ++ second)).most = some n ↔ Spells second.toList n)) ∧
    (∀ text : String, '-' ∉ text.toList → ∀ n : Nat,
      ((parse text).least = some n ↔ Spells text.toList n) ∧
      ((parse text).most = some n ↔ Spells text.toList n)) := by
  refine ⟨fun least most first second hfirst hsecond => ?_, fun n text htext => ?_,
    fun text rest hdash => parse_append_dash hdash rest, fun first second hfirst hsecond n => ?_,
    fun text hdash n => ?_⟩
  · rw [parse_dash (noDash_of_boundText hfirst) (noDash_of_boundText hsecond),
      bound?_of_pads hfirst, bound?_of_pads hsecond]
  · have hdash := noDash_of_pads htext (noDash_of_isNumeral (isNumeral_toString n))
    rw [parse_noDash hdash, bound?_eq_some_iff.mpr (spells_of_pads htext)]
  · rw [parse_dash hfirst hsecond]
    exact ⟨bound?_eq_some_iff, bound?_eq_some_iff⟩
  · rw [parse_noDash hdash]
    exact ⟨bound?_eq_some_iff, bound?_eq_some_iff⟩

/-- The largest number is a bound, and the next one is none. -/
theorem texts_read_back_at_limit :
    parse (" 2 " ++ "-" ++ "\t") = ⟨some 2, none⟩ ∧
    parse "\n18446744073709551615 " = ⟨some 18446744073709551615, some 18446744073709551615⟩ ∧
    parse ("2-5" ++ "-" ++ " 7") = parse "2-5" ∧
    (parse (" +07" ++ "-" ++ "18446744073709551616")).least = some 7 ∧
    (parse (" +07" ++ "-" ++ "18446744073709551616")).most ≠ some 18446744073709551616 ∧
    (parse "+ 3").least ≠ some 3 := by
  obtain ⟨hbounds, hnumber, hdash, hsides, hboth⟩ := texts_read_back
  have hseven : Spells " +07".toList 7 :=
    ⟨by decide, ['0', '7'], by decide, .inr (Text.pads_of_all _ (by decide : [' '].all _) rfl)⟩
  have htwo : Text.Pads (boundText (some 2)).toList " 2 ".toList :=
    Text.pads_of_all _ (by decide : [' '].all _) (by decide : [' '].all _)
  have hnone : Text.Pads (boundText none).toList "\t".toList :=
    Text.pads_of_all _ (by decide : ['\t'].all _) rfl
  have hlargest : Text.Pads (toString (18446744073709551615 : UInt64)).toList
      "\n18446744073709551615 ".toList :=
    Text.pads_of_all _ (by decide : ['\n'].all _) (by decide : [' '].all _)
  have hsides := hsides " +07" "18446744073709551616" (by decide) (by decide)
  refine ⟨hbounds (some 2) none _ _ htwo hnone, hnumber _ _ hlargest, hdash "2-5" " 7" (by decide),
    (hsides 7).1.mpr hseven, fun hmost => ?_, fun hleast => ?_⟩
  · have hlimit := ((hsides 18446744073709551616).2.mp hmost).1
    exact absurd hlimit (by decide)
  · have hspells := (hboth "+ 3" (by decide) 3).1.mp hleast
    exact absurd (bound?_eq_some_iff.mpr hspells) (by decide)

end FormCompiler.Cardinality

import FormCompiler.Proofs.DateShifts
import FormCompiler.Proofs.DateTexts

/-!
# FormCompiler.Proofs.RelativeDates

The dates `in <n> <unit>` and `<n> <unit> ago`, also with a sign in front of
the amount in place of the word for the direction.

* `HasForm` is what such an expression looks like, in letters of any case and
  with any blanks around its words.  It is no timestamp, no short date and no
  keyword, so its amount and its unit decide what it means
  (`HasForm.resolve?_eq`).
* `Spells` is an integer as a decimal, of any size.  What is read as an amount
  spells one (`spells_of_amount?`), and a number means the instant that many
  units away (`HasForm.resolve?_eq_target?`).
* `Says` is the form with words only.  Every integer and unit has such a text
  (`says_phrase`), which means a date whenever that lies in a year from -9999 to
  9999 (`relative_date_exact`).
-/

namespace FormCompiler

namespace DateExpression

/-! ## numbers -/

/-- Decimal digits, at least one; zeros in front are allowed. -/
structure IsNumeral (ds : List Char) (n : Nat) : Prop where
  ne_nil : ds ≠ []
  isDigit : ∀ d ∈ ds, d.isDigit
  value : Nat.ofDigitChars 10 ds 0 = n

instance (ds : List Char) (n : Nat) : Decidable (IsNumeral ds n) :=
  decidable_of_iff (ds ≠ [] ∧ ds.all Char.isDigit ∧ Nat.ofDigitChars 10 ds 0 = n)
    ⟨fun h => ⟨h.1, List.all_eq_true.mp h.2.1, h.2.2⟩,
      fun h => ⟨h.ne_nil, List.all_eq_true.mpr h.isDigit, h.value⟩⟩

/-- A decimal integer, with at most one sign. -/
inductive Spells : List Char → Int → Prop where
  | plain {ds : List Char} {n : Nat} (h : IsNumeral ds n) : Spells ds n
  | plus {ds : List Char} {n : Nat} (h : IsNumeral ds n) : Spells ('+' :: ds) n
  | minus {ds : List Char} {n : Nat} (h : IsNumeral ds n) : Spells ('-' :: ds) (-n)

theorem isNumeral_repr (n : Nat) : IsNumeral n.repr.toList n := by
  rw [Nat.toList_repr]
  exact ⟨Nat.toDigits_ne_nil, fun _ => Nat.isDigit_of_mem_toDigits (by decide) (by decide),
    Nat.ofDigitChars_ten_toDigits⟩

/-- Every integer is spelled by its decimal text. -/
theorem spells_toString (n : Int) : Spells (toString n).toList n := by
  cases n with
  | ofNat n => exact .plain (isNumeral_repr n)
  | negSucc n =>
      have hminus := Spells.minus (isNumeral_repr (n + 1))
      have htext : (toString (Int.negSucc n)).toList = '-' :: (n + 1).repr.toList :=
        String.toList_append
      rw [htext]
      exact hminus

theorem digits?_of_isNumeral {ds : List Char} {n : Nat} (h : IsNumeral ds n) :
    digits? ds = some n := by
  have hne : ds.isEmpty = false := by simpa using h.ne_nil
  have hall : ds.all Char.isDigit = true := List.all_eq_true.mpr h.isDigit
  rw [digits?, hne, hall, Timestamp.digitsValue_eq, h.value]
  rfl

/-- An amount is read from its sign and digits, if it fits 64 bits. -/
theorem amount?_of_spells {cs : List Char} {n : Int} (h : Spells cs n) :
    amount? cs = fitting? n := by
  cases h with
  | @plain _ n h =>
      obtain ⟨d, ds, rfl⟩ := List.exists_cons_of_ne_nil h.ne_nil
      have hd := h.isDigit d List.mem_cons_self
      have hplus : d ≠ '+' := by rintro rfl; cases hd
      have hminus : d ≠ '-' := by rintro rfl; cases hd
      have hvalue : amount? (d :: ds) = ((digits? (d :: ds)).map Int.ofNat).bind fitting? := by
        unfold amount?
        dsimp only
        split
        · next heq => exact absurd (List.cons.inj heq).1 hplus
        · next heq => exact absurd (List.cons.inj heq).1 hminus
        · rfl
      rw [hvalue, digits?_of_isNumeral h, Option.map_some, Option.bind_some, Int.ofNat_eq_natCast]
  | @plus ds n h =>
      have hvalue : amount? ('+' :: ds) = ((digits? ds).map Int.ofNat).bind fitting? := rfl
      rw [hvalue, digits?_of_isNumeral h, Option.map_some, Option.bind_some, Int.ofNat_eq_natCast]
  | @minus ds n h =>
      have hvalue : amount? ('-' :: ds) =
          (((digits? ds).bind fun n => some (n : Int)).map fun n => -n).bind fitting? := rfl
      rw [hvalue, digits?_of_isNumeral h, Option.bind_some, Option.map_some, Option.bind_some]

theorem isNumeral_of_digits? {ds : List Char} {n : Nat} (h : digits? ds = some n) :
    IsNumeral ds n := by
  unfold digits? at h
  split at h
  · next hdigits =>
      rw [Bool.and_eq_true] at hdigits
      refine ⟨by simpa using hdigits.1, List.all_eq_true.mp hdigits.2, ?_⟩
      rw [← Timestamp.digitsValue_eq, Option.some.inj h]
  · cases h

/-- What is read as an amount spells its number. -/
theorem spells_of_amount? {cs : List Char} {n : Int} (h : amount? cs = some n) : Spells cs n := by
  unfold amount? at h
  obtain ⟨m, hvalue, hfits⟩ := Option.bind_eq_some_iff.mp h
  obtain rfl := eq_of_fitting? hfits
  split at hvalue
  · obtain ⟨k, hdigits, rfl⟩ := Option.map_eq_some_iff.mp hvalue
    exact .plus (isNumeral_of_digits? hdigits)
  · obtain ⟨_, hcast, rfl⟩ := Option.map_eq_some_iff.mp hvalue
    obtain ⟨k, hdigits, hk⟩ := Option.bind_eq_some_iff.mp hcast
    obtain rfl := Option.some.inj hk
    exact .minus (isNumeral_of_digits? hdigits)
  · obtain ⟨k, hdigits, rfl⟩ := Option.map_eq_some_iff.mp hvalue
    exact .plain (isNumeral_of_digits? hdigits)

/-! ## forms -/

/-- A word for the unit: its name, with any number of letters `s` behind. -/
def DateUnit.Named (unit : DateUnit) (word : List Char) : Prop :=
  ∃ count, word = unit.name.toList ++ List.replicate count 's'

/-- The words of a relative date with this amount and unit. -/
def Direction.frame (amount unit : List Char) : Direction → List (List Char)
  | past => [amount, unit, "ago".toList]
  | future => ["in".toList, amount, unit]

def lowerWords (e : String) : List (List Char) :=
  (Text.words e.toList).map (List.map Char.toLower)

/-- The expression is `in <n> <unit>` or `<n> <unit> ago`, apart from letter
case and the blanks around its words. -/
def Says (e : String) (direction : Direction) (n : Int) (unit : DateUnit) : Prop :=
  ∃ amount word, Spells amount n ∧ unit.Named word ∧ lowerWords e = direction.frame amount word

def Direction.phrase (amount unit : String) : Direction → String
  | past => amount ++ " " ++ unit ++ " ago"
  | future => "in " ++ amount ++ " " ++ unit

section

variable {cs word amount : List Char} {n : Int} {unit : DateUnit} {direction : Direction}

/-- A word that names a unit is read as this unit. -/
theorem unit?_of_named (h : unit.Named word) : unit? word = some unit := by
  obtain ⟨count, rfl⟩ := h
  have hends : ∀ c ∈ List.replicate count 's', decide (c = 's') = true := by simp
  rw [unit?, List.reverse_append, List.reverse_replicate,
    List.dropWhile_append_of_pos hends]
  cases unit <;> rfl

theorem Spells.ne_nil (h : Spells cs n) : cs ≠ [] := by
  cases h with
  | plain h => exact h.ne_nil
  | plus h | minus h => exact List.cons_ne_nil _ _

/-- A sign and digits are the same in lower case, and no blanks. -/
theorem Spells.isPlain (h : Spells cs n) : ∀ c ∈ cs, Text.IsPlain c := by
  cases h with
  | plain h => exact fun c hc => Text.isPlain_of_isDigit (h.isDigit c hc)
  | plus h | minus h =>
      intro c hc
      rcases List.mem_cons.mp hc with rfl | hc
      · decide
      · exact Text.isPlain_of_isDigit (h.isDigit c hc)

theorem DateUnit.Named.ne_nil (h : unit.Named word) : word ≠ [] := by
  obtain ⟨count, rfl⟩ := h
  cases unit <;> simp [DateUnit.name]

/-- The words for units are in lower case, without blanks. -/
theorem DateUnit.Named.isPlain (h : unit.Named word) : ∀ c ∈ word, Text.IsPlain c := by
  obtain ⟨count, rfl⟩ := h
  intro c hc
  rcases List.mem_append.mp hc with hc | hc
  · have hname : unit.name.toList.all (Text.IsPlain ·) := by
      cases unit <;> decide
    exact Text.isPlain_of_all hname c hc
  · rw [List.eq_of_mem_replicate hc]
    decide

theorem Spells.isWord (h : Spells cs n) : Text.IsWord cs :=
  ⟨h.ne_nil, fun c hc => (h.isPlain c hc).isBlank⟩

theorem DateUnit.Named.isWord (h : unit.Named word) : Text.IsWord word :=
  ⟨h.ne_nil, fun c hc => (h.isPlain c hc).isBlank⟩

/-- The words of a plain text are the two that it is made of, in lower case. -/
theorem lowerWords_phrase {amount unit : String} (hamount : Text.IsWord amount.toList)
    (hunit : Text.IsWord unit.toList) :
    lowerWords (direction.phrase amount unit) =
      direction.frame (amount.toList.map Char.toLower) (unit.toList.map Char.toLower) := by
  have hspace : Text.isBlank ' ' = true := rfl
  cases direction with
  | past =>
      have htext : (Direction.past.phrase amount unit).toList =
          amount.toList ++ ' ' :: (unit.toList ++ ' ' :: "ago".toList) := by
        simp [Direction.phrase]
      rw [lowerWords, htext, Text.words_append_cons hspace, Text.words_append_cons hspace,
        hamount.words_eq, hunit.words_eq]
      rfl
  | future =>
      have htext : (Direction.future.phrase amount unit).toList =
          "in".toList ++ ' ' :: (amount.toList ++ ' ' :: unit.toList) := by
        simp [Direction.phrase]
      rw [lowerWords, htext, Text.words_append_cons hspace, Text.words_append_cons hspace,
        hamount.words_eq, hunit.words_eq]
      rfl

/-- Every spelled number and every word for a unit have an expression. -/
theorem says_phrase {amount word : String} (hamount : Spells amount.toList n)
    (hword : unit.Named word.toList) : Says (direction.phrase amount word) direction n unit := by
  refine ⟨amount.toList, word.toList, hamount, hword, ?_⟩
  rw [lowerWords_phrase hamount.isWord hword.isWord, Text.map_toLower_of_isPlain hamount.isPlain,
    Text.map_toLower_of_isPlain hword.isPlain]

end

/-! ## meaning of the words -/

def Direction.sign : Direction → Char
  | past => '-'
  | future => '+'

/-- The words of a relative date whose amount has a sign in front. -/
def Direction.signedFrame (amount unit : List Char) (direction : Direction) : List (List Char) :=
  [direction.sign :: amount, unit]

/-- The expression has one of the two forms of a direction, apart from letter
case and the blanks around its words: `in <amount> <unit>` or
`+<amount> <unit>`, and `<amount> <unit> ago` or `-<amount> <unit>`. -/
def HasForm (e : String) (direction : Direction) (amount unit : List Char) : Prop :=
  lowerWords e = direction.frame amount unit ∨ lowerWords e = direction.signedFrame amount unit

/-- The instant that an amount and a unit lead to in a direction. -/
def relativeDate? (now : Timestamp) (amount unit : List Char) (direction : Direction) :
    Option Timestamp :=
  (amount? amount).bind fun n => (fitting? (direction.apply n)).bind fun n =>
    (unit? unit).bind (shift? now n)

section

variable {e : String} {direction : Direction} {amount unit : List Char} {t now : Timestamp}

/-- Where both forms could be meant, neither has a meaning. -/
theorem relative?_of_frame :
    ((relative? (direction.frame amount unit)).bind fun (amount, unit, direction) =>
      relativeDate? now amount unit direction) = relativeDate? now amount unit direction := by
  cases direction with
  | past => rw [Direction.frame, relative?, if_pos rfl, Option.bind_some]
  | future =>
      rw [Direction.frame, relative?]
      by_cases hago : unit = "ago".toList
      · have hamount : amount? "in".toList = none := by decide
        have hunit : unit? "ago".toList = none := by decide
        rw [if_pos hago, Option.bind_some, hago]
        simp only [relativeDate?, hamount, hunit, Option.bind_none, Option.bind_fun_none]
      · rw [if_neg hago, if_pos rfl, Option.bind_some]

/-- An amount with a sign is read in the direction of the sign. -/
theorem relative?_of_signedFrame :
    ((relative? (direction.signedFrame amount unit)).bind fun (amount, unit, direction) =>
      relativeDate? now amount unit direction) = relativeDate? now amount unit direction := by
  cases direction <;> rfl

/-- A text of several words is no keyword. -/
theorem resolveWords?_of_length {lower : List Char} (h : 2 ≤ (Text.words lower).length) :
    resolveWords? lower now = (relative? (Text.words lower)).bind fun (amount, unit, direction) =>
      relativeDate? now amount unit direction := by
  have hkeyword : ∀ {keyword : List Char}, (Text.words keyword).length ≤ 1 → lower ≠ keyword := by
    rintro keyword hlength rfl
    omega
  rw [resolveWords?, if_neg (hkeyword (by decide)), if_neg (hkeyword (by decide)),
    if_neg (hkeyword (by decide)), if_neg (hkeyword (by decide))]
  rfl

/-- A relative date has two words at least, so it is no keyword. -/
theorem HasForm.length_lowerWords (h : HasForm e direction amount unit) :
    2 ≤ (lowerWords e).length := by
  rcases h with h | h <;> rw [h] <;> cases direction <;>
    simp [Direction.frame, Direction.signedFrame]

/-- A relative date is no timestamp: it has three words, or starts with a sign. -/
theorem HasForm.parse_ne_ok (h : HasForm e direction amount unit) :
    Timestamp.parse (Text.trim e.toList) ≠ .ok t := by
  intro hparse
  have hlength := Timestamp.length_words_of_parse hparse
  rcases h with h | h
  · have hthree : (lowerWords e).length = 3 := by
      rw [h]
      cases direction <;> rfl
    rw [lowerWords, List.length_map, ← Text.words_trim] at hthree
    omega
  · obtain ⟨c, cs, hcs⟩ : ∃ c cs, Text.trim e.toList = c :: cs := by
      refine List.exists_cons_of_ne_nil fun hnil => ?_
      rw [lowerWords, ← Text.words_trim, hnil] at h
      cases direction <;> cases h
    rw [hcs] at hparse
    have hplain := Text.isPlain_of_isDigit (Timestamp.isDigit_head_of_parse hparse)
    obtain ⟨rest, others, hwords⟩ := Text.words_append_of_noBlank (List.cons_ne_nil c [])
      (List.forall_mem_singleton.mpr hplain.isBlank) cs
    rw [lowerWords, ← Text.words_trim, hcs, ← List.singleton_append, hwords, List.map_cons] at h
    have hsign : c.toLower = direction.sign := (List.cons.inj (List.cons.inj h).1).1
    rw [hplain.toLower] at hsign
    have hdigit := Timestamp.isDigit_head_of_parse hparse
    rw [hsign] at hdigit
    cases direction <;> cases hdigit

/-- A relative date is no short date, which is one word. -/
theorem HasForm.shortDate?_ne_some (h : HasForm e direction amount unit) :
    shortDate? (Text.trim e.toList) ≠ some t := by
  intro hshort
  have hlength := length_words_of_shortDate? hshort
  have hwords := h.length_lowerWords
  rw [lowerWords, List.length_map, ← Text.words_trim] at hwords
  omega

/-- The words of a relative date decide what it means. -/
theorem HasForm.resolve?_eq (h : HasForm e direction amount unit) (now : Timestamp) :
    resolve? e now = relativeDate? now amount unit direction := by
  have hwords : Text.words ((Text.trim e.toList).map Char.toLower) = lowerWords e := by
    rw [Text.words_map_toLower, Text.words_trim, lowerWords]
  rw [resolve?]
  split
  · next t hparse => exact absurd hparse h.parse_ne_ok
  · split
    · next t hshort => exact absurd hshort h.shortDate?_ne_some
    · rw [resolveWords?_of_length (hwords ▸ h.length_lowerWords), hwords]
      rcases h with h | h <;> rw [h]
      · exact relative?_of_frame
      · exact relative?_of_signedFrame

end

/-! ## relative dates -/

section

variable {e : String} {direction : Direction} {n : Int} {unit : DateUnit} {t now : Timestamp}

/-- A number and a unit mean the instant that many units away. -/
theorem HasForm.resolve?_eq_target? {amount word : List Char}
    (h : HasForm e direction amount word) (hamount : Spells amount n) (hword : unit.Named word)
    (now : Timestamp) : resolve? e now = (unit.times (direction.apply n)).target? now := by
  rw [h.resolve?_eq now, relativeDate?, amount?_of_spells hamount, unit?_of_named hword]
  exact checked_shift?_eq now n direction unit

/-- A relative date in words means its shift from the reference instant. -/
theorem Says.resolve?_eq (h : Says e direction n unit) (now : Timestamp) :
    resolve? e now = (unit.times (direction.apply n)).target? now := by
  obtain ⟨amount, word, hamount, hword, hwords⟩ := h
  exact HasForm.resolve?_eq_target? (.inl hwords) hamount hword now

/-- Every integer has its relative dates.  They are exact, and refused only
where the date they lead to is out of the range of years. -/
theorem relative_date_exact (direction : Direction) (n : Int) (unit : DateUnit) (now : Timestamp) :
    Says (direction.phrase (toString n) unit.name) direction n unit ∧
      ∀ e, Says e direction n unit →
        (∀ t, resolve? e now = some t ↔ (unit.times (direction.apply n)).Leads now t) ∧
        ((resolve? e now).isSome ↔ ∃ year, (-9999 ≤ year ∧ year ≤ 9999) ∧
          (unit.times (direction.apply n)).LandsInYear now year) := by
  have hname : unit.Named unit.name.toList := ⟨0, (List.append_nil _).symm⟩
  refine ⟨says_phrase (spells_toString n) hname, fun e h => ?_⟩
  rw [h.resolve?_eq]
  exact ⟨fun t => Shift.target?_eq_some_iff, Shift.isSome_target?_iff⟩

/-- A month before the last of March is the last of February, and no date
lies 10^30 days ahead. -/
theorem relative_date_exact_of_month_end :
    let now : Timestamp := ⟨⟨2024, 3, 31, by decide⟩, ⟨15, 30, 0, 0, by decide⟩, .utc⟩
    resolve? "1 month ago" now =
        some ⟨⟨2024, 2, 29, by decide⟩, ⟨15, 30, 0, 0, by decide⟩, .utc⟩ ∧
      resolve? "in 1000000000000000000000000000000 days" now = none := by
  intro now
  have hmonth : Says "1 month ago" .past 1 .month :=
    ⟨"1".toList, "month".toList, .plain ⟨by decide, List.all_eq_true.mp (by decide), by decide⟩,
      ⟨0, by decide⟩, by decide⟩
  have hdays : Says "in 1000000000000000000000000000000 days" .future (10 ^ 30) .day :=
    ⟨"1000000000000000000000000000000".toList, "days".toList,
      .plain ⟨by decide, List.all_eq_true.mp (by decide), by decide⟩, ⟨1, by decide⟩, by decide⟩
  obtain ⟨hleads, -⟩ := (relative_date_exact .past 1 .month now).2 _ hmonth
  obtain ⟨-, hsome⟩ := (relative_date_exact .future (10 ^ 30) .day now).2 _ hdays
  refine ⟨(hleads _).mpr ⟨by decide, by decide, rfl, rfl⟩, ?_⟩
  rw [← Option.not_isSome_iff_eq_none, hsome]
  rintro ⟨year, hyear, hlands⟩
  have hday : 0 ≤ now.date.dayNumber := by decide
  have hnear := FallsInYear.near hlands hyear
  simp only [Direction.apply] at hnear
  omega

end

end DateExpression

end FormCompiler

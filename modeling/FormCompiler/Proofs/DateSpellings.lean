import FormCompiler.Proofs.RelativeDates

/-!
# FormCompiler.Proofs.DateSpellings

Texts that mean the same date.

* A sign in front of an amount is short for `in` or `ago`, whatever the amount
  and the unit are (`signedPhrase_agrees`).
* `Expresses` is a relative date in any of its forms; it means its shift
  (`Expresses.resolve?_eq`), so a week is seven days and a year twelve months
  also where the amount is too large for a date or for 64 bits.
* `tomorrow` and `yesterday` fall on the day after and before
  (`map_date_keyword`), which only the last and the first date do not have.
-/

namespace FormCompiler.DateExpression

/-! ## signs -/

/-- The plain text of a relative date with a sign. -/
def Direction.signedPhrase (amount unit : String) : Direction → String
  | past => "-" ++ amount ++ " " ++ unit
  | future => "+" ++ amount ++ " " ++ unit

section

variable {direction : Direction} {amount unit : String} {e e' : String} {n : Int}
  {now : Timestamp}

/-- A phrase with a sign has two words: the amount behind its sign, and the
unit. -/
theorem lowerWords_signedPhrase (hamount : Text.IsWord amount.toList)
    (hunit : Text.IsWord unit.toList) :
    lowerWords (direction.signedPhrase amount unit) =
      direction.signedFrame (amount.toList.map Char.toLower) (unit.toList.map Char.toLower) := by
  have htext : (direction.signedPhrase amount unit).toList =
      (direction.sign :: amount.toList) ++ ' ' :: unit.toList := by
    cases direction <;> simp [Direction.signedPhrase, Direction.sign]
  have hsigned : Text.IsWord (direction.sign :: amount.toList) := by
    refine ⟨List.cons_ne_nil _ _, List.forall_mem_cons.mpr ⟨?_, hamount.noBlank⟩⟩
    cases direction <;> rfl
  have hsign : direction.sign.toLower = direction.sign := by
    cases direction <;> decide
  rw [lowerWords, htext, Text.words_append_cons rfl, hsigned.words_eq, hunit.words_eq]
  simp [Direction.signedFrame, hsign]

/-- A sign means the same as the word for its direction. -/
theorem signedPhrase_agrees (hamount : Text.IsWord amount.toList)
    (hunit : Text.IsWord unit.toList) (now : Timestamp) :
    resolve? (direction.signedPhrase amount unit) now =
      resolve? (direction.phrase amount unit) now := by
  have hsigned : HasForm (direction.signedPhrase amount unit) direction
      (amount.toList.map Char.toLower) (unit.toList.map Char.toLower) :=
    .inr (lowerWords_signedPhrase hamount hunit)
  have hplain : HasForm (direction.phrase amount unit) direction
      (amount.toList.map Char.toLower) (unit.toList.map Char.toLower) :=
    .inl (lowerWords_phrase hamount hunit)
  rw [hsigned.resolve?_eq, hplain.resolve?_eq]

/-! ## units -/

/-- The expression is a relative date with this number and unit, in one of the
two forms of its direction. -/
def Expresses (e : String) (direction : Direction) (n : Int) (unit : DateUnit) : Prop :=
  ∃ amount word, Spells amount n ∧ unit.Named word ∧ HasForm e direction amount word

/-- Whatever the form, a relative date means its shift from the reference
instant. -/
theorem Expresses.resolve?_eq {unit : DateUnit} (h : Expresses e direction n unit)
    (now : Timestamp) : resolve? e now = (unit.times (direction.apply n)).target? now := by
  obtain ⟨amount, word, hamount, hword, hform⟩ := h
  exact hform.resolve?_eq_target? hamount hword now

theorem Direction.apply_mul (direction : Direction) (k n : Int) :
    direction.apply (k * n) = k * direction.apply n := by
  cases direction with
  | past => exact (Int.mul_neg k n).symm
  | future => rfl

/-- A week is seven days in every form of a relative date. -/
theorem weeks_agree (hweeks : Expresses e direction n .week)
    (hdays : Expresses e' direction (7 * n) .day) (now : Timestamp) :
    resolve? e now = resolve? e' now := by
  rw [hweeks.resolve?_eq, hdays.resolve?_eq, direction.apply_mul, DateUnit.times, DateUnit.times]

/-- A year is twelve months in every form of a relative date. -/
theorem years_agree (hyears : Expresses e direction n .year)
    (hmonths : Expresses e' direction (12 * n) .month) (now : Timestamp) :
    resolve? e now = resolve? e' now := by
  rw [hyears.resolve?_eq, hmonths.resolve?_eq, direction.apply_mul, DateUnit.times, DateUnit.times]

/-! ## the next day -/

def Direction.keyword : Direction → String
  | past => "yesterday"
  | future => "tomorrow"

/-- The date behind which there is none. -/
def Direction.edge : Direction → Date
  | past => .first
  | future => .last

/-- The two keywords mean the beginning of the day after and of the day before.
-/
theorem resolve?_keyword (direction : Direction) (now : Timestamp) :
    resolve? direction.keyword now = now.startOfDay.addDays? (direction.apply 1) := by
  cases direction <;> rfl

/-- Adding days to a timestamp adds them to its date. -/
theorem map_date_addDays? (t : Timestamp) (days : Int) :
    (t.addDays? days).map Timestamp.date = t.date.addDays? days := by
  rw [Timestamp.addDays?, Option.map_map]
  exact Option.map_id'

/-- The next day, at any time of it, has the date after the reference's. -/
theorem map_date_nextDay (hday : Expresses e direction 1 .day) (now : Timestamp) :
    (resolve? e now).map Timestamp.date = now.date.addDays? (direction.apply 1) := by
  rw [hday.resolve?_eq]
  exact map_date_addDays? now (direction.apply 1)

/-- The two keywords fall on the day after and on the day before. -/
theorem map_date_keyword (direction : Direction) (now : Timestamp) :
    (resolve? direction.keyword now).map Timestamp.date =
      now.date.addDays? (direction.apply 1) := by
  rw [resolve?_keyword]
  exact map_date_addDays? now.startOfDay (direction.apply 1)

/-- Only the last date has no day after it, and only the first none before it.
-/
theorem addDays?_eq_none_iff_edge (direction : Direction) (d : Date) :
    d.addDays? (direction.apply 1) = none ↔ d = direction.edge := by
  cases direction with
  | past => exact Date.addDays?_neg_one_eq_none_iff
  | future => exact Date.addDays?_one_eq_none_iff

/-! ## agreement -/

/-- A keyword means nothing only at the edge of the calendar. -/
theorem keyword_eq_none_iff (direction : Direction) (now : Timestamp) :
    resolve? direction.keyword now = none ↔ now.date = direction.edge := by
  rw [← addDays?_eq_none_iff_edge, ← map_date_keyword, Option.map_eq_none_iff]

/-- One day on or back means nothing just where the keyword means nothing. -/
theorem nextDay_eq_none_iff (hday : Expresses e direction 1 .day) (now : Timestamp) :
    resolve? e now = none ↔ now.date = direction.edge := by
  rw [← addDays?_eq_none_iff_edge, ← map_date_nextDay hday, Option.map_eq_none_iff]

/-- Every integer and unit can be written in both forms. -/
theorem expresses_toString (direction : Direction) (n : Int) (unit : DateUnit) :
    Expresses (direction.phrase (toString n) unit.name) direction n unit ∧
      Expresses (direction.signedPhrase (toString n) unit.name) direction n unit := by
  have hamount := spells_toString n
  have hname : unit.Named unit.name.toList := ⟨0, (List.append_nil _).symm⟩
  constructor
  · have hphrase : Says (direction.phrase (toString n) unit.name) direction n unit :=
      says_phrase hamount hname
    obtain ⟨amount, word, hspells, hnamed, hwords⟩ := hphrase
    exact ⟨amount, word, hspells, hnamed, .inl hwords⟩
  · refine ⟨(toString n).toList, unit.name.toList, hamount, hname, .inr ?_⟩
    rw [lowerWords_signedPhrase hamount.isWord hname.isWord,
      Text.map_toLower_of_isPlain hamount.isPlain, Text.map_toLower_of_isPlain hname.isPlain]

/-- Texts that stand for the same date agree, also where there is none: signs
and words for a direction, weeks and days, years and months, and the words for
the next day. -/
theorem date_spellings_agree (now : Timestamp) (direction : Direction) :
    (∀ amount unit : String, Text.IsWord amount.toList → Text.IsWord unit.toList →
      resolve? (direction.signedPhrase amount unit) now =
        resolve? (direction.phrase amount unit) now) ∧
    (∀ n e e', Expresses e direction n .week → Expresses e' direction (7 * n) .day →
      resolve? e now = resolve? e' now) ∧
    (∀ n e e', Expresses e direction n .year → Expresses e' direction (12 * n) .month →
      resolve? e now = resolve? e' now) ∧
    (∀ n unit, Expresses (direction.phrase (toString n) unit.name) direction n unit ∧
      Expresses (direction.signedPhrase (toString n) unit.name) direction n unit) ∧
    (∀ e, Expresses e direction 1 .day →
      (resolve? direction.keyword now).map Timestamp.date =
          (resolve? e now).map Timestamp.date ∧
        (resolve? direction.keyword now = none ↔ now.date = direction.edge) ∧
        (resolve? e now = none ↔ now.date = direction.edge)) := by
  refine ⟨fun amount unit hamount hunit => signedPhrase_agrees hamount hunit now,
    fun n e e' hweeks hdays => weeks_agree hweeks hdays now,
    fun n e e' hyears hmonths => years_agree hyears hmonths now,
    expresses_toString direction, fun e hday => ⟨?_, keyword_eq_none_iff direction now,
      nextDay_eq_none_iff hday now⟩⟩
  rw [map_date_keyword, map_date_nextDay hday]

/-- On the last day there is no day after it, and far too many years are as far
away as twelve times as many months. -/
theorem date_spellings_agree_of_last_day :
    let now : Timestamp := ⟨.last, ⟨15, 30, 0, 0, by decide⟩, .utc⟩
    resolve? "+3 WEEKS" now = resolve? "in 3 WEEKS" now ∧
      resolve? "in -3 weeks" now = resolve? "+-21  days" now ∧
      resolve? "+1000000000000000000000000000000 years" now =
        resolve? "in 12000000000000000000000000000000 months" now ∧
      resolve? "tomorrow" now = none ∧ resolve? "in 1 day" now = none := by
  intro now
  obtain ⟨hsigns, hweeks, hyears, hforms, hnext⟩ := date_spellings_agree now .future
  have hspells : Expresses "in -3 weeks" .future (-3) .week :=
    ⟨"-3".toList, "weeks".toList, .minus (by decide), ⟨1, by decide⟩, .inl (by decide)⟩
  have hdays : Expresses "+-21  days" .future (-21) .day :=
    ⟨"-21".toList, "days".toList, .minus (by decide), ⟨1, by decide⟩, .inr (by decide)⟩
  have hyear : Expresses "+1000000000000000000000000000000 years" .future (10 ^ 30) .year :=
    ⟨"1000000000000000000000000000000".toList, "years".toList, .plain (by decide),
      ⟨1, by decide⟩, .inr (by decide)⟩
  have hmonth : Expresses "in 12000000000000000000000000000000 months" .future
      (12 * 10 ^ 30) .month :=
    ⟨"12000000000000000000000000000000".toList, "months".toList, .plain (by decide),
      ⟨1, by decide⟩, .inl (by decide)⟩
  obtain ⟨-, htomorrow, hday⟩ := hnext _ (hforms 1 .day).1
  exact ⟨hsigns "3" "WEEKS" (by decide) (by decide), hweeks _ _ _ hspells hdays,
    hyears _ _ _ hyear hmonth, htomorrow.mpr rfl, hday.mpr rfl⟩

end

end FormCompiler.DateExpression

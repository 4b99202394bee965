import FormCompiler.Proofs.RelativeDates

/-!
# FormCompiler.Proofs.DateDirections

On which side of the reference instant a relative date lies.  A shift leads
forward if its number is positive and back if it is negative
(`Shift.Leads.instant_le_iff`), through months of any length.  The number of a
relative date has a sign of its own behind the direction of the form, so the
date lies in that direction exactly if the number is not negative
(`direction_kept_iff`), and `-3 days ago` lies ahead (`negative_days_ago_ahead`).
-/

namespace FormCompiler

/-! ## shifts -/

namespace Shift

variable {start t : Timestamp} {shift : Shift}

def count : Shift → Int
  | days n => n
  | months n => n

/-- At the same time of the day the dates decide. -/
theorem instant_eq_add (htime : t.time = start.time) (hoffset : t.offset = start.offset) :
    t.instant =
      start.instant + (t.date.dayNumber - start.date.dayNumber) * 86400 * 1000000000 := by
  unfold Timestamp.instant
  rw [htime, hoffset]
  omega

/-- A positive shift leads forward. -/
theorem Leads.instant_lt (h : shift.Leads start t) (hcount : 0 < shift.count) :
    start.instant < t.instant := by
  cases shift with
  | days n =>
      simp only [count] at hcount
      have := h.1
      omega
  | months n =>
      simp only [count] at hcount
      obtain ⟨hmonth, -, htime, hoffset⟩ := h
      have hlater : start.date.monthIndex < t.date.monthIndex := by
        unfold Date.monthIndex
        omega
      have := Date.dayNumber_lt_of_monthIndex_lt hlater
      rw [instant_eq_add htime hoffset]
      omega

/-- A negative shift leads back. -/
theorem Leads.lt_instant (h : shift.Leads start t) (hcount : shift.count < 0) :
    t.instant < start.instant := by
  cases shift with
  | days n =>
      simp only [count] at hcount
      have := h.1
      omega
  | months n =>
      simp only [count] at hcount
      obtain ⟨hmonth, -, htime, hoffset⟩ := h
      have hearlier : t.date.monthIndex < start.date.monthIndex := by
        unfold Date.monthIndex
        omega
      have := Date.dayNumber_lt_of_monthIndex_lt hearlier
      rw [instant_eq_add htime hoffset]
      omega

/-- No days or months lead nowhere else: the day is one of the month already. -/
theorem Leads.instant_eq (h : shift.Leads start t) (hcount : shift.count = 0) :
    t.instant = start.instant := by
  cases shift with
  | days n =>
      simp only [count] at hcount
      have := h.1
      omega
  | months n =>
      simp only [count] at hcount
      obtain ⟨hmonth, hday, htime, hoffset⟩ := h
      obtain ⟨-, hrange, -, hlength⟩ := start.date.valid
      obtain ⟨-, hrange', -⟩ := t.date.valid
      have hyear : t.date.year = start.date.year := by omega
      have hsame : t.date.month = start.date.month := by omega
      rw [hyear, hsame, Nat.min_eq_left hlength] at hday
      rw [instant_eq_add htime hoffset, Date.dayNumber, Date.dayNumber, hyear, hsame, hday]
      omega

/-- A shift leads forward or back as the sign of its number tells, and not at
all if that is zero. -/
theorem Leads.instant_le_iff (h : shift.Leads start t) :
    (t.instant ≤ start.instant ↔ shift.count ≤ 0) ∧
      (start.instant ≤ t.instant ↔ 0 ≤ shift.count) := by
  obtain hneg | hzero | hpos := Int.lt_trichotomy shift.count 0
  · have := h.lt_instant hneg
    omega
  · have := h.instant_eq hzero
    omega
  · have := h.instant_lt hpos
    omega

end Shift

/-! ## relative dates -/

namespace DateExpression

theorem DateUnit.count_times_pos_iff (unit : DateUnit) (n : Int) :
    ((unit.times n).count ≤ 0 ↔ n ≤ 0) ∧ (0 ≤ (unit.times n).count ↔ 0 ≤ n) := by
  cases unit with
  | day | month => exact ⟨Iff.rfl, Iff.rfl⟩
  | week | year =>
      simp only [times, Shift.count]
      omega

/-- The instant does not lie on the other side of the reference instant. -/
def Direction.Keeps (now t : Timestamp) : Direction → Prop
  | past => t.instant ≤ now.instant
  | future => now.instant ≤ t.instant

section

variable {e : String} {direction : Direction} {amount unit : List Char} {t now : Timestamp}

/-- A relative date that has a meaning has a number and a unit, and leads that
many units away. -/
theorem exists_leads_of_relativeDate? (h : relativeDate? now amount unit direction = some t) :
    ∃ n named, Spells amount n ∧ unit? unit = some named ∧
      (named.times (direction.apply n)).Leads now t := by
  obtain ⟨n, hamount, h⟩ := Option.bind_eq_some_iff.mp h
  obtain ⟨m, hfits, h⟩ := Option.bind_eq_some_iff.mp h
  obtain ⟨named, hunit, h⟩ := Option.bind_eq_some_iff.mp h
  obtain rfl := eq_of_fitting? hfits
  rw [shift?_eq] at h
  exact ⟨n, named, spells_of_amount? hamount, hunit, Shift.target?_eq_some_iff.mp h⟩

/-- A relative date lies in the direction of its form exactly if its number is
not negative. -/
theorem direction_kept_iff (hform : HasForm e direction amount unit)
    (h : resolve? e now = some t) :
    ∃ n, Spells amount n ∧ (direction.Keeps now t ↔ 0 ≤ n) := by
  rw [hform.resolve?_eq] at h
  obtain ⟨n, named, hamount, -, hleads⟩ := exists_leads_of_relativeDate? h
  obtain ⟨hback, hforward⟩ := hleads.instant_le_iff
  obtain ⟨hneg, hpos⟩ := named.count_times_pos_iff (direction.apply n)
  refine ⟨n, hamount, ?_⟩
  cases direction with
  | past =>
      rw [Direction.Keeps, hback, hneg, Direction.apply]
      omega
  | future => rw [Direction.Keeps, hforward, hpos, Direction.apply]

/-- A month before the last of March, and three days back by a sign. -/
theorem direction_kept_iff_of_month_end :
    let now : Timestamp := ⟨⟨2024, 3, 31, by decide⟩, ⟨15, 30, 0, 0, by decide⟩, .utc⟩
    let february : Timestamp := ⟨⟨2024, 2, 29, by decide⟩, ⟨15, 30, 0, 0, by decide⟩, .utc⟩
    HasForm "-1  Month" .past "1".toList "month".toList ∧
      resolve? "-1  Month" now = some february ∧
      ∃ n, Spells "1".toList n ∧ (Direction.past.Keeps now february ↔ 0 ≤ n) := by
  intro now february
  have hform : HasForm "-1  Month" .past "1".toList "month".toList := .inr (by decide)
  have hresolve : resolve? "-1  Month" now = some february := by decide
  exact ⟨hform, hresolve, direction_kept_iff hform hresolve⟩

/-- Two signs cancel out: three days before the third to last is ahead. -/
theorem negative_days_ago_ahead :
    let now : Timestamp := ⟨⟨2024, 3, 28, by decide⟩, .midnight, .utc⟩
    let ahead : Timestamp := ⟨⟨2024, 3, 31, by decide⟩, .midnight, .utc⟩
    HasForm "-3 days ago" .past "-3".toList "days".toList ∧
      resolve? "-3 days ago" now = some ahead ∧ ¬ Direction.past.Keeps now ahead := by
  intro now ahead
  refine ⟨.inl (by decide), by decide, ?_⟩
  unfold Direction.Keeps
  decide

end

end DateExpression

end FormCompiler

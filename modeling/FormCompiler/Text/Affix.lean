/-!
# FormCompiler.Text.Affix

Removing a known beginning or ending from a text.  `afterFront?` and
`beforeBack?` answer exactly when the text begins, or ends, with the given
characters.
-/

namespace FormCompiler.Text

/-- The text behind `front`, if it begins with it. -/
def afterFront? : List Char → List Char → Option (List Char)
  | [], cs => some cs
  | _ :: _, [] => none
  | f :: front, c :: cs => if f = c then afterFront? front cs else none

/-- What is left behind the front is the rest. -/
theorem afterFront?_eq_some {front cs rest : List Char} :
    afterFront? front cs = some rest ↔ cs = front ++ rest := by
  induction front generalizing cs with
  | nil => simp [afterFront?]
  | cons f front ih =>
    cases cs with
    | nil => simp [afterFront?]
    | cons c cs => by_cases h : f = c <;> simp_all [afterFront?, eq_comm]

/-- The text before `back`, if it ends with it. -/
def beforeBack? (back cs : List Char) : Option (List Char) :=
  (afterFront? back.reverse cs.reverse).map List.reverse

theorem beforeBack?_eq_some {back cs rest : List Char} :
    beforeBack? back cs = some rest ↔ cs = rest ++ back := by
  constructor
  · intro h
    obtain ⟨r, hr, rfl⟩ := Option.map_eq_some_iff.mp h
    have := congrArg List.reverse (afterFront?_eq_some.mp hr)
    simpa using this
  · rintro rfl
    refine Option.map_eq_some_iff.mpr ⟨rest.reverse, afterFront?_eq_some.mpr ?_, by simp⟩
    simp

end FormCompiler.Text

/-!
# FormCompiler.Text.Blank

Blanks and word boundaries.  A blank is a character of the Unicode property
White_Space; words are the longest runs without one.  Splitting is stated
over `List Char`: `splitWhere` cuts at every character of a class and keeps
the empty pieces, so the pieces joined by the separator give the text back.
-/

namespace FormCompiler.Text

/-! ## blanks -/

/-- The characters with the Unicode property White_Space. -/
def isBlank (c : Char) : Bool :=
  ('\t' ≤ c && c ≤ '\r') || c = ' ' || c = '\u0085' || c = '\u00a0' || c = '\u1680' ||
    ('\u2000' ≤ c && c ≤ '\u200a') || c = '\u2028' || c = '\u2029' || c = '\u202f' ||
    c = '\u205f' || c = '\u3000'

/-- The text without the blanks at its two ends. -/
def trim (cs : List Char) : List Char :=
  ((cs.dropWhile isBlank).reverse.dropWhile isBlank).reverse

/-! ## splitting -/

/-- Cuts at every character that satisfies `p`; adjacent cuts leave empty
pieces. -/
def splitWhere (p : Char → Bool) : List Char → List (List Char)
  | [] => [[]]
  | c :: cs =>
    if p c then [] :: splitWhere p cs
    else match splitWhere p cs with
      | [] => [[c]]
      | piece :: pieces => (c :: piece) :: pieces

theorem splitWhere_ne_nil (p : Char → Bool) (cs : List Char) : splitWhere p cs ≠ [] := by
  cases cs with
  | nil => simp [splitWhere]
  | cons c cs =>
    simp only [splitWhere]
    split
    · simp
    · split <;> simp

/-- Cutting at one character loses nothing but that character. -/
theorem intercalate_splitWhere (sep : Char) (cs : List Char) :
    List.intercalate [sep] (splitWhere (· = sep) cs) = cs := by
  induction cs with
  | nil => rfl
  | cons c cs ih =>
    have hne := splitWhere_ne_nil (· = sep) cs
    cases hs : splitWhere (· = sep) cs with
    | nil => exact absurd hs hne
    | cons piece pieces =>
      rw [hs] at ih
      by_cases h : c = sep <;>
        cases pieces <;> simp_all [splitWhere, List.intercalate, List.intersperse]

/-- The runs of characters between blanks. -/
def words (cs : List Char) : List (List Char) :=
  (splitWhere isBlank cs).filter fun piece => !piece.isEmpty

end FormCompiler.Text

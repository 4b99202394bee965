import FormCompiler.Path
import FormCompiler.Proofs.Words

/-!
# FormCompiler.Proofs.DottedPaths

Paths beside their dotted texts.  Cutting a text at its dots takes apart
what joining names without dots has put together
(`Path.cutAtDots_joinDots`), and joining puts together what cutting has
taken apart (`Path.joinDots_cutAtDots`).

* Every text is that of the path read from it, while of the paths only those
  are read back whose names hold no dots, except the one of a single empty
  name (`Path.dotted_texts_reread`).
* A path that is read from a text lies above another path exactly when the
  text joins the first names of that path and none of them holds a dot
  (`Path.isWithin_parse_iff`).  Their texts then contain each other in the
  same way, and for a path whose names hold no dots nothing else does
  (`Path.dottedWithin_iff`).
* So paths that are read from texts contain each other as the texts do
  (`Path.containment_of_texts`).
-/

namespace FormCompiler

/-! ## cutting and joining -/

namespace Text

variable {sep : Char}

/-- A piece does not hold the character at which the text was cut. -/
theorem notMem_of_mem_splitWhere {cs piece : List Char}
    (h : piece ∈ splitWhere (· = sep) cs) : sep ∉ piece := by
  induction cs generalizing piece with
  | nil =>
      obtain rfl : piece = [] := by simpa [splitWhere] using h
      simp
  | cons c cs ih =>
      by_cases hc : c = sep
      · rw [splitWhere, if_pos (by simpa using hc), List.mem_cons] at h
        rcases h with rfl | h
        · simp
        · exact ih h
      · rw [splitWhere, if_neg (by simpa using hc)] at h
        split at h
        · next hcs => exact absurd hcs (splitWhere_ne_nil _ cs)
        · next first pieces hcs =>
            rcases List.mem_cons.mp h with rfl | h
            · have := ih (hcs ▸ List.mem_cons_self)
              simp [this, Ne.symm hc]
            · exact ih (hcs ▸ List.mem_cons_of_mem first h)

/-- Pieces without the separator are what their joined text is cut into. -/
theorem splitWhere_intercalate {pieces : List (List Char)} (hne : pieces ≠ [])
    (h : ∀ piece ∈ pieces, sep ∉ piece) :
    splitWhere (· = sep) (List.intercalate [sep] pieces) = pieces := by
  induction pieces with
  | nil => exact absurd rfl hne
  | cons piece pieces ih =>
      cases pieces with
      | nil =>
          rw [List.intercalate_singleton]
          exact splitWhere_of_notMem (h piece List.mem_cons_self)
      | cons second pieces =>
          have hrest := ih (by simp) fun p hp => h p (List.mem_cons_of_mem _ hp)
          rw [List.intercalate_cons_cons, List.append_assoc, List.singleton_append,
            splitWhere_append_separator, hrest, splitWhere_of_notMem (h piece List.mem_cons_self)]
          rfl

end Text

namespace Path

/-! ## texts and names -/

def cutAtDots (text : String) : List String :=
  (Text.splitWhere (· = '.') text.toList).map String.ofList

/-- The names of a path that is read are what its text is cut into. -/
theorem segments_parse {dotted : String} (h : dotted ≠ "") :
    (parse dotted).segments = cutAtDots dotted := by
  rw [parse, if_neg h, cutAtDots]

/-- The names of a path that is read hold no dot. -/
theorem dotless_of_mem_cutAtDots {text name : String} (h : name ∈ cutAtDots text) :
    '.' ∉ name.toList := by
  obtain ⟨piece, hpiece, rfl⟩ := List.mem_map.mp h
  rw [String.toList_ofList]
  exact Text.notMem_of_mem_splitWhere hpiece

theorem joinDots_cutAtDots (text : String) : joinDots (cutAtDots text) = text := by
  by_cases h : text = ""
  · subst h
    rfl
  · rw [← segments_parse h]
    exact render_parse text

/-- Names without dots are what their joined text is cut into. -/
theorem cutAtDots_joinDots {names : List String} (hne : names ≠ [])
    (h : ∀ name ∈ names, '.' ∉ name.toList) : cutAtDots (joinDots names) = names := by
  have hpieces : ∀ piece ∈ names.map String.toList, '.' ∉ piece := fun piece hpiece => by
    obtain ⟨name, hname, rfl⟩ := List.mem_map.mp hpiece
    exact h name hname
  rw [cutAtDots, toList_joinDots, Text.splitWhere_intercalate (by simpa using hne) hpieces]
  simp

/-- A text is cut at a dot in it, and on both sides of it. -/
theorem cutAtDots_append (first second : String) :
    cutAtDots (first ++ "." ++ second) = cutAtDots first ++ cutAtDots second := by
  have htext : (first ++ "." ++ second).toList = first.toList ++ '.' :: second.toList := by simp
  rw [cutAtDots, htext, Text.splitWhere_append_separator, List.map_append, cutAtDots, cutAtDots]

theorem cutAtDots_of_dotless {text : String} (h : '.' ∉ text.toList) : cutAtDots text = [text] := by
  rw [cutAtDots, Text.splitWhere_of_notMem h]
  simp

/-- No name of a path that is read from a text holds a dot. -/
theorem dotless_segments_parse (dotted : String) :
    ∀ name ∈ (parse dotted).segments, '.' ∉ name.toList := by
  intro name hname
  by_cases h : dotted = ""
  · subst h
    simp [parse] at hname
  · exact dotless_of_mem_cutAtDots (segments_parse h ▸ hname)

/-! ## reading back -/

/-- What stands in front of the first dot of a text, and what stands behind
it: nothing where there is no dot.  The empty text has no front. -/
def cutAtFirstDot? (text : String) : Option (String × String) :=
  if text = "" then none
  else some (.ofList (text.toList.takeWhile (· ≠ '.')),
    .ofList (text.toList.dropWhile (· ≠ '.')).tail)

/-- Without a dot, the text is the first name and nothing is left. -/
theorem cutAtFirstDot?_of_dotless {text : String} (hne : text ≠ "") (h : '.' ∉ text.toList) :
    cutAtFirstDot? text = some (text, "") := by
  have hfront : ∀ c ∈ text.toList, decide (c ≠ '.') = true :=
    fun c hc => decide_eq_true fun heq => h (heq ▸ hc)
  rw [cutAtFirstDot?, if_neg hne, List.takeWhile_eq_self_iff.mpr hfront,
    List.dropWhile_eq_nil_iff.mpr hfront, String.ofList_toList]
  rfl

/-- The text is cut at its first dot, whatever stands behind it. -/
theorem cutAtFirstDot?_append {front : String} (h : '.' ∉ front.toList) (rest : String) :
    cutAtFirstDot? (front ++ "." ++ rest) = some (front, rest) := by
  have hfront : ∀ c ∈ front.toList, decide (c ≠ '.') = true :=
    fun c hc => decide_eq_true fun heq => h (heq ▸ hc)
  have htext : (front ++ "." ++ rest).toList = front.toList ++ '.' :: rest.toList := by simp
  have hne : front ++ "." ++ rest ≠ "" := fun heq => by
    have := congrArg String.toList heq
    simp at this
  rw [cutAtFirstDot?, if_neg hne, htext, List.takeWhile_append_of_pos hfront,
    List.dropWhile_append_of_pos hfront, List.takeWhile_cons_of_neg (by simp),
    List.dropWhile_cons_of_neg (by simp), List.append_nil, List.tail_cons, String.ofList_toList,
    String.ofList_toList]

/-- A text with a dot has a first one. -/
theorem exists_cut_of_dot {text : String} (h : '.' ∈ text.toList) :
    ∃ front rest : String, '.' ∉ front.toList ∧ text = front ++ "." ++ rest := by
  obtain ⟨front, rest, htext, hfront⟩ := List.eq_append_cons_of_mem h
  refine ⟨.ofList front, .ofList rest, by rwa [String.toList_ofList], ?_⟩
  rw [← String.toList_inj, htext]
  simp

/-- Taking the first name off a path cuts its text at the first dot. -/
theorem splitHead?_parse (dotted : String) : (parse dotted).splitHead? = cutAtFirstDot? dotted := by
  by_cases hne : dotted = ""
  · subst hne
    rfl
  by_cases hdot : '.' ∈ dotted.toList
  · obtain ⟨front, rest, hfront, rfl⟩ := exists_cut_of_dot hdot
    rw [splitHead?, segments_parse hne, cutAtDots_append, cutAtDots_of_dotless hfront,
      cutAtFirstDot?_append hfront, List.singleton_append]
    simp only [joinDots_cutAtDots]
  · rw [splitHead?, segments_parse hne, cutAtDots_of_dotless hdot,
      cutAtFirstDot?_of_dotless hne hdot]
    rfl

/-- A path is read back from its text if none of its names holds a dot and
it is not the path of one empty name. -/
theorem parse_render_iff {p : Path} :
    parse p.render = p ↔ (∀ name ∈ p.segments, '.' ∉ name.toList) ∧ p ≠ ⟨[""]⟩ := by
  constructor
  · intro h
    refine ⟨h ▸ dotless_segments_parse p.render, ?_⟩
    rintro rfl
    exact absurd h (by decide)
  · rintro ⟨hdotless, hempty⟩
    obtain ⟨names⟩ := p
    cases names with
    | nil => rfl
    | cons first names =>
        have hcut : cutAtDots (joinDots (first :: names)) = first :: names :=
          cutAtDots_joinDots (by simp) hdotless
        have hne : joinDots (first :: names) ≠ "" := fun htext => by
          rw [htext] at hcut
          exact hempty (congrArg Path.mk hcut.symm)
        have hsegments := segments_parse hne
        rw [hcut] at hsegments
        exact congrArg Path.mk hsegments

/-- Every text is the text of the path that is read from it, and the first
name of that path stands in front of the first dot of the text.  Of the
paths, those are read back from their texts whose names hold no dots, except
the path of one empty name, which has the text of the root. -/
theorem dotted_texts_reread :
    (∀ dotted : String,
      (parse dotted).render = dotted ∧ (parse dotted).splitHead? = cutAtFirstDot? dotted) ∧
    ∀ p : Path,
      parse p.render = p ↔ (∀ name ∈ p.segments, '.' ∉ name.toList) ∧ p ≠ ⟨[""]⟩ :=
  ⟨fun dotted => ⟨render_parse dotted, splitHead?_parse dotted⟩, fun _ => parse_render_iff⟩

/-- Dots at the ends and beside each other stand between empty names. -/
example : (parse ".a..").segments = ["", "a", "", ""] ∧
    (parse ".a..").splitHead? = some ("", "a..") := by decide

/-! ## containment -/

/-- A dotted text equals another one that is not empty, or goes on behind it
with a dot. -/
def DottedWithin (text ancestor : String) : Prop :=
  ancestor ≠ "" ∧ (text = ancestor ∨ ∃ rest, text = ancestor ++ "." ++ rest)

/-- The text joins the first names of the path, and none of them holds a
dot. -/
def StartsWith (p : Path) (text : String) : Prop :=
  ∃ upper lower, p.segments = upper ++ lower ∧ (∀ name ∈ upper, '.' ∉ name.toList) ∧
    joinDots upper = text

/-- A path lies within the path of a text if the text joins its first names
and the names hold no dots. -/
theorem isWithin_parse_iff (p : Path) (text : String) :
    p.isWithin (parse text) = true ↔ text ≠ "" ∧ p.StartsWith text := by
  by_cases htext : text = ""
  · subst htext
    simp [isWithin, parse, isRoot]
  rw [isWithin_iff, segments_parse htext]
  constructor
  · rintro ⟨-, lower, hlower⟩
    exact ⟨htext, cutAtDots text, lower, hlower.symm, fun _ => dotless_of_mem_cutAtDots,
      joinDots_cutAtDots text⟩
  · rintro ⟨-, upper, lower, hsegments, hdotless, rfl⟩
    have hupper : upper ≠ [] := by
      rintro rfl
      exact htext rfl
    rw [cutAtDots_joinDots hupper hdotless]
    exact ⟨hupper, lower, hsegments.symm⟩

/-- A path whose first names a text joins has a text that contains it. -/
theorem StartsWith.dottedWithin {p : Path} {text : String} (h : p.StartsWith text)
    (htext : text ≠ "") : DottedWithin p.render text := by
  obtain ⟨upper, lower, hsegments, -, rfl⟩ := h
  refine ⟨htext, ?_⟩
  rw [render, hsegments]
  cases lower with
  | nil => exact .inl (by rw [List.append_nil])
  | cons name lower =>
      refine .inr ⟨joinDots (name :: lower), joinDots_append ?_ (by simp)⟩
      rintro rfl
      exact htext rfl

/-- Where no name holds a dot, the text of a path lies within another text
just if that text joins its first names. -/
theorem dottedWithin_iff {p : Path} (h : ∀ name ∈ p.segments, '.' ∉ name.toList)
    {text : String} : DottedWithin p.render text ↔ text ≠ "" ∧ p.StartsWith text := by
  refine ⟨fun hwithin => ⟨hwithin.1, ?_⟩, fun hstarts => hstarts.2.dottedWithin hstarts.1⟩
  obtain ⟨htext, heq | ⟨rest, heq⟩⟩ := hwithin
  · exact ⟨p.segments, [], (List.append_nil _).symm, h, heq⟩
  · have hne : p.segments ≠ [] := by
      intro hnil
      rw [render, hnil] at heq
      have := congrArg String.toList heq
      simp [joinDots] at this
    -- Cutting the text of the path gives its names, and cutting it at the dot
    -- first tells which of them the other text joins.
    have hnames : p.segments = cutAtDots text ++ cutAtDots rest := by
      rw [← cutAtDots_append, ← heq, render, cutAtDots_joinDots hne h]
    exact ⟨_, _, hnames, fun _ => dotless_of_mem_cutAtDots, joinDots_cutAtDots text⟩

/-- Each of two paths lies within the other if they are one path below the
root. -/
theorem isWithin_both_iff {p q : Path} :
    p.isWithin q = true ∧ q.isWithin p = true ↔ p = q ∧ p ≠ root := by
  simp only [isWithin_iff]
  constructor
  · rintro ⟨⟨-, hqp⟩, hne, hpq⟩
    have hsegments : p.segments = q.segments := hpq.eq_of_length_le hqp.length_le
    exact ⟨congrArg Path.mk hsegments, fun hroot => hne (congrArg segments hroot)⟩
  · rintro ⟨rfl, hne⟩
    have hsegments : p.segments ≠ [] := fun hnil => hne (congrArg Path.mk hnil)
    exact ⟨⟨hsegments, List.prefix_rfl⟩, hsegments, List.prefix_rfl⟩

/-- What contains a path contains all that it contains. -/
theorem isWithin_trans {p q r : Path} (hpq : p.isWithin q = true) (hqr : q.isWithin r = true) :
    p.isWithin r = true := by
  rw [isWithin_iff] at hpq hqr ⊢
  exact ⟨hqr.1, hqr.2.trans hpq.2⟩

/-- Paths that are read from texts lie within each other just as the texts
do.  So containment orders the paths below the root. -/
theorem containment_of_texts :
    (∀ text ancestor : String,
      (parse text).isWithin (parse ancestor) = true ↔
        ancestor ≠ "" ∧ (text = ancestor ∨ ∃ rest, text = ancestor ++ "." ++ rest)) ∧
    (∀ p : Path, p.isWithin p = true ↔ p ≠ root) ∧
    (∀ p q : Path, p.isWithin q = true → q.isWithin p = true → p = q) ∧
    ∀ p q r : Path, p.isWithin q = true → q.isWithin r = true → p.isWithin r = true := by
  refine ⟨fun text ancestor => ?_, fun p => ?_,
    fun p q hpq hqp => (isWithin_both_iff.mp ⟨hpq, hqp⟩).1, fun p q r => isWithin_trans⟩
  · have hstarts : DottedWithin (parse text).render ancestor ↔
        ancestor ≠ "" ∧ (parse text).StartsWith ancestor :=
      dottedWithin_iff (dotless_segments_parse text)
    rw [isWithin_parse_iff, ← hstarts, render_parse, DottedWithin]
  · simpa using isWithin_both_iff (p := p) (q := p)

/-- A city lies within a visit by way of its place, and a name read from a
text is the path of that name. -/
theorem containment_of_texts_of_visit :
    (parse "visit.place.city").isWithin (parse "visit") = true ∧
      parse "visit" = root.child "visit" := by
  obtain ⟨htexts, -, hantisymm, htrans⟩ := containment_of_texts
  have hcity : (parse "visit.place.city").isWithin (parse "visit.place") = true :=
    (htexts _ _).mpr ⟨by decide, .inr ⟨"city", by decide⟩⟩
  have hplace : (parse "visit.place").isWithin (parse "visit") = true :=
    (htexts _ _).mpr ⟨by decide, .inr ⟨"place", by decide⟩⟩
  exact ⟨htrans _ _ _ hcity hplace, hantisymm _ _ (by decide) (by decide)⟩

end Path

end FormCompiler

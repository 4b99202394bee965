import FormCompiler.Proofs.MetEntries

/-!
# FormCompiler.Proofs.VisitedAttributes

The attributes that a compilation makes fields of, each with its path, read
off the presentation and the bundles without a journal.  Their texts are
exactly those that the journal holds (`Walker.Fills.mem_journal_iff`).
A list is not among them: its page writes a title instead.
-/

namespace FormCompiler

namespace Walker

/-! ## visits -/

/-- While the field of an attribute below a path is made, an attribute is
visited at a path: the same one, or one that a question in it asks for. -/
inductive VisitsField (w : Walker) : Bundle → Path → Attribute → Path → Attribute → Prop
  | self {bundle above attr} : VisitsField w bundle above attr (above.child attr.name) attr
  | answer {bundle above attr hints digest dep inner path visited}
      (asked : w.question? (above.child attr.name) = some hints)
      (refers : attr.type.reference? = some digest)
      (depends : w.dependency? bundle attr.name = some dep)
      (found : dep.attribute? hints.answerName = some inner)
      (inside : VisitsField w dep (above.child attr.name) inner path visited) :
      VisitsField w bundle above attr path visited
  | followUp {bundle above attr hints digest dep followUp inner path visited}
      (asked : w.question? (above.child attr.name) = some hints)
      (refers : attr.type.reference? = some digest)
      (depends : w.dependency? bundle attr.name = some dep)
      (opened : followUp ∈ hints.followUps)
      (found : dep.attribute? followUp.name = some inner)
      (inside : VisitsField w dep (above.child attr.name) inner path visited) :
      VisitsField w bundle above attr path visited

/-- The entries of a page below a path lead to a visit of an attribute at a
path. -/
inductive Visits (w : Walker) : List PageEntry → Bundle → Path → Path → Attribute → Prop
  | field {name entries bundle above attr path visited}
      (found : bundle.attribute? name = some attr)
      (inside : w.VisitsField bundle above attr path visited) :
      Visits w (.field name :: entries) bundle above path visited
  | synthetic {spec name entries bundle above path visited}
      (addressed : spec.address = .ok (.synthetic name))
      (inside : Visits w spec.entries bundle (above.child name) path visited) :
      Visits w (.page spec :: entries) bundle above path visited
  | embedded {spec address entries bundle above dep path visited}
      (addressed : spec.address = .ok address) (embeds : ∀ name, address ≠ .synthetic name)
      (depends : w.dependency? bundle address.name = some dep)
      (inside : Visits w spec.entries dep (above.child address.name) path visited) :
      Visits w (.page spec :: entries) bundle above path visited
  | later {entry entries bundle above path visited}
      (inside : Visits w entries bundle above path visited) :
      Visits w (entry :: entries) bundle above path visited

/-- An entry leads to a visit by itself, apart from what stands in its
section. -/
def VisitsEntry (w : Walker) (path : Path) (visited : Attribute) :
    PageEntry → Bundle → Path → Prop
  | .field name, owner, place =>
    ∃ attr, owner.attribute? name = some attr ∧ w.VisitsField owner place attr path visited
  | .page _, _, _ => False

/-- The attributes visited are those of the names met. -/
theorem visits_iff_meetsSome {w : Walker} {entries : List PageEntry} {bundle : Bundle}
    {above path : Path} {visited : Attribute} :
    w.Visits entries bundle above path visited ↔
      w.MeetsSome (w.VisitsEntry path visited) entries bundle above := by
  constructor
  · intro h
    induction h with
    | field found inside => exact meetsSome_field_iff.mpr (.inl ⟨_, found, inside⟩)
    | synthetic addressed _ ih =>
        obtain ⟨entry, owner, place, hmeets, hentry⟩ := ih
        exact ⟨entry, owner, place, .synthetic addressed hmeets, hentry⟩
    | embedded addressed embeds depends _ ih =>
        obtain ⟨entry, owner, place, hmeets, hentry⟩ := ih
        exact ⟨entry, owner, place, .embedded addressed embeds depends hmeets, hentry⟩
    | later _ ih =>
        obtain ⟨entry, owner, place, hmeets, hentry⟩ := ih
        exact ⟨entry, owner, place, .later hmeets, hentry⟩
  · rintro ⟨entry, owner, place, hmeets, hentry⟩
    induction hmeets with
    | @here entry =>
        cases entry with
        | field name =>
            obtain ⟨attr, found, inside⟩ := hentry
            exact .field found inside
        | page spec => exact hentry.elim
    | synthetic addressed _ ih => exact .synthetic addressed (ih hentry)
    | embedded addressed embeds depends _ ih => exact .embedded addressed embeds depends (ih hentry)
    | later _ ih => exact .later (ih hentry)

section Inversion

variable {w : Walker} {bundle : Bundle} {above path : Path} {visited : Attribute}
  {entries : List PageEntry} {spec : PageSpec}

theorem not_visits_nil : ¬ w.Visits [] bundle above path visited := fun h => nomatch h

/-- A name visits what the field of its attribute visits. -/
theorem visits_field_iff {name : String} {attr : Attribute}
    (found : bundle.attribute? name = some attr) :
    w.Visits (.field name :: entries) bundle above path visited ↔
      w.VisitsField bundle above attr path visited ∨
        w.Visits entries bundle above path visited := by
  rw [visits_iff_meetsSome, visits_iff_meetsSome, meetsSome_field_iff]
  simp [VisitsEntry, found]

/-- A synthetic page visits what its entries visit over the same bundle. -/
theorem visits_synthetic_iff {name : String} (addressed : spec.address = .ok (.synthetic name)) :
    w.Visits (.page spec :: entries) bundle above path visited ↔
      w.Visits spec.entries bundle (above.child name) path visited ∨
        w.Visits entries bundle above path visited := by
  simp only [visits_iff_meetsSome, meetsSome_synthetic_iff addressed, VisitsEntry, false_or]

/-- An embedded page visits what its entries visit over the bundle it leads to.
-/
theorem visits_embedded_iff {address : PageAddress} {dep : Bundle}
    (addressed : spec.address = .ok address) (embeds : ∀ name, address ≠ .synthetic name)
    (depends : w.dependency? bundle address.name = some dep) :
    w.Visits (.page spec :: entries) bundle above path visited ↔
      w.Visits spec.entries dep (above.child address.name) path visited ∨
        w.Visits entries bundle above path visited := by
  simp only [visits_iff_meetsSome, meetsSome_embedded_iff addressed embeds depends, VisitsEntry,
    false_or]

end Inversion

/-! ## visits and the journal -/

section Journal

variable {w : Walker} {bundle : Bundle} {above path : Path} {declared attr : Attribute}

theorem attributeTexts_notMem {journal : Journal}
    (h : ∀ entry ∈ journal, entry.isRemark = true) : .attributeTexts path attr ∉ journal :=
  JournalEntry.notMem_of_isRemark rfl h

theorem attributeTexts_notMem_of_listIdentifier {identifier : Option FieldEntry}
    {recorded : Journal} (h : w.listIdentifier above = ⟨.ok identifier, recorded⟩) :
    .attributeTexts path attr ∉ recorded := by
  obtain ⟨-, rfl⟩ | ⟨hints, id, format, -, -, rfl⟩ := listIdentifier_eq_ok h <;> simp

/-- Making a field writes down texts of attributes and notices. -/
theorem Builds.mem_journal_cases {entry : FieldEntry} {journal : Journal} {line : JournalEntry}
    (h : w.Builds bundle above declared entry journal) (hline : line ∈ journal) :
    (∃ path attr, line = .attributeTexts path attr) ∨ ∃ notice, line = .notice notice := by
  have hnotices : ∀ above declared, line ∈ w.boundNotices above declared →
      ∃ notice, line = .notice notice := by
    intro above declared hmem
    obtain ⟨notice, -, hnotice⟩ := List.mem_map.mp hmem
    exact ⟨notice, hnotice.symm⟩
  induction h with
  | plain =>
      rcases List.mem_append.mp hline with hnotice | htexts
      · exact .inr (hnotices _ _ hnotice)
      · exact .inl ⟨_, _, List.mem_singleton.mp htexts⟩
  | question _ _ _ _ _ _ _ _ _ ihAnswer ihFollowed =>
      simp only [List.mem_append, List.mem_singleton, List.mem_flatMap] at hline
      obtain (hnotice | hanswer | ⟨run, hrun, hmem⟩) | htexts := hline
      · exact .inr (hnotices _ _ hnotice)
      · exact ihAnswer hanswer
      · exact ihFollowed run hrun hmem
      · exact .inl ⟨_, _, htexts⟩

/-- The texts that making a field writes down are those of the attributes
visited, prefilled as the hints at their paths ask. -/
theorem Builds.mem_journal_iff {entry : FieldEntry} {journal : Journal}
    (h : w.Builds bundle above declared entry journal) :
    .attributeTexts path attr ∈ journal ↔ ∃ visited,
      w.VisitsField bundle above declared path visited ∧
      attr = visited.prefilled (.ofHints? (w.hints? path)) := by
  induction h with
  | plain unasked described =>
      rw [List.mem_append,
        or_iff_right (attributeTexts_notMem fun _ => isRemark_of_mem_boundNotices),
        List.mem_singleton, JournalEntry.attributeTexts.injEq]
      constructor
      · rintro ⟨rfl, rfl⟩
        exact ⟨_, .self, rfl⟩
      · rintro ⟨visited, hvisits, rfl⟩
        cases hvisits with
        | self => exact ⟨rfl, rfl⟩
        | answer asked refers | followUp asked refers =>
            rcases unasked with hnone | hnone
            · rw [hnone] at asked
              contradiction
            · rw [hnone] at refers
              contradiction
  | question asked refers described depends answerAttr answered followUps followUpAttrs followed
      ihAnswer ihFollowed =>
      -- The journal has three parts: the answer, the further fields, and last the
      -- question itself.
      simp only [List.mem_append, List.mem_singleton, List.mem_flatMap,
        JournalEntry.attributeTexts.injEq,
        or_iff_right (attributeTexts_notMem fun _ => isRemark_of_mem_boundNotices)]
      constructor
      · rintro ((hanswer | ⟨run, hrun, hmem⟩) | ⟨rfl, rfl⟩)
        · obtain ⟨visited, hvisits, rfl⟩ := ihAnswer.mp hanswer
          exact ⟨visited, .answer asked refers depends answerAttr hvisits, rfl⟩
        · obtain ⟨visited, hvisits, rfl⟩ := (ihFollowed run hrun).mp hmem
          have hopened := followUps ▸ List.mem_map_of_mem hrun
          exact ⟨visited, .followUp asked refers depends hopened (followUpAttrs run hrun) hvisits,
            rfl⟩
        · exact ⟨_, .self, rfl⟩
      · rintro ⟨visited, hvisits, rfl⟩
        cases hvisits with
        | self => exact .inr ⟨rfl, rfl⟩
        | answer asked' refers' depends' found' inside =>
            obtain rfl := Option.some.inj (asked.symm.trans asked')
            obtain rfl := Option.some.inj (depends.symm.trans depends')
            obtain rfl := Option.some.inj (answerAttr.symm.trans found')
            exact .inl (.inl (ihAnswer.mpr ⟨visited, inside, rfl⟩))
        | followUp asked' refers' depends' opened' found' inside =>
            obtain rfl := Option.some.inj (asked.symm.trans asked')
            obtain rfl := Option.some.inj (depends.symm.trans depends')
            rw [← followUps, List.mem_map] at opened'
            obtain ⟨run, hrun, rfl⟩ := opened'
            obtain rfl := Option.some.inj ((followUpAttrs run hrun).symm.trans found')
            exact .inl (.inr ⟨run, hrun, (ihFollowed run hrun).mpr ⟨visited, inside, rfl⟩⟩)

/-- The texts that filling in a page writes down are those of the attributes
visited. -/
theorem Fills.mem_journal_iff {entries : List PageEntry} {nodes : List Node} {journal : Journal}
    (h : w.Fills entries bundle above nodes journal) :
    .attributeTexts path attr ∈ journal ↔ ∃ visited, w.Visits entries bundle above path visited ∧
      attr = visited.prefilled (.ofHints? (w.hints? path)) := by
  induction h with
  | nil => simp [not_visits_nil]
  | field found built others ih =>
      rw [List.mem_append, built.mem_journal_iff, ih]
      simp only [visits_field_iff found, or_and_right, exists_or]
  | synthetic addressed inside others ihInside ihOthers =>
      rw [List.mem_append, List.mem_append,
        or_iff_right (attributeTexts_notMem fun _ => isRemark_of_mem_syntheticTitles),
        ihInside, ihOthers]
      simp only [visits_synthetic_iff addressed, or_and_right, exists_or]
  | embedded addressed embeds found refers scalar depends inside others ihInside ihOthers =>
      rw [List.mem_append, List.mem_append,
        or_iff_right (attributeTexts_notMem fun _ => isRemark_of_mem_referenceTitles),
        ihInside, ihOthers]
      simp only [visits_embedded_iff addressed embeds depends, or_and_right, exists_or]
  | list addressed embeds found refers array depends identified inside others ihInside ihOthers =>
      rw [List.mem_append, List.mem_append, List.mem_append,
        or_iff_right (attributeTexts_notMem fun _ => isRemark_of_mem_referenceTitles),
        or_iff_right (attributeTexts_notMem_of_listIdentifier identified), ihInside, ihOthers]
      simp only [visits_embedded_iff addressed embeds depends, or_and_right, exists_or]

/-- Over all pages, the journal holds the texts of the visited attributes and
of no others. -/
theorem FillsPages.mem_journal_iff {names : List String} {pages : List PageNode}
    {journal : Journal} (h : w.FillsPages bundle names pages journal) :
    .attributeTexts path attr ∈ journal ↔ ∃ visited,
      (∃ name ∈ names, ∃ spec, w.presentation.findPage? name = some spec ∧
        w.Visits spec.entries bundle .root path visited) ∧
      attr = visited.prefilled (.ofHints? (w.hints? path)) := by
  induction h with
  | nil => simp
  | missing missing others ih =>
      rw [List.mem_cons, or_iff_right (by simp), ih]
      simp [missing]
  | page found addressed inside others ih =>
      rw [List.mem_append, List.mem_append,
        or_iff_right (attributeTexts_notMem fun _ => isRemark_of_mem_pageTitles),
        inside.mem_journal_iff, ih]
      simp only [List.exists_mem_cons_iff, found, Option.some.injEq, exists_eq_left',
        or_and_right, exists_or]

end Journal

end Walker

namespace CompileRequest

/-- A compilation makes a field of the attribute at the path, on some page
of the page order. -/
def Visits (request : CompileRequest) (options : CompileOptions) (path : Path)
    (attr : Attribute) : Prop :=
  ∃ name ∈ request.presentation.pageOrder, ∃ spec,
    request.presentation.findPage? name = some spec ∧
    (request.resolvedWalker options).Visits spec.entries request.bundle .root path attr

/-- An attribute is visited by one of the entries that are met. -/
theorem visits_iff_meets {request : CompileRequest} {options : CompileOptions} {path : Path}
    {visited : Attribute} :
    request.Visits options path visited ↔ ∃ entry owner place,
      request.Meets options entry owner place ∧
      (request.resolvedWalker options).VisitsEntry path visited entry owner place := by
  simp only [Visits, Walker.visits_iff_meetsSome, exists_meets_iff]

end CompileRequest

end FormCompiler

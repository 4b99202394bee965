import FormCompiler.DocumentError
import FormCompiler.Presentation

/-!
# FormCompiler.Presentation.Reader

Reading presentations.  The members of a record are read in the order of
the document, the first bad one is reported, and missing members come after
that.  Every record may also be an array of its members in the order `bd d
l p po pl i` for presentations, `n nr ns ao` for pages, `m c a` for
interactions and `t o va r s m answer id idt on_item_remove` for hints.

A page entry is a text or a page; whatever is wrong inside a nested page is
reported as an entry that is neither.
-/

namespace FormCompiler

/-! ## pages -/

namespace PageSpec

/-- What has been read of a page. -/
structure Draft where
  name : Option String
  reference : Option String
  synthetic : Option String
  entries : Option (List PageEntry)

def Draft.blank : Draft := ⟨none, none, none, none⟩

/-- The page that a draft describes; its entries must be there. -/
def Draft.finish (draft : Draft) : Shaped PageSpec :=
  match draft.entries with
  | none => .error (.missingField "ao")
  | some entries => .ok ⟨draft.name, draft.reference, draft.synthetic, entries⟩

/-- A page as an entry of another; any error in it is one of the entry. -/
def asEntry : Shaped PageSpec → Shaped PageEntry
  | .ok spec => .ok (.page spec)
  | .error _ => .error (.noAlternative "PageEntry")

/-- The name under which errors speak of a page. -/
def recordName : String := "PageSpec"

/-- The number of members of a page. -/
def memberCount : Nat := 4

mutual

/-- A page, from an object or an array. -/
def read : Json → Shaped PageSpec
  | .object fields => do (← readFields .blank fields).finish
  | .array items => readItems items
  | found => .error (.wrongKind found (.record recordName memberCount))

/-- The members of a page in document order. -/
def readFields (draft : Draft) : List (String × Json) → Shaped Draft
  | [] => .ok draft
  | (key, value) :: fields => do
    if key = "n" then
      readFields { draft with name := ← value.toOptional Json.toText } fields
    else if key = "nr" then
      readFields { draft with reference := ← value.toOptional Json.toText } fields
    else if key = "ns" then
      readFields { draft with synthetic := ← value.toOptional Json.toText } fields
    else if key = "ao" then
      let entries ← readEntries value
      readFields { draft with entries := some entries } fields
    else readFields draft fields

/-- The members of a page in declaration order. -/
def readItems : List Json → Shaped PageSpec
  | name :: reference :: synthetic :: entries :: rest => do
    let name ← name.toOptional Json.toText
    let reference ← reference.toOptional Json.toText
    let synthetic ← synthetic.toOptional Json.toText
    let entries ← readEntries entries
    if rest.isEmpty then .ok ⟨name, reference, synthetic, entries⟩
    else .error (.tooLong (4 + rest.length))
  | items => do
    let _ ← items.mapM (Json.toOptional Json.toText)
    .error (.tooShort 3 recordName memberCount)

/-- The entries of a page. -/
def readEntries : Json → Shaped (List PageEntry)
  | .array items => readEntryList items
  | found => .error (.wrongKind found .sequence)

def readEntryList : List Json → Shaped (List PageEntry)
  | [] => .ok []
  | item :: items => do
    let entry ← readEntry item
    let entries ← readEntryList items
    .ok (entry :: entries)

/-- An entry: a text or a page. -/
def readEntry : Json → Shaped PageEntry
  | .string name => .ok (.field name)
  | .object fields => asEntry do (← readFields .blank fields).finish
  | .array items => asEntry (readItems items)
  | _ => .error (.noAlternative "PageEntry")

end

end PageSpec

/-! ## hints -/

namespace Hints

/-- A member that holds text. -/
def textReader (key : String) (set : Option String → Hints → Hints) : FieldReader Hints :=
  ⟨key, false, fun value draft => do return set (← value.toOptional Json.toText) draft⟩

/-- A member that is kept as it stands; `null` counts as absent. -/
def rawReader (key : String) (set : Option Json → Hints → Hints) : FieldReader Hints :=
  ⟨key, false, fun value draft => do return set (← value.toOptional .ok) draft⟩

/-- The members of hints. -/
def readers : List (FieldReader Hints) :=
  [ textReader "t" fun v h => { h with widget := v },
    rawReader "o" fun v h => { h with options := v },
    textReader "va" fun v h => { h with variant := v },
    rawReader "r" fun v h => { h with range := v },
    rawReader "s" fun v h => { h with step := v },
    rawReader "m" fun v h => { h with bindings := v },
    textReader "answer" fun v h => { h with answer := v },
    rawReader "id" fun v h => { h with id := v },
    rawReader "idt" fun v h => { h with idFormat := v },
    rawReader "on_item_remove" fun v h => { h with onItemRemove := v } ]

def read (value : Json) : Shaped Hints :=
  FieldReader.readRecord "AttributeHints" readers Hints.none value

end Hints

/-! ## interactions -/

namespace Interaction

/-- The members of an interaction. -/
def readers : List (FieldReader Interaction) :=
  [ ⟨"m", true, fun value draft => do return { draft with medium := ← value.toText }⟩,
    ⟨"c", true, fun value draft => do return { draft with context := ← value.toText }⟩,
    ⟨"a", false, fun value draft => do
      return { draft with hints := .ofList (← value.toFields Hints.read) }⟩ ]

/-- The hints for one medium and context. -/
def read (value : Json) : Shaped Interaction :=
  FieldReader.readRecord "Interaction" readers ⟨"", "", .empty⟩ value

end Interaction

/-! ## presentations -/

namespace Presentation

/-- Page titles of one language. -/
def readTitles (value : Json) : Shaped (Dictionary String) := do
  return .ofList (← value.toFields Json.toText)

/-- The members of a presentation. -/
def readers : List (FieldReader Presentation) :=
  [ ⟨"bd", true, fun value draft => do return { draft with bundleDigest := ← value.toText }⟩,
    ⟨"d", false, fun value draft => do
      return { draft with digest := ← value.toOptional Json.toText }⟩,
    ⟨"l", false, fun value draft => do
      return { draft with languages := ← value.toItems Json.toText }⟩,
    ⟨"p", false, fun value draft => do
      return { draft with pages := ← value.toItems PageSpec.read }⟩,
    ⟨"po", false, fun value draft => do
      return { draft with pageOrder := ← value.toItems Json.toText }⟩,
    ⟨"pl", false, fun value draft => do
      return { draft with pageLabels := .ofList (← value.toFields readTitles) }⟩,
    ⟨"i", false, fun value draft => do
      return { draft with interactions := ← value.toItems Interaction.read }⟩ ]

def blank : Presentation := ⟨"", none, [], [], [], .empty, []⟩

def read (value : Json) : Shaped Presentation :=
  FieldReader.readRecord "Presentation" readers blank value

/-- Reads a presentation document. -/
def ofJson (doc : Json) : Except DocumentError Presentation :=
  (read doc).mapError .presentation

end Presentation

end FormCompiler

import FormCompiler.IdentifierTree
import FormCompiler.Locale
import FormCompiler.Notice

/-!
# FormCompiler.Journal

What a compilation writes down beside the form: texts for the locale
dictionaries, identifiers of lists, and notices.  A journal lists these in
the order in which they were written; replaying it over side tables gives
the tables of the form.
-/

namespace FormCompiler

/-- One line of a journal. -/
inductive JournalEntry where
  /-- The texts of an attribute that stands at a path. -/
  | attributeTexts (path : Path) (attr : Attribute)
  /-- The title of a page in a language. -/
  | title (lang key title : String)
  /-- The texts of the presented bundle. -/
  | bundleTexts (bundle : Bundle)
  /-- How the items of the list at a path are identified. -/
  | identifier (path : Path) (ident : ListIdentifier)
  | notice (notice : Notice)

/-- What was written down, in order. -/
abbrev Journal := List JournalEntry

def Journal.notices (journal : Journal) : List Notice :=
  journal.filterMap fun
    | .notice notice => some notice
    | _ => none

/-- The tables that accompany a form. -/
structure SideTables where
  locales : Locales
  identifiers : IdentifierTree

namespace SideTables

/-- Empty tables for the requested languages. -/
def forLanguages (languages : List String) : SideTables := ⟨.forLanguages languages, .empty⟩

/-- The tables with one line of a journal entered. -/
def enter (tables : SideTables) : JournalEntry → SideTables
  | .attributeTexts path attr =>
    { tables with locales := tables.locales.recordAttribute path attr }
  | .title lang key title =>
    { tables with locales := tables.locales.recordTitle lang key title }
  | .bundleTexts bundle => { tables with locales := tables.locales.recordBundle bundle }
  | .identifier path ident => { tables with identifiers := tables.identifiers.record path ident }
  | .notice _ => tables

/-- The tables with a whole journal entered, line by line. -/
def replay (tables : SideTables) (journal : Journal) : SideTables := journal.foldl enter tables

/-- A journal is entered part by part. -/
theorem replay_append (tables : SideTables) (first second : Journal) :
    tables.replay (first ++ second) = (tables.replay first).replay second :=
  List.foldl_append

/-- Notices leave the tables as they are. -/
theorem replay_notices (tables : SideTables) (notices : List Notice) :
    tables.replay (notices.map .notice) = tables := by
  induction notices with
  | nil => rfl
  | cons notice notices ih => exact ih

end SideTables

end FormCompiler

import FormCompiler.Entries

/-!
# FormCompiler.Localized

Values per language, in the order in which the languages were declared.
Declaring a language again replaces its value in place, so the first
language stays the first.  `get?_insert` and `languages_insert` say what one
declaration does to the values and to the languages.
-/

namespace FormCompiler

universe u

/-- Values per language, in declared order. -/
structure Localized (α : Type u) where
  entries : List (String × α)
deriving DecidableEq

namespace Localized

variable {α : Type u}

def empty : Localized α := ⟨[]⟩

instance : Inhabited (Localized α) := ⟨empty⟩

def get? (values : Localized α) (lang : String) : Option α := values.entries.lookup lang

/-- The value of the language declared first. -/
def first? (values : Localized α) : Option α := values.entries.head?.map (·.2)

def isEmpty (values : Localized α) : Bool := values.entries.isEmpty

/-- The languages, in the order in which they stand. -/
def languages (values : Localized α) : List String := values.entries.map (·.1)

def insert (values : Localized α) (lang : String) (value : α) : Localized α :=
  ⟨putEntry lang value values.entries⟩

/-- Declares languages one after the other. -/
def ofList (entries : List (String × α)) : Localized α :=
  entries.foldl (fun values e => values.insert e.1 e.2) empty

/-! ## lookups -/

/-- A declaration changes the value of its language, and no other. -/
theorem get?_insert (values : Localized α) (lang l : String) (value : α) :
    (values.insert lang value).get? l = if l = lang then some value else values.get? l :=
  lookup_putEntry lang l value values.entries

/-- The first language has the first value. -/
theorem first?_eq (values : Localized α) :
    values.first? = values.languages.head?.bind values.get? := by
  obtain ⟨entries⟩ := values
  cases entries with
  | nil => rfl
  | cons head rest => simp [first?, languages, get?, lookup_cons_eq]

/-! ## languages -/

/-- A new language stands behind those that are there, and a known one keeps
its place. -/
theorem languages_insert (values : Localized α) (lang : String) (value : α) :
    (values.insert lang value).languages =
      if lang ∈ values.languages then values.languages else values.languages ++ [lang] :=
  keys_putEntry lang value values.entries

end Localized

end FormCompiler

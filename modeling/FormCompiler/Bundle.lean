import FormCompiler.AttributeType
import FormCompiler.Dictionary
import FormCompiler.Localized

/-!
# FormCompiler.Bundle

Schema bundles: sets of attributes known by a digest, with display texts
per language.  Languages and choice codes keep their declared order, since
the first language of an entry set labels the choices of a form.
-/

namespace FormCompiler

/-- The codes of an enumerated attribute. -/
inductive EntryCodes where
  | flat (codes : List String)
  /-- Codes under category codes, in declared order. -/
  | grouped (groups : List (String × List String))
deriving DecidableEq, Repr

/-- A unit of measurement within its system. -/
structure Units where
  system : String
  unit : String
deriving DecidableEq, Repr

abbrev EntryLabels := Dictionary String

/-- One attribute of a bundle. -/
structure Attribute where
  name : String
  type : AttributeType
  /-- `M` marks a mandatory attribute. -/
  conformance : Option String
  cardinality : Option String
  format : Option String
  units : Option Units
  entryCodes : Option EntryCodes
  entries : Option (Localized EntryLabels)
  labels : Localized String
  informations : Localized String
deriving DecidableEq

/-- An attribute with a name and a type only. -/
def Attribute.bare (name : String) (type : AttributeType) : Attribute :=
  ⟨name, type, none, none, none, none, none, none, .empty, .empty⟩

/-- The display texts of a bundle in one language. -/
structure BundleTexts where
  name : Option String
  description : Option String
deriving DecidableEq, Repr

/-- A bundle of attributes, known by its digest. -/
structure Bundle where
  digest : String
  attributes : List Attribute
  texts : Localized BundleTexts
deriving DecidableEq

/-- The first attribute of a name. -/
def Bundle.attribute? (bundle : Bundle) (name : String) : Option Attribute :=
  bundle.attributes.find? (·.name = name)

end FormCompiler

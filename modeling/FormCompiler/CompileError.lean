import FormCompiler.AttributeType
import FormCompiler.DocumentError
import FormCompiler.Path

/-!
# FormCompiler.CompileError

The causes for which a form cannot be compiled, each with one wording and
the name of its kind.
-/

namespace FormCompiler

/-- Naming keys that exclude one another on a page. -/
inductive AddressConflict where
  /-- `nr` and `ns` stand together. -/
  | referenceAndSynthetic
  /-- `n` stands with one of the others. -/
  | nameAndOther
deriving DecidableEq, Repr

def AddressConflict.message : AddressConflict → String
  | referenceAndSynthetic => "cannot have 'nr' and 'ns' attributes at the same time"
  | nameAndOther => "cannot have 'n' and 'nr' or 'ns' attributes at the same time"

/-- Why a form cannot be compiled. -/
inductive CompileError where
  /-- The presentation is of another bundle. -/
  | bundleMismatch (presented bundle : String)
  /-- The bundle that an attribute refers to is not loaded. -/
  | unresolvedReference (name digest : String)
  | unsupportedType (name : String) (type : AttributeType)
  | unknownAttribute (name bundle : String)
  | conflictingAddress (page : String) (conflict : AddressConflict)
  | unnamedPage
  /-- The format of list identifiers is not a known one. -/
  | identifierFormat (path : Path) (found : Option Json)
  | missingDependency (name bundle : String)
  | cyclicReference (cycle : List String)
  /-- A page embeds an attribute that refers to no bundle. -/
  | notAReference (name : String) (type : AttributeType)
  | document (error : DocumentError)

namespace CompileError

def message : CompileError → String
  | bundleMismatch presented bundle =>
    "presentation targets bundle " ++ presented ++ " but the bundle digest is " ++ bundle
  | unresolvedReference name digest =>
    "attribute '" ++ name ++ "' is a referencing attribute, but the referenced bundle " ++ digest ++
      " is not loaded"
  | unsupportedType name type =>
    "unsupported attribute type " ++ type.render ++ " for attribute '" ++ name ++ "'"
  | unknownAttribute name bundle => "attribute '" ++ name ++ "' not found in bundle " ++ bundle
  | conflictingAddress page conflict => "page '" ++ page ++ "' " ++ conflict.message
  | unnamedPage => "nested page declares none of 'n', 'nr' or 'ns'"
  | identifierFormat path found =>
    "list '" ++ path.render ++ "' has identifier format " ++
      (found.map Json.compact).getD "(none)" ++ "; possible values are 'uuid', 'bigint'"
  | missingDependency name bundle =>
    "referenced bundle for attribute '" ++ name ++ "' of bundle " ++ bundle ++ " not found"
  | cyclicReference cycle => "reference cycle detected: " ++ String.intercalate " → " cycle
  | notAReference name type =>
    "page '" ++ name ++ "' embeds a reference, but the attribute type is " ++ type.render
  | document error => error.message

/-- The name of a kind of compile error. -/
def kind : CompileError → String
  | bundleMismatch _ _ => "PresentationBundleMismatch"
  | unresolvedReference _ _ => "UnresolvedReference"
  | unsupportedType _ _ => "UnsupportedAttributeType"
  | unknownAttribute _ _ => "AttributeNotFound"
  | conflictingAddress _ _ => "ConflictingPageAddressing"
  | unnamedPage => "UnnamedPage"
  | identifierFormat _ _ => "InvalidListIdentifierFormat"
  | missingDependency _ _ => "MissingDependencyForFind"
  | cyclicReference _ => "CyclicReference"
  | notAReference _ _ => "NotAReference"
  | document _ => "Interchange"

/-- A compile error as a JSON object. -/
def toJson (error : CompileError) : Json :=
  .object [("kind", .string error.kind), ("message", .string error.message)]

end CompileError

end FormCompiler

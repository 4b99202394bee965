import FormCompiler.CompileError
import FormCompiler.Presentation

/-!
# FormCompiler.PageAddress

How a page names itself.  A page has exactly one of the keys `n`, `nr` and
`ns`; which one it is decides what the page stands for.
-/

namespace FormCompiler

/-- The name of a page by the key that gives it. -/
inductive PageAddress where
  /-- `n`, which is outdated and acts like `nr`. -/
  | outdated (name : String)
  /-- `nr`: the page embeds the reference attribute of this name. -/
  | reference (name : String)
  /-- `ns`: the page only groups its entries. -/
  | synthetic (name : String)
deriving DecidableEq, Repr

namespace PageAddress

def name : PageAddress → String
  | outdated name | reference name | synthetic name => name

/-- Is the page named by the outdated key? -/
def isOutdated : PageAddress → Bool
  | outdated _ => true
  | _ => false

end PageAddress

/-- The address of a page, unless it has no name or several. -/
def PageSpec.address (spec : PageSpec) : Except CompileError PageAddress :=
  match spec.name, spec.reference, spec.synthetic with
  | _, some reference, some _ => .error (.conflictingAddress reference .referenceAndSynthetic)
  | some name, some _, none | some name, none, some _ =>
    .error (.conflictingAddress name .nameAndOther)
  | some name, none, none => .ok (.outdated name)
  | none, some reference, none => .ok (.reference reference)
  | none, none, some synthetic => .ok (.synthetic synthetic)
  | none, none, none => .error .unnamedPage

end FormCompiler

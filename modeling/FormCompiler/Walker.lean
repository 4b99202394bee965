import FormCompiler.Question
import FormCompiler.References
import FormCompiler.Timestamp
import FormCompiler.Walk

/-!
# FormCompiler.Walker

What a walk over a presentation reads: the presentation and its hints for
capturing, the loaded bundles and their references, and what the caller
asks for.  Everything that is known about a place in the form is looked up
by the dotted text of its path.

A question leads into another bundle, and bundles may refer to each other
in circles, so nested questions are bounded by the hints: `room` counts the
questions that are hinted at a path or at a longer one, and below a question
there is less room (`room_child_lt`).
-/

namespace FormCompiler

/-- The setting of a walk. -/
structure Walker where
  presentation : Presentation
  /-- The hints for capturing. -/
  interaction : Option Interaction
  registry : Registry
  references : References
  /-- Conditions by dotted path. -/
  conditionals : Dictionary Json
  /-- What is read-only, along with everything below it. -/
  readonly : List Path
  /-- The instant that date expressions refer to. -/
  now : Timestamp

namespace Walker

/-! ## lookups -/

def hints? (w : Walker) (path : Path) : Option Hints :=
  w.interaction.bind (·.hints.find? path.render)

/-- The hints of a question at a path. -/
def question? (w : Walker) (path : Path) : Option Hints := (w.hints? path).filter Hints.isQuestion

/-- The condition of what stands at a path. -/
def condition? (w : Walker) (path : Path) : Option Json := w.conditionals.find? path.render

/-- Is a path read-only? -/
def isReadonly (w : Walker) (path : Path) : Bool := w.readonly.any path.isWithin

/-- The attribute of a name. -/
def findAttribute (bundle : Bundle) (name : String) : Walk Attribute :=
  match bundle.attribute? name with
  | some attr => Walk.done attr
  | none => Walk.fail (.unknownAttribute name bundle.digest)

/-- The bundle that an attribute of a bundle points at. -/
def dependency? (w : Walker) (owner : Bundle) (name : String) : Option Bundle :=
  (w.references.find? owner.digest name).bind w.registry.find?

/-- The bundle that an attribute points at, which must be loaded. -/
def dependency (w : Walker) (owner : Bundle) (name : String) : Walk Bundle :=
  match w.dependency? owner name with
  | some bundle => Walk.done bundle
  | none => Walk.fail (.missingDependency name owner.digest)

/-! ## room for questions -/

/-- The number of questions hinted at a path or at a longer one. -/
def room (w : Walker) (path : Path) : Nat :=
  match w.interaction with
  | none => 0
  | some interaction =>
    interaction.hints.toList.countP fun hint =>
      hint.2.isQuestion && decide (path.render.length ≤ hint.1.length)

/-- A class that is smaller at one item of a list is met there less often. -/
theorem countP_lt {α : Type} {p q : α → Bool} {xs : List α} {x : α}
    (hpq : ∀ y, p y = true → q y = true) (hx : x ∈ xs) (hp : p x = false) (hq : q x = true) :
    xs.countP p < xs.countP q := by
  induction xs with
  | nil => simp at hx
  | cons y ys ih =>
    rcases List.mem_cons.mp hx with rfl | hx
    · have : ys.countP p ≤ ys.countP q := List.countP_mono_left fun y _ => hpq y
      simp only [List.countP_cons, hp, hq, if_true, Bool.false_eq_true, if_false]
      omega
    · have := ih hx
      have := hpq y
      cases hpy : p y <;> cases hqy : q y <;> simp_all; omega

/-- A question takes up room, so less is left within it. -/
theorem room_child_lt {w : Walker} {path : Path} {hints : Hints} (hpath : path.isRoot = false)
    (h : w.question? path = some hints) (name : String) :
    w.room (path.child name) < w.room path := by
  unfold question? hints? at h
  unfold room
  cases hi : w.interaction with
  | none => simp [hi] at h
  | some interaction =>
    simp only [hi, Option.bind_some, Option.filter_eq_some_iff] at h
    have hlonger := Path.length_render_lt_child hpath name
    refine countP_lt (fun hint hhint => ?_) (Dictionary.mem_of_find? h.1) ?_ ?_
    · simp only [Bool.and_eq_true, decide_eq_true_eq] at hhint ⊢
      exact ⟨hhint.1, by omega⟩
    · simp only [Bool.and_eq_false_iff, decide_eq_false_iff_not]
      exact .inr (by omega)
    · simp [h.2]

end Walker

end FormCompiler

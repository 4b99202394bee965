import FormCompiler.Text.Blank

/-!
# FormCompiler.Path

Paths of names from the top of a form down to an attribute.  The dotted
text of a path keys locale entries, conditions, capture hints and read-only
rules.

* `Path.parse` and `Path.render` pass between a path and its dotted text;
  rendering gives every dotted text back (`render_parse`), while a path
  whose names hold dots is not recovered from its text.
* Below a path other than the root, a name is added to the text behind a dot
  (`render_child`).
* `Path.isWithin` says that a path equals another or lies below it; nothing
  lies within the root.
-/

namespace FormCompiler

/-- A path of names. -/
structure Path where
  segments : List String
deriving DecidableEq, Repr

namespace Path

def root : Path := ⟨[]⟩

def isRoot (p : Path) : Bool := p.segments.isEmpty

/-- The path one name further down. -/
def child (p : Path) (name : String) : Path := ⟨p.segments ++ [name]⟩

/-- Cuts a dotted text at its dots; the empty text is the root. -/
def parse (dotted : String) : Path :=
  if dotted = "" then root
  else ⟨(Text.splitWhere (· = '.') dotted.toList).map String.ofList⟩

def joinDots (names : List String) : String :=
  String.ofList (List.intercalate ['.'] (names.map String.toList))

/-- The dotted text of a path. -/
def render (p : Path) : String := joinDots p.segments

/-- Does the path equal `ancestor` or lie below it?  Nothing lies within
the root. -/
def isWithin (p ancestor : Path) : Bool :=
  !ancestor.isRoot && ancestor.segments.isPrefixOf p.segments

/-- The key of a property of what stands at the path. -/
def key (p : Path) (property : String) : String :=
  if p.isRoot then property else p.render ++ "." ++ property

/-- The first name, and the dotted text of the names behind it. -/
def splitHead? (p : Path) : Option (String × String) :=
  match p.segments with
  | [] => none
  | name :: names => some (name, joinDots names)

/-- Paths in the order of their names, a path before those below it. -/
def compare (p q : Path) : Ordering := Ord.compare p.segments q.segments

/-! ## dotted text -/

@[simp] theorem segments_root : root.segments = [] := rfl

@[simp] theorem segments_child (p : Path) (name : String) :
    (p.child name).segments = p.segments ++ [name] := rfl

/-- A path that is read has the text it was read from. -/
theorem render_parse (dotted : String) : (parse dotted).render = dotted := by
  unfold parse
  split
  · rename_i h
    subst h
    rfl
  · simp only [render, joinDots, List.map_map]
    have : (String.toList ∘ String.ofList) = id := by
      funext cs
      simp
    rw [this, List.map_id, Text.intercalate_splitWhere, String.ofList_toList]

/-- Names are joined with one dot between any two. -/
theorem toList_joinDots (names : List String) :
    (joinDots names).toList = List.intercalate ['.'] (names.map String.toList) := by
  rw [joinDots, String.toList_ofList]

theorem joinDots_singleton (name : String) : joinDots [name] = name := by
  simp [joinDots]

/-- A name stands in front with a dot. -/
theorem joinDots_cons {names : List String} (h : names ≠ []) (name : String) :
    joinDots (name :: names) = name ++ "." ++ joinDots names := by
  obtain ⟨second, names, rfl⟩ := List.exists_cons_of_ne_nil h
  rw [← String.toList_inj]
  simp [toList_joinDots, List.intercalate_cons_cons]

/-- Names on the two sides of a cut are joined by a dot. -/
theorem joinDots_append {upper lower : List String} (hupper : upper ≠ []) (hlower : lower ≠ []) :
    joinDots (upper ++ lower) = joinDots upper ++ "." ++ joinDots lower := by
  induction upper with
  | nil => exact absurd rfl hupper
  | cons name upper ih =>
    cases upper with
    | nil => rw [List.singleton_append, joinDots_cons hlower, joinDots_singleton]
    | cons second upper =>
      have hsecond : second :: upper ≠ [] := List.cons_ne_nil _ _
      rw [List.cons_append, joinDots_cons (by simp) name, ih hsecond, joinDots_cons hsecond name]
      simp only [String.append_assoc]

/-- The text of a path goes on with a dot and the name. -/
theorem render_child {p : Path} (h : p.isRoot = false) (name : String) :
    (p.child name).render = p.render ++ "." ++ name := by
  have hnames : p.segments ≠ [] := by simpa [isRoot] using h
  rw [render, segments_child, joinDots_append hnames (List.cons_ne_nil _ _), joinDots_singleton,
    render]

/-- The text of a path grows with every name. -/
theorem length_render_lt_child {p : Path} (h : p.isRoot = false) (name : String) :
    p.render.length < (p.child name).render.length := by
  rw [render_child h, String.length_append, String.length_append]
  have : ".".length = 1 := rfl
  omega

/-- Containment, name by name. -/
theorem isWithin_iff {p ancestor : Path} :
    p.isWithin ancestor = true ↔ ancestor.segments ≠ [] ∧ ancestor.segments <+: p.segments := by
  simp [isWithin, isRoot, List.isPrefixOf_iff_prefix]

/-- The key of a property is the text of the path, a dot and the property. -/
theorem key_child (p : Path) (name property : String) :
    (p.child name).key property = (p.child name).render ++ "." ++ property := by
  simp [key, isRoot]

end Path

end FormCompiler

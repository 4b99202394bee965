import FormCompiler.Bundle
import FormCompiler.CompileError

/-!
# FormCompiler.References

Resolving the references of a bundle.  Starting from a base bundle, every
attribute of reference type is looked up among the loaded bundles, in
attribute order and depth first; a bundle that was entered before is not
entered again.  Resolution stops at

1. an attribute of no known type,
2. a reference to a bundle that is not loaded,
3. a reference to a bundle on the way to it, which closes a cycle.

`Resolution` keeps what was found up to that point.
-/

namespace FormCompiler

/-! ## loaded bundles -/

/-- The loaded bundles by digest. -/
structure Registry where
  bundles : Dictionary Bundle
  keyed : ∀ digest bundle, bundles.find? digest = some bundle → bundle.digest = digest

namespace Registry

def empty : Registry := ⟨.empty, by simp⟩

instance : Inhabited Registry := ⟨empty⟩

/-- Loads a bundle, in place of one of the same digest. -/
def add (registry : Registry) (bundle : Bundle) : Registry :=
  ⟨registry.bundles.insert bundle.digest bundle, by
    intro digest b h
    rw [Dictionary.find?_insert] at h
    split at h
    · rename_i heq
      exact (Option.some.inj h) ▸ heq.symm
    · exact registry.keyed digest b h⟩

/-- Loads bundles; of one digest the last bundle stays. -/
def ofList (bundles : List Bundle) : Registry := bundles.foldl add empty

/-- The loaded bundle with a digest. -/
def find? (registry : Registry) (digest : String) : Option Bundle := registry.bundles.find? digest

end Registry

/-! ## resolved references -/

/-- The bundle that each reference points at, by owner and attribute. -/
structure References where
  targets : Dictionary (Dictionary String)
deriving DecidableEq

namespace References

def empty : References := ⟨.empty⟩

/-- The bundle that an attribute of a bundle points at. -/
def find? (refs : References) (owner name : String) : Option String :=
  (refs.targets.find? owner).bind (·.find? name)

/-- Records where an attribute of a bundle points. -/
def insert (refs : References) (owner name target : String) : References :=
  ⟨refs.targets.alter owner fun names => (names.getD .empty).insert name target⟩

def size (refs : References) : Nat :=
  refs.targets.toList.foldl (fun count owner => count + owner.2.size) 0

/-- A reference is found under its owner and its name. -/
theorem find?_insert (refs : References) (owner name target o n : String) :
    (refs.insert owner name target).find? o n =
      if o = owner ∧ n = name then some target else refs.find? o n := by
  simp only [find?, insert, Dictionary.find?_alter]
  by_cases ho : o = owner
  · subst ho
    by_cases hn : n = name
    · simp [hn, Dictionary.find?_insert]
    · cases refs.targets.find? o <;> simp [hn, Dictionary.find?_insert]
  · simp [ho]

end References

/-! ## resolution -/

/-- What a resolution has found. -/
structure Resolution where
  references : References
  /-- The digests of the bundles entered, the last one first. -/
  entered : List String
  /-- What stopped the resolution. -/
  failure : Option CompileError

namespace Resolution

/-- The state in which a bundle has just been entered. -/
def enter (state : Resolution) (digest : String) : Resolution :=
  { state with entered := digest :: state.entered }

def record (state : Resolution) (owner name target : String) : Resolution :=
  { state with references := state.references.insert owner name target }

def fail (state : Resolution) (error : CompileError) : Resolution :=
  { state with failure := some error }

end Resolution

namespace Registry

/-- The number of loaded bundles that are not on a path. -/
def offPath (registry : Registry) (path : List String) : Nat :=
  (registry.bundles.keys.filter fun digest => !path.contains digest).length

/-- The digests under which bundles are found are the keys. -/
theorem mem_keys_of_find? {registry : Registry} {digest : String} {bundle : Bundle}
    (h : registry.find? digest = some bundle) : digest ∈ registry.bundles.keys :=
  List.mem_map_of_mem (Dictionary.mem_of_find? h)

/-- Entering a loaded bundle that is not on the path leaves fewer off it. -/
theorem offPath_lt {registry : Registry} {digest : String} {bundle : Bundle} {path : List String}
    (h : registry.find? digest = some bundle) (hpath : ¬ digest ∈ path) :
    registry.offPath (path ++ [digest]) < registry.offPath path := by
  unfold offPath
  have hmem := mem_keys_of_find? h
  generalize registry.bundles.keys = keys at hmem
  induction keys with
  | nil => simp at hmem
  | cons k rest ih =>
    have hle : (rest.filter fun d => !(path ++ [digest]).contains d).length ≤
        (rest.filter fun d => !path.contains d).length := by
      rw [← List.countP_eq_length_filter, ← List.countP_eq_length_filter]
      exact List.countP_mono_left fun x _ hx => by simp_all
    by_cases hk : digest = k
    · subst hk
      simp [hpath]
      simpa using Nat.lt_succ_of_le hle
    · have hrest := ih (by simpa [hk] using hmem)
      by_cases hin : k ∈ path
      · simpa [hin] using hrest
      · simpa [hin, Ne.symm hk] using hrest

/-- Resolves attributes of the bundle `owner`, the last one on `path`.  A
loaded bundle that is not on the path and was not entered before is entered
by `visit`. -/
def resolveEach (registry : Registry) (path : List String) (owner : String)
    (visit : (digest : String) → (target : Bundle) → registry.find? digest = some target →
      ¬ digest ∈ path → Resolution → Resolution) :
    List Attribute → Resolution → Resolution
  | [], state => state
  | attr :: attrs, state =>
    match attr.type.base with
    | .primitive _ => resolveEach registry path owner visit attrs state
    | .unrecognized _ => state.fail (.unsupportedType attr.name attr.type)
    | .reference digest =>
      match h : registry.find? digest with
      | none => state.fail (.unresolvedReference attr.name digest)
      | some target =>
        -- The reference is recorded first, also where it closes a cycle.
        let recorded := state.record owner attr.name digest
        if hpath : digest ∈ path then recorded.fail (.cyclicReference (path ++ [digest]))
        else if digest ∈ recorded.entered then
          resolveEach registry path owner visit attrs recorded
        else
          let after := visit digest target h hpath (recorded.enter digest)
          if after.failure.isSome then after
          else resolveEach registry path owner visit attrs after

/-- Resolves the attributes of the bundle `owner`, the last one on `path`,
and of every bundle that is entered on the way. -/
def resolveAttributes (registry : Registry) (path : List String) (owner : String)
    (attributes : List Attribute) (state : Resolution) : Resolution :=
  registry.resolveEach path owner
    (fun digest target _h _hpath state =>
      resolveAttributes registry (path ++ [digest]) digest target.attributes state)
    attributes state
termination_by registry.offPath path
decreasing_by exact offPath_lt _h _hpath

/-- Resolves a base bundle. -/
def resolution (registry : Registry) (base : Bundle) : Resolution :=
  registry.resolveAttributes [base.digest] base.digest base.attributes
    ⟨.empty, [base.digest], none⟩

/-- The references of a base bundle and of every bundle it reaches. -/
def resolve (registry : Registry) (base : Bundle) : Except CompileError References :=
  match (registry.resolution base).failure with
  | some error => .error error
  | none => .ok (registry.resolution base).references

end Registry

end FormCompiler

import FormCompiler.Proofs.ResolutionMemory

/-!
# FormCompiler.Proofs.ResolutionObstacles

What stops a resolution, and where.  An obstacle is an attribute of no known
type, a reference to a bundle that is not loaded, or a reference back onto
the path that led to it.  `Registry.BlockedAt` leads from attributes to an
obstacle, reference after reference, and keeps the positions of the
attributes on the way.

A resolution fails with the error of the first obstacle, depth first and in
attribute order: of all ways to an obstacle, the one whose positions come
first (`Registry.resolve_eq_error_iff`).  The digests on such a way form a
trail of references from the base (`Registry.BlockedAt.exists_trail`).
-/

namespace FormCompiler

namespace Registry

/-! ## obstacles -/

/-- What stops a resolution at an attribute of the last bundle on a path. -/
inductive Obstacle (registry : Registry) (path : List String) (attr : Attribute) :
    CompileError → Prop
  | unsupported {raw} (type : attr.type.base = .unrecognized raw) :
      Obstacle registry path attr (.unsupportedType attr.name attr.type)
  | unresolved {digest} (type : attr.type.base = .reference digest)
      (missing : registry.find? digest = none) :
      Obstacle registry path attr (.unresolvedReference attr.name digest)
  | cyclic {digest target} (type : attr.type.base = .reference digest)
      (loaded : registry.find? digest = some target) (onPath : digest ∈ path) :
      Obstacle registry path attr (.cyclicReference (path ++ [digest]))

/-- From attributes of the last bundle on a path, references lead to an
obstacle, by the attributes at the given positions. -/
inductive BlockedAt (registry : Registry) :
    List String → List Attribute → List Nat → CompileError → Prop
  /-- The attribute itself is an obstacle. -/
  | here {path attrs position attr error} (found : attrs[position]? = some attr)
      (obstacle : registry.Obstacle path attr error) :
      BlockedAt registry path attrs [position] error
  /-- The attribute refers to a bundle off the path, which leads to it. -/
  | through {path attrs position attr digest target place error}
      (found : attrs[position]? = some attr) (type : attr.type.base = .reference digest)
      (loaded : registry.find? digest = some target) (offPath : digest ∉ path)
      (inside : BlockedAt registry (path ++ [digest]) target.attributes place error) :
      BlockedAt registry path attrs (position :: place) error

/-- An obstacle comes first: every other one lies behind it, in attribute
order and with all that a reference leads to before the next attribute. -/
def FirstBlocked (registry : Registry) (path : List String) (attrs : List Attribute)
    (error : CompileError) : Prop :=
  ∃ place, registry.BlockedAt path attrs place error ∧
    ∀ other error', registry.BlockedAt path attrs other error' →
      other = place ∨ List.Lex (· < ·) place other

section Places

variable {registry : Registry} {path : List String} {attr : Attribute} {attrs : List Attribute}
  {place : List Nat} {digest : String} {target : Bundle} {error error' : CompileError}

/-- An attribute is an obstacle in one way at most. -/
theorem Obstacle.unique (h : registry.Obstacle path attr error)
    (h' : registry.Obstacle path attr error') : error = error' := by
  cases h <;> cases h' <;> simp_all

theorem not_blockedAt_nil : ¬ registry.BlockedAt path attrs [] error := by
  rintro ⟨⟩

theorem not_blockedAt_of_nil : ¬ registry.BlockedAt path [] place error := by
  intro h
  cases h with
  | here found => simp at found
  | through found => simp at found

/-- Behind the first attribute. -/
theorem blockedAt_succ_iff {position : Nat} :
    registry.BlockedAt path (attr :: attrs) ((position + 1) :: place) error ↔
      registry.BlockedAt path attrs (position :: place) error := by
  constructor
  · intro h
    cases h with
    | here found obstacle => exact .here found obstacle
    | through found type loaded offPath inside => exact .through found type loaded offPath inside
  · intro h
    cases h with
    | here found obstacle => exact .here found obstacle
    | through found type loaded offPath inside => exact .through found type loaded offPath inside

/-- At the first attribute. -/
theorem blockedAt_zero_iff : registry.BlockedAt path (attr :: attrs) (0 :: place) error ↔
    place = [] ∧ registry.Obstacle path attr error ∨
      ∃ digest target, attr.type.base = .reference digest ∧
        registry.find? digest = some target ∧ digest ∉ path ∧
        registry.BlockedAt (path ++ [digest]) target.attributes place error := by
  constructor
  · intro h
    cases h with
    | here found obstacle =>
        obtain rfl := Option.some.inj found
        exact .inl ⟨rfl, obstacle⟩
    | through found type loaded offPath inside =>
        obtain rfl := Option.some.inj found
        exact .inr ⟨_, _, type, loaded, offPath, inside⟩
  · rintro (⟨rfl, obstacle⟩ | ⟨digest, target, type, loaded, offPath, inside⟩)
    · exact .here rfl obstacle
    · exact .through rfl type loaded offPath inside

/-- One place has one error. -/
theorem BlockedAt.unique (h : registry.BlockedAt path attrs place error)
    (h' : registry.BlockedAt path attrs place error') : error = error' := by
  induction h with
  | here found obstacle =>
      cases h' with
      | here found' obstacle' =>
          obtain rfl := Option.some.inj (found.symm.trans found')
          exact obstacle.unique obstacle'
      | through _ _ _ _ inside => exact absurd inside not_blockedAt_nil
  | through found type loaded _ inside ih =>
      cases h' with
      | here => exact absurd inside not_blockedAt_nil
      | through found' type' loaded' _ inside' =>
          obtain rfl := Option.some.inj (found.symm.trans found')
          obtain rfl := BaseType.reference.inj (type.symm.trans type')
          obtain rfl := Option.some.inj (loaded.symm.trans loaded')
          exact ih inside'

/-! ## the first obstacle -/

/-- An obstacle leads no further. -/
theorem Obstacle.mem_path (h : registry.Obstacle path attr error)
    (type : attr.type.base = .reference digest) (loaded : registry.find? digest = some target) :
    digest ∈ path := by
  cases h with
  | unsupported type' => simp [type] at type'
  | unresolved type' missing =>
      obtain rfl := BaseType.reference.inj (type.symm.trans type')
      simp [missing] at loaded
  | cyclic type' _ onPath =>
      obtain rfl := BaseType.reference.inj (type.symm.trans type')
      exact onPath

/-- An attribute that is an obstacle comes before all others. -/
theorem Obstacle.firstBlocked (h : registry.Obstacle path attr error) :
    registry.FirstBlocked path (attr :: attrs) error := by
  refine ⟨[0], .here rfl h, fun other error' hother => ?_⟩
  cases other with
  | nil => exact absurd hother not_blockedAt_nil
  | cons position other =>
      cases position with
      | zero =>
          obtain ⟨rfl, -⟩ | ⟨_, _, type, loaded, offPath, -⟩ := blockedAt_zero_iff.mp hother
          · exact .inl rfl
          · exact absurd (h.mem_path type loaded) offPath
      | succ position => exact .inr (.rel (Nat.succ_pos position))

/-- Below a reference off the path the first obstacle comes before those of
later attributes. -/
theorem FirstBlocked.through (type : attr.type.base = .reference digest)
    (loaded : registry.find? digest = some target) (offPath : digest ∉ path)
    (h : registry.FirstBlocked (path ++ [digest]) target.attributes error) :
    registry.FirstBlocked path (attr :: attrs) error := by
  obtain ⟨place, inside, hfirst⟩ := h
  refine ⟨0 :: place, .through rfl type loaded offPath inside, fun other error' hother => ?_⟩
  cases other with
  | nil => exact absurd hother not_blockedAt_nil
  | cons position other =>
      cases position with
      | zero =>
          obtain ⟨-, obstacle⟩ | ⟨_, _, type', loaded', -, inside'⟩ :=
            blockedAt_zero_iff.mp hother
          · exact absurd (obstacle.mem_path type loaded) offPath
          · obtain rfl := BaseType.reference.inj (type.symm.trans type')
            obtain rfl := Option.some.inj (loaded.symm.trans loaded')
            exact (hfirst other error' inside').imp (congrArg _) .cons
      | succ position => exact .inr (.rel (Nat.succ_pos position))

/-- An attribute that leads to no obstacle is passed over. -/
theorem FirstBlocked.later (h : registry.FirstBlocked path attrs error)
    (clear : ∀ place error', ¬ registry.BlockedAt path (attr :: attrs) (0 :: place) error') :
    registry.FirstBlocked path (attr :: attrs) error := by
  obtain ⟨place, inside, hfirst⟩ := h
  cases place with
  | nil => exact absurd inside not_blockedAt_nil
  | cons position place =>
      refine ⟨(position + 1) :: place, blockedAt_succ_iff.mpr inside, fun other error' hother => ?_⟩
      cases other with
      | nil => exact absurd hother not_blockedAt_nil
      | cons position' other =>
          cases position' with
          | zero => exact absurd hother (clear other error')
          | succ position' =>
              obtain heq | hlex := hfirst _ error' (blockedAt_succ_iff.mp hother)
              · obtain ⟨rfl, rfl⟩ := List.cons.inj heq
                exact .inl rfl
              · cases hlex with
                | rel hlt => exact .inr (.rel (Nat.succ_lt_succ hlt))
                | cons hlex => exact .inr (.cons hlex)

/-- The first obstacle is one. -/
theorem FirstBlocked.unique (h : registry.FirstBlocked path attrs error)
    (h' : registry.FirstBlocked path attrs error') : error = error' := by
  obtain ⟨place, inside, hfirst⟩ := h
  obtain ⟨place', inside', hfirst'⟩ := h'
  obtain rfl | hlex := hfirst place' error' inside'
  · exact inside.unique inside'
  · obtain rfl | hlex' := hfirst' place error inside
    · exact inside.unique inside'
    · exact absurd hlex' (List.lt_asymm hlex)

end Places

/-! ## resolutions and obstacles -/

/-- How a resolution of attributes ends: well where no place is blocked, and
otherwise with the error of the first obstacle. -/
def EndsAt (registry : Registry) (path : List String) (attrs : List Attribute) :
    Except CompileError References → Prop
  | .ok _ => ∀ place error, ¬ registry.BlockedAt path attrs place error
  | .error error => registry.FirstBlocked path attrs error

section Resolutions

variable {registry : Registry} {path : List String} {owner digest : String} {attr : Attribute}
  {attrs : List Attribute} {target : Bundle} {outcome : Except CompileError References}

theorem not_blockedAt_of_primitive {kind : Primitive} (type : attr.type.base = .primitive kind)
    (place : List Nat) (error : CompileError) :
    ¬ registry.BlockedAt path (attr :: attrs) (0 :: place) error := by
  intro h
  obtain ⟨-, obstacle⟩ | ⟨_, _, type', -⟩ := blockedAt_zero_iff.mp h
  · cases obstacle <;> simp_all
  · simp [type] at type'

/-- A reference blocks no way if nothing blocks the bundle it leads to. -/
theorem not_blockedAt_of_reference (type : attr.type.base = .reference digest)
    (loaded : registry.find? digest = some target) (offPath : digest ∉ path)
    (h : ∀ place error, ¬ registry.BlockedAt (path ++ [digest]) target.attributes place error)
    (place : List Nat) (error : CompileError) :
    ¬ registry.BlockedAt path (attr :: attrs) (0 :: place) error := by
  intro hblocked
  obtain ⟨-, obstacle⟩ | ⟨_, _, type', loaded', -, inside⟩ := blockedAt_zero_iff.mp hblocked
  · exact offPath (obstacle.mem_path type loaded)
  · obtain rfl := BaseType.reference.inj (type.symm.trans type')
    obtain rfl := Option.some.inj (loaded.symm.trans loaded')
    exact h place error inside

/-- A resolution goes on behind an attribute that leads to no obstacle. -/
theorem EndsAt.later (h : registry.EndsAt path attrs outcome)
    (clear : ∀ place error, ¬ registry.BlockedAt path (attr :: attrs) (0 :: place) error) :
    registry.EndsAt path (attr :: attrs) outcome := by
  cases outcome with
  | error error => exact FirstBlocked.later h clear
  | ok after =>
      intro place error hblocked
      match place with
      | [] => exact not_blockedAt_nil hblocked
      | 0 :: place => exact clear place error hblocked
      | (position + 1) :: place => exact h _ error (blockedAt_succ_iff.mp hblocked)

/-- Without memory, a resolution ends at the first obstacle.  The induction
is on what is left off the path, and within a bundle on its attributes. -/
theorem endsAt_plainAttributes (attrs : List Attribute) (refs : References) :
    registry.EndsAt path attrs (registry.plainAttributes path owner attrs refs) := by
  induction hmeasure : registry.offPath path using Nat.strongRecOn
    generalizing path owner attrs refs with
  | ind measure ihBelow =>
      induction attrs generalizing refs with
      | nil =>
          rw [plainAttributes_nil]
          exact fun _ _ => not_blockedAt_of_nil
      | cons attr attrs ih =>
          cases htype : attr.type.base with
          | primitive kind =>
              rw [plainAttributes_primitive htype]
              exact (ih refs).later (not_blockedAt_of_primitive htype)
          | unrecognized raw =>
              rw [plainAttributes_unsupported htype]
              exact (Obstacle.unsupported htype).firstBlocked
          | reference digest =>
              cases hfound : registry.find? digest with
              | none =>
                  rw [plainAttributes_unresolved htype hfound]
                  exact (Obstacle.unresolved htype hfound).firstBlocked
              | some target =>
                  by_cases hpath : digest ∈ path
                  · rw [plainAttributes_cyclic htype hfound hpath]
                    exact (Obstacle.cyclic htype hfound hpath).firstBlocked
                  · have hinside : registry.EndsAt (path ++ [digest]) target.attributes
                        (registry.plainAttributes (path ++ [digest]) digest target.attributes
                          (refs.insert owner attr.name digest)) :=
                      ihBelow _ (hmeasure ▸ offPath_lt hfound hpath) _ _ rfl
                    rw [plainAttributes_reference htype hfound hpath]
                    cases hafter : registry.plainAttributes (path ++ [digest]) digest
                      target.attributes (refs.insert owner attr.name digest) with
                    | ok after =>
                        rw [hafter] at hinside
                        exact (ih after).later
                          (not_blockedAt_of_reference htype hfound hpath hinside)
                    -- An obstacle within the bundle comes before the other attributes.
                    | error error =>
                        rw [hafter] at hinside
                        exact FirstBlocked.through htype hfound hpath hinside

end Resolutions

/-! ## resolving a base -/

section Base

variable {registry : Registry} {base : Bundle} {error : CompileError}

/-- Nothing is entered yet but the base. -/
theorem orderly_start (registry : Registry) (base : Bundle) :
    registry.Orderly [base.digest] base.digest ⟨.empty, [base.digest], none⟩ where
  onPath := List.mem_singleton_self _
  entered := List.mem_singleton_self _
  filled := References.filled_empty
  fresh other _ name := References.find?_empty other name
  left _ hmem hoff := absurd hmem hoff
  acc _ hmem hoff := absurd hmem hoff

/-- A resolution ends as a resolution without memory does, at the first
obstacle if there is one. -/
theorem endsAt_resolve (registry : Registry) (base : Bundle) :
    registry.EndsAt [base.digest] base.attributes (registry.resolve base) := by
  have hplain := (resolution_run registry base).plainAttributes_eq rfl
    (orderly_start registry base)
  have hsame : registry.resolve base =
      registry.plainAttributes [base.digest] base.digest base.attributes .empty := hplain.symm
  rw [hsame]
  exact endsAt_plainAttributes base.attributes .empty

/-- **The error of a resolution.**  A resolution fails with the error of the
first obstacle that references lead to from the base. -/
theorem resolve_eq_error_iff : registry.resolve base = .error error ↔
    registry.FirstBlocked [base.digest] base.attributes error := by
  have hends := endsAt_resolve registry base
  cases hresolve : registry.resolve base with
  | ok references =>
      rw [hresolve] at hends
      refine iff_of_false (fun h => nomatch h) ?_
      rintro ⟨place, hblocked, -⟩
      exact hends place error hblocked
  | error found =>
      rw [hresolve] at hends
      constructor
      · intro h
        exact Except.error.inj h ▸ hends
      · intro h
        rw [FirstBlocked.unique hends h]

end Base

/-! ## trails of references -/

/-- References lead from the base over the digests of a path to a bundle,
without meeting a digest again. -/
inductive Trail (registry : Registry) (base : Bundle) : List String → Bundle → Prop
  | base : Trail registry base [base.digest] base
  | step {path owner digest target} (trail : Trail registry base path owner)
      (refers : owner.RefersTo digest) (loaded : registry.find? digest = some target)
      (offPath : digest ∉ path) : Trail registry base (path ++ [digest]) target

section Trails

variable {registry : Registry} {base bundle : Bundle} {path : List String} {place : List Nat}
  {error : CompileError}

/-- Any obstacle stands at the end of a trail. -/
theorem BlockedAt.exists_trail (h : registry.BlockedAt path bundle.attributes place error)
    (trail : registry.Trail base path bundle) :
    ∃ path' owner, ∃ attr ∈ owner.attributes, registry.Trail base path' owner ∧
      registry.Obstacle path' attr error := by
  generalize hattrs : bundle.attributes = attrs at h
  induction h generalizing bundle with
  | here found obstacle =>
      subst hattrs
      exact ⟨_, bundle, _, List.mem_of_getElem? found, trail, obstacle⟩
  | through found type loaded offPath inside ih =>
      subst hattrs
      exact ih (trail.step (.of_type (List.mem_of_getElem? found) type) loaded offPath) rfl

namespace Trail

/-- A trail leads to a reached bundle. -/
theorem reaches (trail : registry.Trail base path bundle) : registry.Reaches base bundle := by
  induction trail with
  | base => exact .base
  | step _ refers loaded _ ih => exact ih.step refers loaded

theorem nodup (trail : registry.Trail base path bundle) : path.Nodup := by
  induction trail with
  | base => exact List.nodup_singleton _
  | step _ _ _ offPath ih =>
      rw [← List.concat_eq_append]
      exact List.Nodup.concat offPath ih

theorem ne_nil (trail : registry.Trail base path bundle) : path ≠ [] := by
  cases trail <;> simp

theorem head? (trail : registry.Trail base path bundle) : path.head? = some base.digest := by
  induction trail with
  | base => rfl
  | step _ _ _ _ ih => rw [List.head?_append, ih, Option.some_or]

end Trail

end Trails

end Registry

end FormCompiler

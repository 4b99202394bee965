import FormCompiler.Proofs.Resolution

/-!
# FormCompiler.Proofs.PlainResolution

Resolution without memory.  `Registry.plainResolve` enters a bundle whenever
an attribute refers to it, and looks for cycles on the active path only.

A bundle that it enters again, below whatever path, changes nothing
(`Registry.plainAttributes_of_finished`): all that the bundle leads to is
loaded, of known types, off the path and recorded, and recording its
references once more ends with the same references.  They are compared by
their lookups (`References.Filled.ext_find?`), since a name that occurs twice
is recorded twice on the way.
-/

namespace FormCompiler

namespace References

/-! ## references as a map -/

/-- Every owner has a reference. -/
def Filled (refs : References) : Prop :=
  ∀ owner names, refs.targets.find? owner = some names → ∃ name target,
    names.find? name = some target

/-- The references are the same, but for those of `owner`. -/
def AgreesOff (owner : String) (refs refs' : References) : Prop :=
  ∀ other, other ≠ owner → ∀ name, refs.find? other name = refs'.find? other name

variable {refs refs' : References} {owner name target : String}

theorem filled_empty : empty.Filled := by
  intro owner names h
  simp [empty] at h

/-- A recorded reference leaves no owner without references. -/
theorem Filled.insert (h : refs.Filled) : (refs.insert owner name target).Filled := by
  intro other names hnames
  simp only [References.insert, Dictionary.find?_alter] at hnames
  split at hnames
  · obtain rfl := Option.some.inj hnames
    exact ⟨name, target, by simp [Dictionary.find?_insert]⟩
  · exact h other names hnames

/-- Filled references are known by their lookups. -/
theorem Filled.ext_find? (h : refs.Filled) (h' : refs'.Filled)
    (hfind : ∀ owner name, refs.find? owner name = refs'.find? owner name) : refs = refs' := by
  suffices htargets : refs.targets = refs'.targets from congrArg References.mk htargets
  refine Dictionary.ext_find? fun owner => ?_
  have hnames : ∀ name, (refs.targets.find? owner).bind (·.find? name) =
      (refs'.targets.find? owner).bind (·.find? name) := hfind owner
  cases hfirst : refs.targets.find? owner with
  | none =>
      cases hsecond : refs'.targets.find? owner with
      | none => rfl
      | some names =>
          obtain ⟨name, target, hname⟩ := h' owner names hsecond
          simpa [hfirst, hsecond, hname] using hnames name
  | some names =>
      cases hsecond : refs'.targets.find? owner with
      | none =>
          obtain ⟨name, target, hname⟩ := h owner names hfirst
          simpa [hfirst, hsecond, hname] using hnames name
      | some names' =>
          have heq : names = names' :=
            Dictionary.ext_find? fun name => by simpa [hfirst, hsecond] using hnames name
          rw [heq]

/-- Recording a reference of the owner does not disturb the others. -/
theorem AgreesOff.insert (h : AgreesOff owner refs refs') :
    AgreesOff owner (refs.insert owner name target) refs' := by
  intro other hne n
  rw [find?_insert, if_neg fun heq => hne heq.1]
  exact h other hne n

theorem agreesOff_insert : AgreesOff owner (refs.insert owner name target) refs :=
  AgreesOff.insert fun _ _ _ => rfl

end References

namespace Registry

/-! ## resolution without memory -/

/-- Resolves attributes of the bundle `owner`, the last one on `path`.  A
loaded bundle that is not on the path is entered by `visit`, however often
it is referred to. -/
def plainEach (registry : Registry) (path : List String) (owner : String)
    (visit : (digest : String) → (target : Bundle) → registry.find? digest = some target →
      ¬ digest ∈ path → References → Except CompileError References) :
    List Attribute → References → Except CompileError References
  | [], refs => .ok refs
  | attr :: attrs, refs =>
    match attr.type.base with
    | .primitive _ => plainEach registry path owner visit attrs refs
    | .unrecognized _ => .error (.unsupportedType attr.name attr.type)
    | .reference digest =>
      match h : registry.find? digest with
      | none => .error (.unresolvedReference attr.name digest)
      | some target =>
        if hpath : digest ∈ path then .error (.cyclicReference (path ++ [digest]))
        else do
          let after ← visit digest target h hpath (refs.insert owner attr.name digest)
          plainEach registry path owner visit attrs after

/-- Resolves the attributes of the bundle `owner`, the last one on `path`,
and of every bundle they lead to. -/
def plainAttributes (registry : Registry) (path : List String) (owner : String)
    (attributes : List Attribute) (refs : References) : Except CompileError References :=
  registry.plainEach path owner
    (fun digest target _h _hpath refs =>
      plainAttributes registry (path ++ [digest]) digest target.attributes refs)
    attributes refs
termination_by registry.offPath path
decreasing_by exact offPath_lt _h _hpath

/-- The references of a base bundle and of every bundle it reaches, resolved
without memory. -/
def plainResolve (registry : Registry) (base : Bundle) : Except CompileError References :=
  registry.plainAttributes [base.digest] base.digest base.attributes .empty

section Equations

variable {registry : Registry} {path : List String} {owner digest : String} {attr : Attribute}
  {attrs : List Attribute} {refs : References}

theorem plainAttributes_nil : registry.plainAttributes path owner [] refs = .ok refs := by
  rw [plainAttributes, plainEach]

theorem plainAttributes_primitive {kind : Primitive} (type : attr.type.base = .primitive kind) :
    registry.plainAttributes path owner (attr :: attrs) refs =
      registry.plainAttributes path owner attrs refs := by
  rw [plainAttributes, plainAttributes, plainEach, type]

theorem plainAttributes_unsupported {raw : String} (type : attr.type.base = .unrecognized raw) :
    registry.plainAttributes path owner (attr :: attrs) refs =
      .error (.unsupportedType attr.name attr.type) := by
  rw [plainAttributes, plainEach, type]

theorem plainAttributes_unresolved (type : attr.type.base = .reference digest)
    (missing : registry.find? digest = none) :
    registry.plainAttributes path owner (attr :: attrs) refs =
      .error (.unresolvedReference attr.name digest) := by
  rw [plainAttributes, plainEach, type]
  dsimp only
  split
  · rfl
  · next loaded => simp [missing] at loaded

theorem plainAttributes_cyclic {target : Bundle} (type : attr.type.base = .reference digest)
    (loaded : registry.find? digest = some target) (onPath : digest ∈ path) :
    registry.plainAttributes path owner (attr :: attrs) refs =
      .error (.cyclicReference (path ++ [digest])) := by
  rw [plainAttributes, plainEach, type]
  dsimp only
  split
  · next missing => simp [missing] at loaded
  · rw [dif_pos onPath]

/-- A bundle is entered before the attributes that follow. -/
theorem plainAttributes_reference {target : Bundle} (type : attr.type.base = .reference digest)
    (loaded : registry.find? digest = some target) (offPath : digest ∉ path) :
    registry.plainAttributes path owner (attr :: attrs) refs =
      (registry.plainAttributes (path ++ [digest]) digest target.attributes
        (refs.insert owner attr.name digest) >>= registry.plainAttributes path owner attrs) := by
  rw [plainAttributes, plainEach, type]
  dsimp only
  split
  · next missing => simp [missing] at loaded
  · next found loaded' =>
      obtain rfl := Option.some.inj (loaded.symm.trans loaded')
      rw [dif_neg offPath]
      refine congrArg _ (funext fun after => ?_)
      rw [plainAttributes]

end Equations

/-! ## entering a bundle again -/

/-- All that there is to do for a bundle has been done: its types are known,
what it refers to is loaded, and its references are recorded. -/
structure Finished (registry : Registry) (refs : References) (bundle : Bundle) : Prop where
  recognized : ∀ attr ∈ bundle.attributes, ∀ raw, attr.type.base ≠ .unrecognized raw
  loaded : ∀ digest, bundle.RefersTo digest → ∃ target, registry.find? digest = some target
  recorded : ∀ name, refs.find? bundle.digest name = lastReference? bundle.attributes name

/-- Whether a bundle is finished shows in its own references alone. -/
theorem Finished.of_find?_eq {registry : Registry} {refs refs' : References} {bundle : Bundle}
    (h : registry.Finished refs bundle)
    (hfind : ∀ name, refs'.find? bundle.digest name = refs.find? bundle.digest name) :
    registry.Finished refs' bundle where
  recognized := h.recognized
  loaded := h.loaded
  recorded name := (hfind name).trans (h.recorded name)

section Again

variable {registry : Registry} {path : List String} {owner digest : String}
  {attrs : List Attribute} {refs : References}

/-- Where entering any bundle again changes nothing, only the references of
the owner are recorded. -/
theorem exists_plainAttributes
    (hrecognized : ∀ attr ∈ attrs, ∀ raw, attr.type.base ≠ .unrecognized raw)
    (hagain : ∀ attr ∈ attrs, ∀ digest, attr.type.reference? = some digest →
      ∃ target, registry.find? digest = some target ∧ digest ∉ path ∧
        ∀ middle : References, middle.Filled → middle.AgreesOff owner refs →
          registry.plainAttributes (path ++ [digest]) digest target.attributes middle =
            .ok middle)
    {start : References} (hfilled : start.Filled) (hstart : start.AgreesOff owner refs) :
    ∃ after, registry.plainAttributes path owner attrs start = .ok after ∧ after.Filled ∧
      after.AgreesOff owner refs ∧
      ∀ name, after.find? owner name =
        (lastReference? attrs name).or (start.find? owner name) := by
  induction attrs generalizing start with
  | nil => exact ⟨start, plainAttributes_nil, hfilled, hstart, fun name => rfl⟩
  | cons attr attrs ih =>
      obtain ⟨hattr, hattrs⟩ := List.forall_mem_cons.mp hrecognized
      obtain ⟨hagainAttr, hagainAttrs⟩ := List.forall_mem_cons.mp hagain
      cases htype : attr.type.base with
      | unrecognized raw => exact absurd htype (hattr raw)
      | primitive kind =>
          obtain ⟨after, hafter, hfilled', hagrees, hfind⟩ :=
            ih hattrs hagainAttrs hfilled hstart
          refine ⟨after, (plainAttributes_primitive htype).trans hafter, hfilled', hagrees, ?_⟩
          intro name
          rw [hfind, lastReference?, AttributeType.reference?_of_primitive htype, ite_self,
            Option.or_none]
      | reference digest =>
          have href := AttributeType.reference?_eq_some_iff.mpr htype
          -- The reference is recorded, and the bundle that is entered changes nothing.
          obtain ⟨target, hloaded, hoff, hsame⟩ := hagainAttr digest href
          have hfilled' : (start.insert owner attr.name digest).Filled := hfilled.insert
          have hagrees : (start.insert owner attr.name digest).AgreesOff owner refs :=
            hstart.insert
          obtain ⟨after, hafter, hfilled'', hagrees', hfind⟩ :=
            ih hattrs hagainAttrs hfilled' hagrees
          refine ⟨after, ?_, hfilled'', hagrees', fun name => ?_⟩
          · rw [plainAttributes_reference htype hloaded hoff, hsame _ hfilled' hagrees]
            exact hafter
          · rw [hfind, lastReference?, Option.or_assoc, href, References.find?_insert]
            congr 1
            by_cases hname : attr.name = name
            · simp [hname]
            · simp [hname, Ne.symm hname]

/-- Entering a bundle again changes nothing, if all that it leads to is
finished and off the path. -/
theorem plainAttributes_of_finished (hacc : Acc registry.ReferredBy digest) {bundle : Bundle}
    (hloaded : registry.find? digest = some bundle) (hfilled : refs.Filled)
    (hfinished : ∀ other found, Relation.ReflTransGen registry.ReferredBy other digest →
      registry.find? other = some found → registry.Finished refs found)
    (hoff : ∀ other, Relation.ReflTransGen registry.ReferredBy other digest → other ∉ path) :
    registry.plainAttributes (path ++ [digest]) digest bundle.attributes refs = .ok refs := by
  induction hacc generalizing bundle path refs with
  | intro digest hbelow ih =>
      have hself := hfinished digest bundle .refl hloaded
      have hagain : ∀ attr ∈ bundle.attributes, ∀ target, attr.type.reference? = some target →
          ∃ found, registry.find? target = some found ∧ target ∉ path ++ [digest] ∧
            ∀ middle : References, middle.Filled → middle.AgreesOff digest refs →
              registry.plainAttributes (path ++ [digest] ++ [target]) target found.attributes
                middle = .ok middle := by
        intro attr hattr target href
        have hrefers : registry.ReferredBy target digest := ⟨bundle, hloaded, attr, hattr, href⟩
        -- references never lead back to the bundle
        have hne : ∀ other, Relation.ReflTransGen registry.ReferredBy other target →
            other ≠ digest := by
          rintro _ hother rfl
          exact not_transGen_of_acc (Acc.intro _ hbelow) (Relation.TransGen.tail' hother hrefers)
        have hoff' : ∀ other, Relation.ReflTransGen registry.ReferredBy other target →
            other ∉ path ++ [digest] := by
          intro other hother hmem
          rcases List.mem_append.mp hmem with hmem | hmem
          · exact hoff other (hother.tail hrefers) hmem
          · exact hne other hother (List.mem_singleton.mp hmem)
        obtain ⟨found, hfound⟩ := hself.loaded target ⟨attr, hattr, href⟩
        refine ⟨found, hfound, hoff' target .refl, fun middle hmiddle hagrees => ?_⟩
        refine ih target hrefers hfound hmiddle (fun other b hother hb => ?_) hoff'
        refine (hfinished other b (hother.tail hrefers) hb).of_find?_eq fun name => ?_
        exact hagrees _ (digest_of_find? hb ▸ hne other hother) name
      obtain ⟨after, hafter, hfilled', hagrees, hfind⟩ :=
        exists_plainAttributes hself.recognized hagain hfilled fun _ _ _ => rfl
      have hsame : after = refs := by
        refine hfilled'.ext_find? hfilled fun other name => ?_
        by_cases hother : other = digest
        · subst hother
          have hrecorded := hself.recorded name
          rw [digest_of_find? hloaded] at hrecorded
          rw [hfind, ← hrecorded, Option.or_self]
        · exact hagrees other hother name
      rw [hafter, hsame]

end Again

end Registry

end FormCompiler

import FormCompiler.Proofs.ResolverSteps

/-!
# FormCompiler.Proofs.ResolverRuns

The steps of a resolver from a base.  They end, and with what
`Registry.resolution` finds: a run over attributes is followed step by step
(`Registry.Run.steps`), a bundle that it enters by a call that begins and
ends.

On the way each bundle is called for at most once, so there are no more calls
than digests, the set holds what the stack holds, and a call that ends leaves
both as it found them (`Registry.bundles_entered_once`).
-/

namespace FormCompiler

namespace Resolver

/-- The step leads from the first state to the second one, in which a call
has begun. -/
def Begins (r next : Resolver) (inner : BundleCall) : Prop :=
  ∃ outer, next.calls = inner :: outer ∧ outer.length = r.calls.length

/-- The innermost call of the first state is no longer in progress in the
second one. -/
def Ends (r next : Resolver) (inner : BundleCall) : Prop := r.calls = inner :: next.calls

instance (r next : Resolver) (inner : BundleCall) : Decidable (r.Ends next inner) :=
  inferInstanceAs (Decidable (r.calls = inner :: next.calls))

end Resolver

namespace Registry

variable {registry : Registry} {r next last : Resolver} {inner : BundleCall}
  {outer : List BundleCall}

/-! ## calls -/

/-- A call remembers the stack and the set that it begins with. -/
theorem stackBefore_of_begins (h : registry.step? r = some next) (hbegins : r.Begins next inner) :
    inner.stackBefore = r.stack ∧ inner.activeBefore = r.active ∧
      next.entered = inner.owner :: r.entered := by
  obtain ⟨outer, hnext, hlength⟩ := hbegins
  obtain ⟨caller, rest, hcalls, rfl | ⟨todo, ⟨references, failure, rfl⟩ |
    ⟨digest, target, name, -, -, -, rfl⟩⟩⟩ := step?_cases h
  · have := congrArg List.length hnext
    simp only [Resolver.finish, List.length_cons, hlength, hcalls] at this
    omega
  · have := congrArg List.length hnext
    simp [Resolver.advance, hlength, hcalls] at this
  · obtain ⟨rfl, -⟩ := List.cons.inj hnext
    exact ⟨rfl, rfl, rfl⟩

/-- A call that ends leaves the stack and the set as it found them. -/
theorem restored_of_ends (h : registry.step? r = some next) (hbalanced : r.Balanced)
    (hends : r.Ends next inner) :
    next.stack = inner.stackBefore ∧ next.active = inner.activeBefore := by
  obtain ⟨caller, rest, hcalls, rfl | ⟨todo, ⟨references, failure, rfl⟩ |
    ⟨digest, target, name, -, -, -, rfl⟩⟩⟩ := step?_cases h
  · obtain ⟨rfl, -⟩ := List.cons.inj (hcalls.symm.trans hends)
    exact hbalanced.restored hcalls
  · have := congrArg List.length hends
    simp [Resolver.advance, hcalls] at this
  · have := congrArg List.length hends
    simp [Resolver.advance, Resolver.record, Resolver.call, hcalls] at this

/-- Nothing is called for but the base and loaded bundles. -/
theorem loaded_of_mem_entered {base : Bundle} (h : registry.Steps (.start base) r) :
    ∀ digest ∈ r.entered, digest = base.digest ∨
      ∃ bundle, registry.find? digest = some bundle := by
  induction h with
  | refl => exact fun digest hmem => .inl (List.mem_singleton.mp hmem)
  | tail _ hstep ih =>
      obtain ⟨caller, rest, hcalls, rfl | ⟨todo, ⟨references, failure, rfl⟩ |
        ⟨digest, target, name, hloaded, -, -, rfl⟩⟩⟩ := step?_cases hstep
      · exact ih
      · exact ih
      · refine List.forall_mem_cons.mpr ⟨.inr ⟨target, ?_⟩, ih⟩
        rwa [digest_of_find? hloaded]

/-! ## runs -/

/-- A resolver deals with attributes of the innermost call; the path and what
was found are those of a resolution. -/
structure Pursues (r : Resolver) (path : List String) (inner : BundleCall)
    (attrs : List Attribute) (outer : List BundleCall) (state : Resolution) : Prop where
  balanced : r.Balanced
  stack_eq : r.stack = path
  calls_eq : r.calls = { inner with todo := attrs } :: outer
  found_eq : r.found = state

namespace Pursues

variable {path : List String} {attr : Attribute} {attrs : List Attribute} {state : Resolution}
  {digest : String} {target : Bundle}

theorem failure_eq (h : Pursues r path inner attrs outer state) : r.failure = state.failure := by
  rw [← h.found_eq, Resolver.found]

theorem mem_active_iff (h : Pursues r path inner attrs outer state) :
    digest ∈ r.active ↔ digest ∈ path := by
  rw [h.balanced.mem_active_iff, h.stack_eq]

/-- Off the path, a bundle was visited exactly if it was entered. -/
theorem mem_visited_iff (h : Pursues r path inner attrs outer state) (hoff : digest ∉ path) :
    digest ∈ r.visited ↔ digest ∈ state.entered := by
  have hentered : digest ∈ r.entered ↔ digest ∈ state.entered := by
    rw [← h.found_eq, Resolver.found]
  rw [← hentered, h.balanced.mem_entered, h.stack_eq, or_iff_left hoff]

/-- The next step takes the first attribute. -/
theorem step?_eq (h : Pursues r path inner (attr :: attrs) outer state)
    (hok : state.failure = none) (registry : Registry) :
    registry.step? r = some ((r.advance inner attrs outer).meet registry inner.owner attr) :=
  (step?_meet registry (h.failure_eq.trans hok) h.calls_eq rfl :)

/-- An attribute that calls for nothing is dealt with in one step. -/
theorem advance (h : Pursues r path inner (attr :: attrs) outer state) (references : References)
    (failure : Option CompileError) :
    Pursues { r.advance inner attrs outer with references, failure } path inner attrs outer
      ⟨references, state.entered, failure⟩ where
  balanced := h.balanced.advance h.calls_eq attrs references failure
  stack_eq := h.stack_eq
  calls_eq := rfl
  found_eq := by rw [← h.found_eq]; rfl

/-- An attribute that refers to nothing is passed over. -/
theorem pass (h : Pursues r path inner (attr :: attrs) outer state) (hok : state.failure = none)
    {kind : Primitive} (type : attr.type.base = .primitive kind) :
    ∃ next, registry.step? r = some next ∧ Pursues next path inner attrs outer state := by
  obtain rfl := h.found_eq
  refine ⟨_, h.step?_eq hok registry, ?_⟩
  rw [Resolver.meet_primitive type]
  exact h.advance r.references r.failure

/-- A reference to a bundle that was called for before is recorded. -/
theorem revisit (h : Pursues r path inner (attr :: attrs) outer state)
    (hok : state.failure = none) (type : attr.type.base = .reference digest)
    (loaded : registry.find? digest = some target) (offPath : digest ∉ path)
    (entered : digest ∈ state.entered) :
    ∃ next, registry.step? r = some next ∧
      Pursues next path inner attrs outer (state.record inner.owner attr.name digest) := by
  have hactive := mt h.mem_active_iff.mp offPath
  have hvisited := (h.mem_visited_iff offPath).mpr entered
  obtain rfl := h.found_eq
  refine ⟨_, h.step?_eq hok registry, ?_⟩
  rw [Resolver.meet_reference type loaded, Resolver.active_advance, if_neg hactive,
    Resolver.visited_advance, if_pos hvisited]
  exact h.advance (r.references.insert inner.owner attr.name digest) r.failure

/-- A reference to another bundle begins the call for it. -/
theorem enter (h : Pursues r path inner (attr :: attrs) outer state)
    (hok : state.failure = none) (type : attr.type.base = .reference digest)
    (loaded : registry.find? digest = some target) (offPath : digest ∉ path)
    (fresh : digest ∉ state.entered) :
    ∃ next called, registry.step? r = some next ∧ called.owner = digest ∧
      Pursues next (path ++ [digest]) called target.attributes
        ({ inner with todo := attrs } :: outer)
        ((state.record inner.owner attr.name digest).enter digest) := by
  have hactive := mt h.mem_active_iff.mp offPath
  have hvisited := mt (h.mem_visited_iff offPath).mp fresh
  obtain rfl := h.found_eq
  obtain rfl := digest_of_find? loaded
  have hadvanced := h.advance (r.references.insert inner.owner attr.name target.digest) r.failure
  refine ⟨_, ⟨target.digest, target.attributes, r.stack, r.active⟩, h.step?_eq hok registry, rfl,
    ?_⟩
  rw [Resolver.meet_reference type loaded, Resolver.active_advance, if_neg hactive,
    Resolver.visited_advance, if_neg hvisited]
  exact
    { balanced := hadvanced.balanced.call hactive hvisited
      stack_eq := congrArg (· ++ [target.digest]) h.stack_eq
      calls_eq := rfl
      found_eq := rfl }

/-- When a call has dealt with its attributes, the outer one goes on. -/
theorem leave {called : BundleCall}
    (h : Pursues r (path ++ [digest]) called [] ({ inner with todo := attrs } :: outer) state)
    (hok : state.failure = none) :
    ∃ next, registry.step? r = some next ∧ Pursues next path inner attrs outer state := by
  refine ⟨_, step?_finish registry (h.failure_eq.trans hok) h.calls_eq rfl,
    h.balanced.finish h.calls_eq, ?_, rfl, h.found_eq⟩
  rw [Resolver.finish, h.stack_eq, List.dropLast_concat]

end Pursues

/-- A run over attributes is followed step by step; if it does not stop, the
innermost call has dealt with them, and the path and the outer calls are as
they were. -/
theorem Run.steps {path : List String} {owner : String} {attrs : List Attribute}
    {state final : Resolution} (run : registry.Run path owner attrs state final)
    (h : Pursues r path inner attrs outer state) (howner : inner.owner = owner)
    (hok : state.failure = none) :
    ∃ last, registry.Steps r last ∧ last.found = final ∧
      (final.failure = none → Pursues last path inner [] outer final) := by
  induction run generalizing r inner outer with
  | done => exact ⟨r, .refl, h.found_eq, fun _ => h⟩
  | primitive type _ ih =>
      obtain ⟨next, hstep, hnext⟩ := h.pass hok type
      obtain ⟨last, hsteps, hlast⟩ := ih hnext howner hok
      exact ⟨last, .head hstep hsteps, hlast⟩
  | unsupported type =>
      obtain rfl := h.found_eq
      have hstep := h.step?_eq hok registry
      rw [Resolver.meet_unsupported type] at hstep
      exact ⟨_, .single hstep, rfl, fun hnone => absurd hnone (Option.some_ne_none _)⟩
  | unresolved type missing =>
      obtain rfl := h.found_eq
      have hstep := h.step?_eq hok registry
      rw [Resolver.meet_unresolved type missing] at hstep
      exact ⟨_, .single hstep, rfl, fun hnone => absurd hnone (Option.some_ne_none _)⟩
  | cyclic type loaded onPath =>
      obtain rfl := h.found_eq
      have hstep := h.step?_eq hok registry
      rw [Resolver.meet_reference type loaded, Resolver.active_advance,
        if_pos (h.mem_active_iff.mpr onPath), Resolver.stack_advance, h.stack_eq, howner] at hstep
      exact ⟨_, .single hstep, rfl, fun hnone => absurd hnone (Option.some_ne_none _)⟩
  | known type loaded offPath entered _ ih =>
      obtain rfl := howner
      obtain ⟨next, hstep, hnext⟩ := h.revisit hok type loaded offPath entered
      obtain ⟨last, hsteps, hlast⟩ := ih hnext rfl hok
      exact ⟨last, .head hstep hsteps, hlast⟩
  | stopped type loaded offPath fresh _ failed ih =>
      obtain rfl := howner
      obtain ⟨next, called, hstep, hcalled, hnext⟩ := h.enter hok type loaded offPath fresh
      obtain ⟨last, hsteps, hlast, -⟩ := ih hnext hcalled hok
      exact ⟨last, .head hstep hsteps, hlast, fun hnone => absurd hnone failed⟩
  | entered type loaded offPath fresh _ succeeded _ ihInner ihRest =>
      obtain rfl := howner
      obtain ⟨next, called, hstep, hcalled, hnext⟩ := h.enter hok type loaded offPath fresh
      -- In, through the bundle by induction, out again, and on.
      obtain ⟨middle, hinner, -, hdone⟩ := ihInner hnext hcalled hok
      obtain ⟨back, hleave, hback⟩ := (hdone succeeded).leave succeeded
      obtain ⟨last, hsteps, hlast⟩ := ihRest hback rfl succeeded
      exact ⟨last, .head hstep (hinner.trans (.head hleave hsteps)), hlast⟩

/-! ## the run from a base -/

/-- The call for the base begins with all its attributes to deal with. -/
theorem pursues_start (base : Bundle) :
    Pursues (.start base) [base.digest] ⟨base.digest, base.attributes, [], ∅⟩ base.attributes []
      ⟨.empty, [base.digest], none⟩ where
  balanced := .start base
  stack_eq := rfl
  calls_eq := rfl
  found_eq := rfl

/-- The steps from a base end with what the resolution of the base finds. -/
theorem steps_resolution (registry : Registry) (base : Bundle) :
    ∃ last, registry.Steps (.start base) last ∧ registry.step? last = none ∧
      last.found = registry.resolution base := by
  obtain ⟨last, hsteps, hfound, hdone⟩ :=
    (resolution_run registry base).steps (pursues_start base) rfl rfl
  by_cases hok : (registry.resolution base).failure = none
  · have hlast := hdone hok
    have hstep := step?_finish registry (hlast.failure_eq.trans hok) hlast.calls_eq rfl
    exact ⟨_, hsteps.tail hstep, step?_of_calls rfl, hfound⟩
  · refine ⟨last, hsteps, step?_of_failure ?_, hfound⟩
    rwa [← hfound] at hok

/-- Whatever follows on a state leads to the state at which the steps end. -/
theorem steps_of_halted (hlast : registry.Steps r last) (hhalted : registry.step? last = none)
    (hnext : registry.Steps r next) : registry.Steps next last := by
  have hunique : Relator.RightUnique fun r next => registry.step? r = some next :=
    fun _ _ _ hfirst hsecond => Option.some.inj (hfirst.symm.trans hsecond)
  obtain hsteps | hsteps := hnext.total_of_right_unique hunique hlast
  · exact hsteps
  · obtain rfl | ⟨middle, hstep, -⟩ := hsteps.cases_head
    · exact .refl
    · rw [hhalted] at hstep
      contradiction

/-- **Each bundle is called for at most once.**  The steps of a resolution
end, with what `Registry.resolution` finds, and whatever state comes on the
way leads there.  In each state no digest was called for twice, so that there
were at most as many calls as there are digests among the dependencies and
one more for the base; the set holds just what the stack holds, without
repetition; and a call that ends leaves both as they were when it began. -/
theorem bundles_entered_once (base : Bundle) (dependencies : List Bundle) :
    let registry := ofList dependencies
    (∃ last, registry.Steps (.start base) last ∧ registry.step? last = none ∧
      last.found = registry.resolution base ∧
      ∀ r, registry.Steps (.start base) r → registry.Steps r last) ∧
    ∀ r, registry.Steps (.start base) r →
      r.entered.Nodup ∧
      r.entered.length ≤ (dependencies.map (·.digest)).toFinset.card + 1 ∧
      r.active = r.stack.toFinset ∧ r.stack.Nodup ∧
      ∀ next inner, registry.step? r = some next →
        (r.Begins next inner → inner.stackBefore = r.stack ∧ inner.activeBefore = r.active ∧
          next.entered = inner.owner :: r.entered) ∧
        (r.Ends next inner →
          next.stack = inner.stackBefore ∧ next.active = inner.activeBefore) := by
  intro registry
  obtain ⟨last, hlast, hhalted, hfound⟩ := registry.steps_resolution base
  refine ⟨⟨last, hlast, hhalted, hfound, fun r => steps_of_halted hlast hhalted⟩,
    fun r hr => ?_⟩
  have hbalanced := (Resolver.Balanced.start base).steps hr
  -- Only digests of loaded bundles and of the base are called for.
  have hsubset : r.entered.toFinset ⊆
      insert base.digest (dependencies.map (·.digest)).toFinset := by
    intro digest hmem
    rw [List.mem_toFinset] at hmem
    rw [Finset.mem_insert, List.mem_toFinset]
    refine (loaded_of_mem_entered hr digest hmem).imp_right ?_
    rintro ⟨bundle, hbundle⟩
    rw [find?_ofList] at hbundle
    have hloaded := List.mem_reverse.mp (List.mem_of_find?_eq_some hbundle)
    exact List.mem_map.mpr ⟨bundle, hloaded, by simpa using List.find?_some hbundle⟩
  refine ⟨hbalanced.nodup_entered, ?_, hbalanced.active_eq, hbalanced.nodup_stack,
    fun next inner hstep => ⟨stackBefore_of_begins hstep, restored_of_ends hstep hbalanced⟩⟩
  calc r.entered.length = r.entered.toFinset.card :=
        (List.toFinset_card_of_nodup hbalanced.nodup_entered).symm
    _ ≤ (insert base.digest (dependencies.map (·.digest)).toFinset).card :=
        Finset.card_le_card hsubset
    _ ≤ (dependencies.map (·.digest)).toFinset.card + 1 := Finset.card_insert_le _ _

/-- Two references to one bundle: the call for it leaves the base alone on the
stack, and there is no second one. -/
theorem bundles_entered_once_of_shared :
    let base : Bundle := ⟨"Eroot", [.bare "home" (.scalar (.reference "Eaddress")),
      .bare "work" (.scalar (.reference "Eaddress"))], .empty⟩
    let address : Bundle := ⟨"Eaddress", [.bare "city" (.scalar (.primitive .text))], .empty⟩
    let registry := ofList [address]
    ∃ r next inner, registry.Steps (.start base) r ∧ registry.step? r = some next ∧
      r.Ends next inner ∧ inner.owner = "Eaddress" ∧ inner.stackBefore = ["Eroot"] ∧
      next.stack = ["Eroot"] ∧ next.active = inner.activeBefore ∧
      (registry.resolution base).entered.Nodup ∧ (registry.resolution base).entered.length ≤ 2 := by
  intro base address registry
  obtain ⟨⟨last, hlast, -, hfound, -⟩, hsteps⟩ := bundles_entered_once base [address]
  have hrun : ((registry.step? (.start base)).bind fun first =>
      (registry.step? first).bind fun second => (registry.step? second).map fun third =>
        decide (second.Ends third ⟨"Eaddress", [], ["Eroot"], {"Eroot"}⟩)) = some true := by
    decide +kernel
  obtain ⟨first, hfirst, hrun⟩ := Option.bind_eq_some_iff.mp hrun
  obtain ⟨second, hsecond, hrun⟩ := Option.bind_eq_some_iff.mp hrun
  obtain ⟨third, hthird, hends⟩ := Option.map_eq_some_iff.mp hrun
  have hreached : registry.Steps (.start base) second := .head hfirst (.single hsecond)
  obtain ⟨-, -, -, -, hcalls⟩ := hsteps second hreached
  obtain ⟨hstack, hactive⟩ := (hcalls third _ hthird).2 (of_decide_eq_true hends)
  obtain ⟨hnodup, hlength, -⟩ := hsteps last hlast
  have hentered : last.entered = (registry.resolution base).entered :=
    congrArg Resolution.entered hfound
  exact ⟨second, third, _, hreached, hthird, of_decide_eq_true hends, rfl, rfl, hstack, hactive,
    hentered ▸ hnodup, hentered ▸ hlength⟩

end Registry

end FormCompiler

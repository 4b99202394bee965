import FormCompiler.Proofs.Resolution
import Mathlib.Data.Finset.Card
import Mathlib.Data.Finset.Dedup
import Mathlib.Data.Finset.Insert
import Mathlib.Data.List.Infix

/-!
# FormCompiler.Proofs.ResolverSteps

Resolution step by step.  A `Resolver` keeps the active path twice, as a
stack and as a set, and beside it the set of the bundles that it is done
with; a bundle that is called for is pushed, and popped when its attributes
have been dealt with.  `Registry.step?` takes one attribute, or ends a call.

What a step can do is said once, by `Registry.step?_cases`.  Each step keeps
a state `Resolver.Balanced` (`Resolver.Balanced.step`), and with it every run
(`Resolver.Balanced.steps`): the set holds what the stack holds, and a call
that ends leaves both as it found them (`Resolver.Balanced.restored`).
-/

namespace FormCompiler

/-! ## states -/

/-- A call for a bundle that is in progress. -/
structure BundleCall where
  owner : String
  /-- The attributes that are still to be dealt with. -/
  todo : List Attribute
  /-- The stack when the call began. -/
  stackBefore : List String
  /-- The set when the call began. -/
  activeBefore : Finset String
deriving DecidableEq

/-- A resolution in progress. -/
structure Resolver where
  references : References
  /-- The bundles whose calls have ended. -/
  visited : Finset String
  /-- The active path, in order. -/
  stack : List String
  /-- The active path, as a set. -/
  active : Finset String
  /-- The calls in progress, the innermost first. -/
  calls : List BundleCall
  /-- The digests of all calls so far, the last one first. -/
  entered : List String
  /-- What stopped the resolution. -/
  failure : Option CompileError

namespace Resolver

def call (r : Resolver) (bundle : Bundle) : Resolver :=
  { r with
    stack := r.stack ++ [bundle.digest]
    active := insert bundle.digest r.active
    calls := ⟨bundle.digest, bundle.attributes, r.stack, r.active⟩ :: r.calls
    entered := bundle.digest :: r.entered }

def finish (r : Resolver) (inner : BundleCall) (outer : List BundleCall) : Resolver :=
  { r with
    stack := r.stack.dropLast
    active := r.active.erase inner.owner
    visited := insert inner.owner r.visited
    calls := outer }

/-- Leaves the innermost call with fewer attributes to deal with. -/
def advance (r : Resolver) (inner : BundleCall) (todo : List Attribute)
    (outer : List BundleCall) : Resolver :=
  { r with calls := { inner with todo } :: outer }

def record (r : Resolver) (owner name target : String) : Resolver :=
  { r with references := r.references.insert owner name target }

def fail (r : Resolver) (error : CompileError) : Resolver := { r with failure := some error }

/-- Deals with an attribute of a bundle. -/
def meet (r : Resolver) (registry : Registry) (owner : String) (attr : Attribute) : Resolver :=
  match attr.type.base with
  | .primitive _ => r
  | .unrecognized _ => r.fail (.unsupportedType attr.name attr.type)
  | .reference digest =>
    match registry.find? digest with
    | none => r.fail (.unresolvedReference attr.name digest)
    | some target =>
      let recorded := r.record owner attr.name digest
      if digest ∈ r.active then recorded.fail (.cyclicReference (r.stack ++ [digest]))
      else if digest ∈ r.visited then recorded
      else recorded.call target

def start (base : Bundle) : Resolver := call ⟨.empty, ∅, [], ∅, [], [], none⟩ base

@[simp] theorem active_advance (r : Resolver) (inner : BundleCall) (todo : List Attribute)
    (outer : List BundleCall) : (r.advance inner todo outer).active = r.active := rfl

@[simp] theorem visited_advance (r : Resolver) (inner : BundleCall) (todo : List Attribute)
    (outer : List BundleCall) : (r.advance inner todo outer).visited = r.visited := rfl

@[simp] theorem stack_advance (r : Resolver) (inner : BundleCall) (todo : List Attribute)
    (outer : List BundleCall) : (r.advance inner todo outer).stack = r.stack := rfl

def found (r : Resolver) : Resolution := ⟨r.references, r.entered, r.failure⟩

end Resolver

namespace Registry

/-- The next state, unless the resolution has ended or stopped. -/
def step? (registry : Registry) (r : Resolver) : Option Resolver :=
  match r.failure, r.calls with
  | none, inner :: outer =>
    match inner.todo with
    | [] => some (r.finish inner outer)
    | attr :: todo => some ((r.advance inner todo outer).meet registry inner.owner attr)
  | _, _ => none

/-- The second state follows on the first one after some steps. -/
def Steps (registry : Registry) : Resolver → Resolver → Prop :=
  Relation.ReflTransGen fun r next => registry.step? r = some next

end Registry

/-! ## what a step can do -/

section Step

variable {registry : Registry} {r next : Resolver} {inner : BundleCall}
  {outer : List BundleCall} {owner : String} {attr : Attribute} {todo : List Attribute}

/-- An attribute changes the references and the failure only, or it calls for
a loaded bundle that is neither active nor done with. -/
theorem Resolver.meet_cases (r : Resolver) (registry : Registry) (owner : String)
    (attr : Attribute) :
    (∃ references failure, r.meet registry owner attr = { r with references, failure }) ∨
      ∃ digest target, registry.find? digest = some target ∧ digest ∉ r.active ∧
        digest ∉ r.visited ∧
        r.meet registry owner attr = (r.record owner attr.name digest).call target := by
  unfold meet
  split
  · exact .inl ⟨r.references, r.failure, rfl⟩
  · exact .inl ⟨r.references, _, rfl⟩
  · split
    · exact .inl ⟨r.references, _, rfl⟩
    · next target hloaded =>
        dsimp only
        split
        · exact .inl ⟨_, _, rfl⟩
        · next hactive =>
            split
            · exact .inl ⟨_, r.failure, rfl⟩
            · next hvisited => exact .inr ⟨_, target, hloaded, hactive, hvisited, rfl⟩

namespace Resolver

/-! ### attributes by their types -/

variable {digest : String} {target : Bundle}

theorem meet_primitive {kind : Primitive} (type : attr.type.base = .primitive kind) :
    r.meet registry owner attr = r := by
  simp only [meet, type]

theorem meet_unsupported {raw : String} (type : attr.type.base = .unrecognized raw) :
    r.meet registry owner attr = r.fail (.unsupportedType attr.name attr.type) := by
  simp only [meet, type]

/-- A reference to a bundle that is not loaded stops the resolution, and is not
recorded. -/
theorem meet_unresolved (type : attr.type.base = .reference digest)
    (missing : registry.find? digest = none) :
    r.meet registry owner attr = r.fail (.unresolvedReference attr.name digest) := by
  simp only [meet, type, missing]

/-- A reference to a loaded bundle is recorded before anything else. -/
theorem meet_reference (type : attr.type.base = .reference digest)
    (loaded : registry.find? digest = some target) :
    r.meet registry owner attr =
      if digest ∈ r.active then
        (r.record owner attr.name digest).fail (.cyclicReference (r.stack ++ [digest]))
      else if digest ∈ r.visited then r.record owner attr.name digest
      else (r.record owner attr.name digest).call target := by
  simp only [meet, type, loaded]

end Resolver

namespace Registry

/-- A call without attributes left is ended. -/
theorem step?_finish (registry : Registry) (hok : r.failure = none)
    (hcalls : r.calls = inner :: outer) (htodo : inner.todo = []) :
    registry.step? r = some (r.finish inner outer) := by
  simp only [step?, hok, hcalls, htodo]

/-- Otherwise the first attribute that is left is dealt with. -/
theorem step?_meet (registry : Registry) (hok : r.failure = none)
    (hcalls : r.calls = inner :: outer) (htodo : inner.todo = attr :: todo) :
    registry.step? r = some ((r.advance inner todo outer).meet registry inner.owner attr) := by
  simp only [step?, hok, hcalls, htodo]

theorem step?_of_failure (h : r.failure ≠ none) : registry.step? r = none := by
  obtain ⟨error, herror⟩ := Option.ne_none_iff_exists'.mp h
  simp only [step?, herror]

theorem step?_of_calls (h : r.calls = []) : registry.step? r = none := by
  unfold step?
  rw [h]
  cases r.failure <;> rfl

/-- A step ends the innermost call, or takes one attribute from it; that
attribute may begin a call. -/
theorem step?_cases (h : registry.step? r = some next) :
    ∃ inner outer, r.calls = inner :: outer ∧
      (next = r.finish inner outer ∨
        ∃ todo, (∃ references failure,
            next = { r.advance inner todo outer with references, failure }) ∨
          ∃ digest target name, registry.find? digest = some target ∧ digest ∉ r.active ∧
            digest ∉ r.visited ∧
            next = ((r.advance inner todo outer).record inner.owner name digest).call target) := by
  unfold step? at h
  split at h
  · next inner outer _ hcalls =>
      refine ⟨inner, outer, hcalls, ?_⟩
      split at h
      · exact .inl (Option.some.inj h).symm
      · next attr todo htodo =>
          obtain rfl := Option.some.inj h
          refine .inr ⟨todo, ?_⟩
          obtain hquiet | ⟨digest, target, hloaded, hactive, hvisited, henter⟩ :=
            (r.advance inner todo outer).meet_cases registry inner.owner attr
          · exact .inl hquiet
          · exact .inr ⟨digest, target, attr.name, hloaded, hactive, hvisited, henter⟩
  · contradiction

end Registry

end Step

/-! ## what every step keeps -/

namespace Resolver

/-- The stack holds the owners of the calls in progress, its set holds what
it holds, each call remembers both without itself and the calls within it,
and whoever was called for is done with or active. -/
structure Balanced (r : Resolver) : Prop where
  stack_eq : r.stack = (r.calls.map (·.owner)).reverse
  active_eq : r.active = r.stack.toFinset
  nodup_stack : r.stack.Nodup
  before : ∀ inner outer, inner :: outer <:+ r.calls →
    inner.stackBefore = (outer.map (·.owner)).reverse ∧
      inner.activeBefore = inner.stackBefore.toFinset
  mem_entered : ∀ digest, digest ∈ r.entered ↔ digest ∈ r.visited ∨ digest ∈ r.stack
  nodup_entered : r.entered.Nodup

namespace Balanced

variable {r : Resolver} {inner : BundleCall} {outer : List BundleCall} {digest : String}

/-- In a balanced state the set holds what the stack holds. -/
theorem mem_active_iff (h : r.Balanced) : digest ∈ r.active ↔ digest ∈ r.stack := by
  rw [h.active_eq, List.mem_toFinset]

/-- The innermost call is for the last digest of the stack. -/
theorem stack_eq_concat (h : r.Balanced) (hcalls : r.calls = inner :: outer) :
    r.stack = inner.stackBefore ++ [inner.owner] := by
  rw [h.stack_eq, hcalls, (h.before inner outer (by rw [hcalls])).1]
  simp

theorem start (base : Bundle) : (start base).Balanced where
  stack_eq := rfl
  active_eq := rfl
  nodup_stack := List.nodup_singleton _
  before inner outer hsuffix := by
    obtain heq | hnil := List.suffix_cons_iff.mp hsuffix
    · obtain ⟨rfl, rfl⟩ := List.cons.inj heq
      exact ⟨rfl, rfl⟩
    · exact absurd (List.suffix_nil.mp hnil) (List.cons_ne_nil _ _)
  mem_entered digest := by simp [Resolver.start, call]
  nodup_entered := List.nodup_singleton _

/-- Recording references and failures keeps a state balanced. -/
theorem advance (h : r.Balanced) (hcalls : r.calls = inner :: outer) (todo : List Attribute)
    (references : References) (failure : Option CompileError) :
    Balanced { r.advance inner todo outer with references, failure } where
  stack_eq := by
    rw [Resolver.advance, h.stack_eq, hcalls]
    rfl
  active_eq := h.active_eq
  nodup_stack := h.nodup_stack
  before call calls hsuffix := by
    obtain heq | hsuffix := List.suffix_cons_iff.mp hsuffix
    · obtain ⟨rfl, rfl⟩ := List.cons.inj heq
      exact h.before inner calls (by rw [hcalls])
    · exact h.before call calls (hcalls ▸ hsuffix.trans (List.suffix_cons inner outer))
  mem_entered := h.mem_entered
  nodup_entered := h.nodup_entered

/-- Calling for a bundle that is neither active nor visited keeps a state
balanced. -/
theorem call (h : r.Balanced) {bundle : Bundle} (hactive : bundle.digest ∉ r.active)
    (hvisited : bundle.digest ∉ r.visited) : (r.call bundle).Balanced where
  stack_eq := by simp [Resolver.call, h.stack_eq]
  active_eq := by
    ext digest
    simp [Resolver.call, h.mem_active_iff]
  nodup_stack := by
    rw [h.mem_active_iff] at hactive
    exact List.nodup_append.mpr ⟨h.nodup_stack, List.nodup_singleton _, by
      rintro digest hmem _ hlast rfl
      exact hactive (List.mem_singleton.mp hlast ▸ hmem)⟩
  before inner outer hsuffix := by
    obtain heq | hsuffix := List.suffix_cons_iff.mp hsuffix
    · obtain ⟨rfl, rfl⟩ := List.cons.inj heq
      exact ⟨h.stack_eq, h.active_eq⟩
    · exact h.before inner outer hsuffix
  mem_entered digest := by
    simp only [Resolver.call, List.mem_cons, List.mem_append, List.not_mem_nil, or_false,
      h.mem_entered]
    tauto
  nodup_entered := by
    refine List.nodup_cons.mpr ⟨fun hmem => ?_, h.nodup_entered⟩
    obtain hmem | hmem := (h.mem_entered _).mp hmem
    · exact hvisited hmem
    · exact hactive (h.mem_active_iff.mpr hmem)

/-- Nothing is called for within its own call. -/
theorem notMem_stackBefore (h : r.Balanced) (hcalls : r.calls = inner :: outer) :
    inner.owner ∉ inner.stackBefore := by
  have hnodup := h.nodup_stack
  rw [h.stack_eq_concat hcalls, List.nodup_append] at hnodup
  exact fun hmem => hnodup.2.2 _ hmem _ (List.mem_singleton_self _) rfl

/-- A call that ends leaves the stack and its set as it found them. -/
theorem restored (h : r.Balanced) (hcalls : r.calls = inner :: outer) :
    (r.finish inner outer).stack = inner.stackBefore ∧
      (r.finish inner outer).active = inner.activeBefore := by
  have hstack := h.stack_eq_concat hcalls
  constructor
  · rw [finish, hstack, List.dropLast_concat]
  · rw [finish, h.active_eq, hstack, (h.before inner outer (by rw [hcalls])).2]
    ext digest
    have := h.notMem_stackBefore hcalls
    simp only [Finset.mem_erase, List.mem_toFinset, List.mem_append, List.mem_singleton]
    grind

theorem finish (h : r.Balanced) (hcalls : r.calls = inner :: outer) :
    (r.finish inner outer).Balanced := by
  obtain ⟨hstack, hactive⟩ := h.restored hcalls
  obtain ⟨hbefore, hset⟩ := h.before inner outer (by rw [hcalls])
  have hconcat := h.stack_eq_concat hcalls
  exact
    { stack_eq := hstack.trans hbefore
      active_eq := by rw [hactive, hstack, hset]
      nodup_stack := h.nodup_stack.sublist (List.dropLast_sublist _)
      before := fun call calls hsuffix =>
        h.before call calls (hcalls ▸ hsuffix.trans (List.suffix_cons inner outer))
      mem_entered := fun digest => by
        rw [hstack]
        simp only [Resolver.finish, Finset.mem_insert, h.mem_entered, hconcat, List.mem_append,
          List.mem_singleton]
        tauto
      nodup_entered := h.nodup_entered }

theorem step {registry : Registry} {next : Resolver} (h : r.Balanced)
    (hstep : registry.step? r = some next) : next.Balanced := by
  obtain ⟨inner, outer, hcalls, rfl | ⟨todo, ⟨references, failure, rfl⟩ |
    ⟨digest, target, name, hloaded, hactive, hvisited, rfl⟩⟩⟩ := Registry.step?_cases hstep
  · exact h.finish hcalls
  · exact h.advance hcalls todo references failure
  · obtain rfl := Registry.digest_of_find? hloaded
    exact (h.advance hcalls todo _ r.failure).call hactive hvisited

/-- So every state that is reached from a balanced one is balanced. -/
theorem steps {registry : Registry} {last : Resolver} (h : r.Balanced)
    (hsteps : registry.Steps r last) : last.Balanced := by
  induction hsteps with
  | refl => exact h
  | tail _ hstep ih => exact ih.step hstep

end Balanced

end Resolver

end FormCompiler

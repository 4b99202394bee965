import FormCompiler.Proofs.Overlay
import FormCompiler.Proofs.PageDerivation

/-!
# FormCompiler.Proofs.ThreadedWalks

Walks that change side tables as they go.  A `Threaded` walk takes the
tables through all of its steps and enters each line at once, while a `Walk`
returns what it wrote down, to be replayed when it is over.  Both do the
same to all tables (`Walker.follows_threadedField`,
`Walker.follows_threadedEntries`, `Walker.follows_threadedTopLevel`), since
no step looks at the tables.

So the tables that a walk begins with do not matter to how it ends, and are
found below what the walk does to empty tables
(`Walker.threaded_eq_overlay`).
-/

namespace FormCompiler

/-- A walk that takes side tables along. -/
abbrev Threaded := ExceptT CompileError (StateM SideTables)

namespace Threaded

variable {α β : Type}

/-- How a walk over given tables ended, and the tables after it. -/
def runOn (walk : Threaded α) (tables : SideTables) : Except CompileError α × SideTables :=
  walk.run.run tables

def ofExcept (result : Except CompileError α) : Threaded α := ExceptT.mk (pure result)

def record (entry : JournalEntry) : Threaded Unit := modify (·.enter entry)

/-- The threaded walk does to all tables what the journal of the other one
does. -/
def Follows (threaded : Threaded α) (walk : Walk α) : Prop :=
  ∀ tables, threaded.runOn tables = walk.runOn tables

/-! ## steps that follow each other -/

theorem follows_pure (a : α) : (pure a : Threaded α).Follows (pure a) := fun _ => rfl

theorem follows_record (entry : JournalEntry) : (record entry).Follows (Walk.write entry) :=
  fun _ => rfl

theorem follows_ofExcept (result : Except CompileError α) :
    (ofExcept result).Follows (Walk.ofExcept result) := fun _ => rfl

/-- A walk that writes nothing only has an outcome. -/
theorem follows_outcome {walk : Walk α} (h : walk.journal = []) :
    (ofExcept walk.outcome).Follows walk := by
  intro tables
  rw [Walk.runOn, h]
  rfl

/-- Steps that follow each other one by one do so together. -/
theorem Follows.bind {threaded : Threaded α} {walk : Walk α} {next : α → Threaded β}
    {next' : α → Walk β} (hwalk : threaded.Follows walk)
    (hnext : ∀ a, (next a).Follows (next' a)) :
    (threaded >>= next).Follows (walk >>= next') := by
  intro tables
  have hstep : (threaded >>= next).runOn tables =
      match threaded.runOn tables with
      | (.ok a, after) => (next a).runOn after
      | (.error error, after) => (.error error, after) := by
    simp only [runOn, ExceptT.run_bind, StateT.run_bind]
    generalize threaded.run.run tables = ended
    obtain ⟨outcome, after⟩ := ended
    cases outcome <;> rfl
  rw [hstep, hwalk tables]
  obtain ⟨outcome, journal⟩ := walk
  cases outcome with
  | error error => rfl
  | ok a =>
      refine (hnext a _).trans ?_
      rw [Walk.bind_ok, Walk.runOn, Walk.runOn, SideTables.replay_append]

/-- Notices are not seen in the tables. -/
theorem Follows.after_notify {threaded : Threaded α} {walk : Walk α} (h : threaded.Follows walk)
    (notices : List Notice) : threaded.Follows (Walk.notify notices >>= fun _ => walk) := by
  intro tables
  rw [Walk.notify, Walk.bind_ok, Walk.runOn, SideTables.replay_append, SideTables.replay_notices]
  exact h tables

theorem follows_mapM {f : α → Threaded β} {f' : α → Walk β} {xs : List α}
    (h : ∀ x, (f x).Follows (f' x)) : (xs.mapM f).Follows (xs.mapM f') := by
  induction xs with
  | nil => exact follows_pure []
  | cons x xs ih =>
      rw [List.mapM_cons, List.mapM_cons]
      exact (h x).bind fun y => ih.bind fun ys => follows_pure (y :: ys)

/-- What a threaded walk does to tables, it could do to empty tables for the
same languages that are laid over them afterwards. -/
theorem Follows.runOn_eq_overlay {threaded : Threaded α} {walk : Walk α}
    (h : threaded.Follows walk) {tables : SideTables} {languages : List String}
    (hlanguages : ∀ lang, (tables.locales.find? lang).isSome ↔ lang ∈ languages)
    (hsorted : tables.identifiers.Sorted) :
    threaded.runOn tables =
      ((threaded.runOn (.forLanguages languages)).1,
        tables.overlay (threaded.runOn (.forLanguages languages)).2) := by
  rw [h tables, h (.forLanguages languages)]
  exact congrArg (Prod.mk _) (SideTables.replay_eq_overlay hlanguages hsorted _)

end Threaded

namespace Walker

variable (w : Walker)

/-! ## fields -/

def threadedAttribute (bundle : Bundle) (name : String) : Threaded Attribute :=
  .ofExcept (findAttribute bundle name).outcome

def threadedDependency (owner : Bundle) (name : String) : Threaded Bundle :=
  .ofExcept (w.dependency owner name).outcome

def threadedFollowUp (build : Attribute → Threaded FieldEntry) (dep : Bundle)
    (path answer : Path) (followUp : FollowUp) : Threaded FieldEntry := do
  let attr ← threadedAttribute dep followUp.name
  let entry ← build attr
  if w.conditionals.contains (path.child entry.name).render then return entry
  else
    return { entry with condition := some (answerRule answer followUp.option followUp.effects) }

/-- The answer of a question and the page of further fields. -/
def threadedParts (build : Attribute → Threaded FieldEntry) (dep : Bundle) (path : Path)
    (optional : Bool) (hints : Hints) : Threaded (FieldEntry × Option PageNode) := do
  let attr ← threadedAttribute dep hints.answerName
  let answer ← build attr
  let extras ← hints.followUps.mapM (w.threadedFollowUp build dep path (path.child attr.name))
  return ({ answer with isOptional := answer.isOptional && optional }, extrasPage path extras)

/-- The entry of an attribute, with its texts entered into the tables. -/
def threadedField (bundle : Bundle) (above : Path) (declared : Attribute) :
    Threaded FieldEntry := do
  let path := above.child declared.name
  let attr := w.prefilled above declared
  let plain ← Threaded.ofExcept (w.plainDescriptor above declared)
  let descriptor ←
    match _h : w.question? (above.child declared.name), declared.type.reference? with
    | some hints, some _ => do
      let dep ← w.threadedDependency bundle declared.name
      let (answer, extras) ← w.threadedParts
        (fun inner => threadedField dep (above.child declared.name) inner) dep path attr.isOptional
        hints
      pure (plain.attach answer extras)
    | _, _ => pure plain
  Threaded.record (.attributeTexts path attr)
  return w.entryOf above declared descriptor
termination_by w.room (above.child declared.name)
decreasing_by exact room_child_lt (by simp [Path.isRoot]) _h _

/-! ## pages -/

/-- Enters an entry for each requested language. -/
def threadedTitles (entry : String → JournalEntry) : Threaded Unit :=
  w.presentation.languages.forM fun lang => Threaded.record (entry lang)

/-- The identifier of the items of the list at a path, entered into the
tables, and the hidden field for it. -/
def threadedIdentifier (path : Path) : Threaded (Option FieldEntry) :=
  match w.identifierRequest? path with
  | none => return none
  | some (hints, id) => do
    let format ← Threaded.ofExcept (identifierFormat path hints).outcome
    Threaded.record (.identifier path ⟨id, format⟩)
    return some (identifierEntry format hints)

def threadedList (attr : Attribute) (path : Path) (elements : Threaded (List Node)) :
    Threaded FieldEntry := do
  let identifier ← w.threadedIdentifier path
  let nodes ← elements
  return w.listOf attr path identifier nodes

/-- What stands in the section of a page at `path`. -/
def threadedSection (address : PageAddress) (bundle : Bundle) (path : Path)
    (within : Bundle → Threaded (List Node)) : Threaded (List Node) := do
  let key := sectionTitleKey address.name
  match address with
  | .synthetic name => do
    w.threadedTitles (w.syntheticTitleEntry name key)
    within bundle
  | .outdated name | .reference name => do
    let attr ← threadedAttribute bundle name
    w.threadedTitles (referenceTitleEntry attr key)
    if attr.type.reference?.isNone then throw (.notAReference attr.name attr.type)
    else
      let dep ← w.threadedDependency bundle name
      if attr.type.isArray then
        let list ← w.threadedList attr path (within dep)
        return [.field list]
      else within dep

mutual

/-- The nodes of entries below `above`. -/
def threadedEntries : List PageEntry → Bundle → Path → Threaded (List Node)
  | [], _, _ => return []
  | entry :: entries, bundle, above => do
    let node ← threadedEntry entry bundle above
    let nodes ← threadedEntries entries bundle above
    return node :: nodes

def threadedEntry : PageEntry → Bundle → Path → Threaded Node
  | .field name, bundle, above => do
    let attr ← threadedAttribute bundle name
    let entry ← w.threadedField bundle above attr
    return .field entry
  | .page spec, bundle, above => do
    let page ← threadedNested spec bundle above
    return .page page

def threadedNested : PageSpec → Bundle → Path → Threaded PageNode
  | ⟨name, reference, synthetic, entries⟩, bundle, above => do
    let address ← Threaded.ofExcept (PageSpec.address ⟨name, reference, synthetic, entries⟩)
    let path := above.child address.name
    let fields ← w.threadedSection address bundle path fun dep => threadedEntries entries dep path
    return w.sectionNode path address.name fields

end

def threadedTopLevel (page : String) (spec : PageSpec) (bundle : Bundle) : Threaded PageNode := do
  let _ ← Threaded.ofExcept spec.address
  w.threadedTitles (w.pageTitleEntry page)
  let fields ← w.threadedEntries spec.entries bundle .root
  return ⟨.page, page, page, none, fields⟩

/-! ## threaded walks follow the others -/

theorem follows_threadedAttribute (bundle : Bundle) (name : String) :
    (threadedAttribute bundle name).Follows (findAttribute bundle name) := by
  refine Threaded.follows_outcome ?_
  unfold findAttribute
  split <;> rfl

theorem follows_threadedDependency (owner : Bundle) (name : String) :
    (w.threadedDependency owner name).Follows (w.dependency owner name) := by
  refine Threaded.follows_outcome ?_
  unfold dependency
  split <;> rfl

section Parts

variable {build : Attribute → Threaded FieldEntry} {build' : Attribute → Walk FieldEntry}
  (h : ∀ attr, (build attr).Follows (build' attr)) (dep : Bundle) (path : Path)
include h

/-- A further field does what building its attribute does. -/
theorem follows_threadedFollowUp (answer : Path) (followUp : FollowUp) :
    (w.threadedFollowUp build dep path answer followUp).Follows
      (w.followUpEntry build' dep path answer followUp) := by
  rw [threadedFollowUp, followUpEntry]
  refine (follows_threadedAttribute dep _).bind fun attr => (h attr).bind fun entry => ?_
  split
  · exact Threaded.follows_pure _
  · exact Threaded.follows_pure _

/-- The parts of a question do what building their attributes does. -/
theorem follows_threadedParts (optional : Bool) (hints : Hints) :
    (w.threadedParts build dep path optional hints).Follows
      (w.questionParts build' dep path optional hints) := by
  rw [threadedParts, questionParts]
  refine (follows_threadedAttribute dep _).bind fun attr => (h attr).bind fun answer => ?_
  refine (Threaded.follows_mapM fun followUp => ?_).bind fun extras => Threaded.follows_pure _
  exact w.follows_threadedFollowUp h dep path (path.child attr.name) followUp

end Parts

/-- The induction is on the room for questions. -/
theorem follows_threadedField (bundle : Bundle) (above : Path) (declared : Attribute) :
    (w.threadedField bundle above declared).Follows (w.fieldEntry bundle above declared) := by
  induction bundle, above, declared using fieldEntry_induction w with
  | step bundle above declared ih =>
      rw [threadedField, fieldEntry_eq]
      refine Threaded.Follows.after_notify ?_ _
      refine (Threaded.follows_ofExcept _).bind fun plain => ?_
      have hwritten : ∀ descriptor, (do
          Threaded.record (.attributeTexts (above.child declared.name) (w.prefilled above declared))
          return w.entryOf above declared descriptor).Follows (do
          Walk.write (.attributeTexts (above.child declared.name) (w.prefilled above declared))
          return w.entryOf above declared descriptor) := fun descriptor =>
        (Threaded.follows_record _).bind fun _ => Threaded.follows_pure _
      rw [answered]
      split
      · next hints digest hasked hrefers =>
          simp only [hasked, hrefers, bind_assoc]
          refine (w.follows_threadedDependency bundle declared.name).bind fun dep => ?_
          refine (w.follows_threadedParts (ih hints hasked dep) dep _ _ hints).bind fun parts => ?_
          exact (Threaded.follows_pure _).bind hwritten
      · next hnot =>
          split
          · next hints digest hasked hrefers => exact (hnot hints digest hasked hrefers).elim
          · exact (Threaded.follows_pure plain).bind hwritten

/-! ### pages -/

theorem follows_threadedTitles (entry : String → JournalEntry) :
    (w.threadedTitles entry).Follows (w.writeTitles entry) := by
  unfold threadedTitles writeTitles
  induction w.presentation.languages with
  | nil => exact fun tables => rfl
  | cons lang languages ih =>
      exact (Threaded.follows_record _).bind fun _ => ih

theorem follows_threadedIdentifier (path : Path) :
    (w.threadedIdentifier path).Follows (w.listIdentifier path) := by
  unfold threadedIdentifier listIdentifier
  cases w.identifierRequest? path with
  | none => exact Threaded.follows_pure _
  | some request =>
      obtain ⟨hints, id⟩ := request
      have hformat : (identifierFormat path hints).journal = [] := by
        unfold identifierFormat
        split <;> rfl
      refine (Threaded.follows_outcome hformat).bind fun format => ?_
      exact (Threaded.follows_record _).bind fun _ => Threaded.follows_pure _

/-- A list enters its identifier before its elements enter theirs. -/
theorem follows_threadedList {elements : Threaded (List Node)} {elements' : Walk (List Node)}
    (h : elements.Follows elements') (attr : Attribute) (path : Path) :
    (w.threadedList attr path elements).Follows (w.listEntry attr path elements') := by
  rw [threadedList, listEntry]
  exact (w.follows_threadedIdentifier path).bind fun identifier => h.bind fun nodes =>
    Threaded.follows_pure _

/-- A section does what its entries do, over the bundle that its address leads
to. -/
theorem follows_threadedSection {within : Bundle → Threaded (List Node)}
    {within' : Bundle → Walk (List Node)} (h : ∀ dep, (within dep).Follows (within' dep))
    (address : PageAddress) (bundle : Bundle) (path : Path) :
    (w.threadedSection address bundle path within).Follows
      (w.sectionFields address bundle path within') := by
  unfold threadedSection sectionFields
  cases address with
  | synthetic name => exact (w.follows_threadedTitles _).bind fun _ => h bundle
  | outdated name | reference name =>
      refine Threaded.Follows.after_notify ?_ _
      refine (follows_threadedAttribute bundle name).bind fun attr => ?_
      have htitles := (w.follows_threadedTitles
        (referenceTitleEntry attr (sectionTitleKey name))).after_notify
          (if attr.labels.isEmpty then [.unlabelled attr.name] else [])
      refine htitles.bind fun _ => ?_
      split
      · exact fun tables => rfl
      · refine (w.follows_threadedDependency bundle name).bind fun dep => ?_
        split
        · exact (w.follows_threadedList (h dep) attr path).bind fun list =>
            Threaded.follows_pure _
        · exact h dep

mutual

/-- The entries of a page follow each other. -/
theorem follows_threadedEntries : (entries : List PageEntry) → (bundle : Bundle) →
    (above : Path) → (w.threadedEntries entries bundle above).Follows
      (w.walkEntries entries bundle above)
  | [], bundle, above => by
      rw [threadedEntries, walkEntries]
      exact Threaded.follows_pure []
  | entry :: entries, bundle, above => by
      rw [threadedEntries, walkEntries]
      exact (follows_threadedEntry entry bundle above).bind fun node =>
        (follows_threadedEntries entries bundle above).bind fun nodes =>
          Threaded.follows_pure (node :: nodes)

theorem follows_threadedEntry : (entry : PageEntry) → (bundle : Bundle) → (above : Path) →
    (w.threadedEntry entry bundle above).Follows (w.walkEntry entry bundle above)
  | .field name, bundle, above => by
      rw [threadedEntry, walkEntry]
      exact (follows_threadedAttribute bundle name).bind fun attr =>
        (w.follows_threadedField bundle above attr).bind fun entry => Threaded.follows_pure _
  | .page spec, bundle, above => by
      rw [threadedEntry, walkEntry]
      exact (follows_threadedNested spec bundle above).bind fun page => Threaded.follows_pure _

/-- A nested page writes its titles before its entries write theirs. -/
theorem follows_threadedNested : (spec : PageSpec) → (bundle : Bundle) → (above : Path) →
    (w.threadedNested spec bundle above).Follows (w.nestedPage spec bundle above)
  | ⟨name, reference, synthetic, entries⟩, bundle, above => by
      rw [threadedNested, nestedPage]
      refine (Threaded.follows_ofExcept _).bind fun address => ?_
      rw [sectionPage]
      have hwithin := follows_threadedEntries entries
      refine (w.follows_threadedSection (fun dep => ?_) address bundle _).bind fun fields =>
        Threaded.follows_pure _
      exact hwithin dep _

end

/-- A page of the page order does to tables what its walk has written down. -/
theorem follows_threadedTopLevel (page : String) (spec : PageSpec) (bundle : Bundle) :
    (w.threadedTopLevel page spec bundle).Follows (w.topLevelPage page spec bundle) := by
  rw [threadedTopLevel, topLevelPage]
  refine (Threaded.follows_ofExcept _).bind fun address => ?_
  rw [warnOutdated]
  refine Threaded.Follows.after_notify ?_ _
  refine (w.follows_threadedTitles _).bind fun _ => ?_
  exact (w.follows_threadedEntries spec.entries bundle .root).bind fun fields =>
    Threaded.follows_pure _

/-! ## the tables that a walk begins with -/

/-- The tables that a walk begins with do not change how it ends, and what
it leaves behind is what it makes of empty tables for the same languages,
laid over the tables that were there.  These may be for any languages; like
all tables that identifiers are recorded into, they keep the children of a
node in key order. -/
theorem threaded_eq_overlay {tables : SideTables} {languages : List String}
    (hlanguages : ∀ lang, (tables.locales.find? lang).isSome ↔ lang ∈ languages)
    (hsorted : tables.identifiers.Sorted) :
    (∀ entries bundle above,
      let threaded := w.threadedEntries entries bundle above
      let fresh := threaded.runOn (.forLanguages languages)
      threaded.runOn tables = (w.walkEntries entries bundle above).runOn tables ∧
      threaded.runOn tables = (fresh.1, tables.overlay fresh.2)) ∧
    (∀ bundle above declared,
      let threaded := w.threadedField bundle above declared
      let fresh := threaded.runOn (.forLanguages languages)
      threaded.runOn tables = (w.fieldEntry bundle above declared).runOn tables ∧
      threaded.runOn tables = (fresh.1, tables.overlay fresh.2)) ∧
    ∀ page spec bundle,
      let threaded := w.threadedTopLevel page spec bundle
      let fresh := threaded.runOn (.forLanguages languages)
      threaded.runOn tables = (w.topLevelPage page spec bundle).runOn tables ∧
      threaded.runOn tables = (fresh.1, tables.overlay fresh.2) := by
  refine ⟨fun entries bundle above => ?_, fun bundle above declared => ?_,
    fun page spec bundle => ?_⟩
  · have hfollows := w.follows_threadedEntries entries bundle above
    exact ⟨hfollows tables, hfollows.runOn_eq_overlay hlanguages hsorted⟩
  · have hfollows := w.follows_threadedField bundle above declared
    exact ⟨hfollows tables, hfollows.runOn_eq_overlay hlanguages hsorted⟩
  · have hfollows := w.follows_threadedTopLevel page spec bundle
    exact ⟨hfollows tables, hfollows.runOn_eq_overlay hlanguages hsorted⟩

/-- A page with a list, walked over with tables that hold a title and
another identifier of the list. -/
theorem threaded_eq_overlay_of_list :
    let order : Bundle := ⟨"Eorder", [.bare "sku" (.scalar (.primitive .text))], .empty⟩
    let person : Bundle := ⟨"Eperson", [.bare "orders" (.array (.reference "Eorder"))], .empty⟩
    let registry := Registry.ofList [order]
    let w : Walker :=
      { presentation :=
          { bundleDigest := "Eperson", digest := none, languages := ["eng"], pages := []
            pageOrder := [], pageLabels := .empty, interactions := [] }
        interaction := some ⟨"web", "capture", .ofList [("orders",
          { Hints.none with
            widget := some "list", id := some (.boolean true)
            idFormat := some (.string "bigint") })]⟩
        registry
        references := (registry.resolution person).references
        conditionals := .empty, readonly := [], now := .unixEpoch }
    let entries := [PageEntry.page ⟨none, some "orders", none, [.field "sku"]⟩]
    let tables := (SideTables.forLanguages ["eng", "deu"]).replay
      [.title "eng" "main" "Person", .identifier (Path.parse "orders") ⟨.boolean true, .uuid⟩]
    let fresh := (w.threadedEntries entries person .root).runOn (.forLanguages ["eng", "deu"])
    let after := tables.overlay fresh.2
    fresh.1.isOk = true ∧
      (w.threadedEntries entries person .root).runOn tables = (fresh.1, after) ∧
      (after.locales.find? "eng").bind (·.pages.find? "main") = some "Person" ∧
      (after.identifiers.find? (Path.parse "orders")).map (·.format) = some .bigint := by
  intro order person registry w entries tables fresh after
  have hlanguages : ∀ lang, (tables.locales.find? lang).isSome ↔ lang ∈ ["eng", "deu"] :=
    fun lang => SideTables.isSome_find?_locales_replay_iff lang _ _
  have hsorted : tables.identifiers.Sorted :=
    SideTables.sorted_identifiers_replay IdentifierTree.sorted_empty _
  refine ⟨by decide +kernel, ?_, by decide +kernel, by decide +kernel⟩
  exact ((w.threaded_eq_overlay hlanguages hsorted).1 entries person .root).2

end Walker

end FormCompiler

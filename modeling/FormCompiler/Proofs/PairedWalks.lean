import FormCompiler.Proofs.Observation
import FormCompiler.Proofs.PageDerivation

/-!
# FormCompiler.Proofs.PairedWalks

Two walks side by side.  `Walk.Alike` says that they end with the same
error, or with values that have the same view and with journals that have
the same effect on side tables; it is kept by every way of composing walks.

Two walkers are `Walker.Indistinct` to an observer if they read the same
hints, pages and bundles, and differ at most in marks that the observer does
not look at and in what they write down about titles.  Such walkers have
walks that are alike, over a field (`alike_fieldEntry`), the entries of a
page (`alike_walkEntries`) and all pages (`alike_orderedPages`).  Bundles are
compared where the walk can get to, by a property `Held` that every bundle
looked up from a held one has.
-/

namespace FormCompiler

/-! ## journals with the same effect -/

/-- Two journals bring related tables to related tables. -/
def Journal.SameEffect (Same : SideTables → SideTables → Prop) (first second : Journal) : Prop :=
  ∀ tables tables', Same tables tables' → Same (tables.replay first) (tables'.replay second)

section Effects

variable {Same : SideTables → SideTables → Prop} {first second first' second' : Journal}

theorem Journal.SameEffect.append (hfirst : Journal.SameEffect Same first first')
    (hsecond : Journal.SameEffect Same second second') :
    Journal.SameEffect Same (first ++ second) (first' ++ second') := by
  intro tables tables' h
  rw [SideTables.replay_append, SideTables.replay_append]
  exact hsecond _ _ (hfirst _ _ h)

/-- If single lines keep tables related, a journal does. -/
theorem Journal.sameEffect_refl (written : ∀ entry, Journal.SameEffect Same [entry] [entry])
    (journal : Journal) : Journal.SameEffect Same journal journal := by
  induction journal with
  | nil => exact fun _ _ h => h
  | cons entry journal ih => exact (written entry).append ih

end Effects

/-! ## walks that are alike -/

namespace Walk

variable {α β γ δ : Type} {Same : SideTables → SideTables → Prop} {view : α → γ} {view' : β → δ}

/-- Two walks end with the same error, or with values of the same view and
journals of the same effect. -/
inductive Alike (Same : SideTables → SideTables → Prop) (view : α → γ) : Walk α → Walk α → Prop
  | ok {a b journal journal'} (seen : view a = view b)
      (effect : Journal.SameEffect Same journal journal') :
      Alike Same view ⟨.ok a, journal⟩ ⟨.ok b, journal'⟩
  | error {error journal journal'} :
      Alike Same view ⟨.error error, journal⟩ ⟨.error error, journal'⟩

theorem alike_pure {a b : α} (h : view a = view b) : (pure a : Walk α).Alike Same view (pure b) :=
  .ok h fun _ _ hsame => hsame

theorem alike_fail {error : CompileError} : (fail error : Walk α).Alike Same view (fail error) :=
  .error

theorem alike_notify (notices notices' : List Notice) :
    (notify notices).Alike Same id (notify notices') := by
  refine .ok rfl fun tables tables' h => ?_
  rw [SideTables.replay_notices, SideTables.replay_notices]
  exact h

/-- A walk is like itself if single lines keep tables related. -/
theorem alike_refl (written : ∀ entry, Journal.SameEffect Same [entry] [entry]) (walk : Walk α) :
    walk.Alike Same view walk := by
  obtain ⟨outcome, journal⟩ := walk
  cases outcome with
  | ok a => exact .ok rfl (Journal.sameEffect_refl written journal)
  | error error => exact .error

theorem alike_ofExcept {result result' : Except CompileError α}
    (h : result.map view = result'.map view) :
    (ofExcept result).Alike Same view (ofExcept result') := by
  cases result with
  | ok a =>
      cases result' with
      | ok b => exact .ok (Except.ok.inj h) fun _ _ hsame => hsame
      | error error => cases h
  | error error =>
      cases result' with
      | ok b => cases h
      | error error' =>
          obtain rfl := Except.error.inj h
          exact .error

/-- Walks that go on alike from values of the same view are alike, where only
values count with which the first walks ended. -/
theorem Alike.bind_of_outcome {first second : Walk α} {next next' : α → Walk β}
    (hwalk : first.Alike Same view second)
    (hnext : ∀ a b, first.outcome = .ok a → second.outcome = .ok b → view a = view b →
      (next a).Alike Same view' (next' b)) :
    (first >>= next).Alike Same view' (second >>= next') := by
  cases hwalk with
  | error => exact .error
  | @ok a b journal journal' seen effect =>
      have hrest := hnext a b rfl rfl seen
      rw [bind_ok, bind_ok]
      generalize next a = last at hrest ⊢
      generalize next' b = last' at hrest ⊢
      cases hrest with
      | error => exact .error
      | ok seen' effect' => exact .ok seen' (effect.append effect')

/-- Walks that go on alike from values of the same view are alike. -/
theorem Alike.bind {first second : Walk α} {next next' : α → Walk β}
    (hwalk : first.Alike Same view second)
    (hnext : ∀ a b, view a = view b → (next a).Alike Same view' (next' b)) :
    (first >>= next).Alike Same view' (second >>= next') :=
  hwalk.bind_of_outcome fun a b _ _ => hnext a b

/-- After one walk that both begin with, the rest is compared at the value
it ends with. -/
theorem alike_bind_same (written : ∀ entry, Journal.SameEffect Same [entry] [entry])
    {walk : Walk α} {next next' : α → Walk β}
    (hnext : ∀ a, walk.outcome = .ok a → (next a).Alike Same view' (next' a)) :
    (walk >>= next).Alike Same view' (walk >>= next') := by
  have hwalk : walk.Alike Same id walk := alike_refl written walk
  refine hwalk.bind_of_outcome fun a b ha _ hab => ?_
  obtain rfl : a = b := hab
  exact hnext a ha

/-- Walks over a list are alike if those over its items are. -/
theorem alike_mapM {f f' : α → Walk β} {xs : List α}
    (h : ∀ x ∈ xs, (f x).Alike Same view' (f' x)) :
    (xs.mapM f).Alike Same (List.map view') (xs.mapM f') := by
  induction xs with
  | nil => exact alike_pure rfl
  | cons x xs ih =>
      rw [List.mapM_cons, List.mapM_cons]
      refine (h x List.mem_cons_self).bind fun y y' hy => ?_
      refine (ih fun x' hx' => h x' (List.mem_cons_of_mem x hx')).bind fun ys ys' hys => ?_
      refine alike_pure ?_
      rw [List.map_cons, List.map_cons, hy, hys]

end Walk

/-! ## walkers that an observer cannot tell apart -/

/-- The journals of titles in which two walkers differ have the same effect,
as have single lines. -/
structure Walker.TitledAlike (Same : SideTables → SideTables → Prop) (w w' : Walker) : Prop where
  written : ∀ entry, Journal.SameEffect Same [entry] [entry]
  pageTitles : ∀ page, Journal.SameEffect Same
    (w.presentation.languages.map (w.pageTitleEntry page))
    (w'.presentation.languages.map (w'.pageTitleEntry page))
  syntheticTitles : ∀ page key, Journal.SameEffect Same
    (w.presentation.languages.map (w.syntheticTitleEntry page key))
    (w'.presentation.languages.map (w'.syntheticTitleEntry page key))
  referenceTitles : ∀ attr key, Journal.SameEffect Same
    (w.presentation.languages.map (Walker.referenceTitleEntry attr key))
    (w'.presentation.languages.map (Walker.referenceTitleEntry attr key))

/-- Walkers over one presentation write the same titles. -/
theorem Walker.titledAlike_eq {w w' : Walker} (h : w.presentation = w'.presentation) :
    TitledAlike Eq w w' := by
  have same : ∀ journal, Journal.SameEffect Eq journal journal := by
    rintro journal tables _ rfl
    rfl
  constructor
  · exact fun entry => same [entry]
  · intro page
    have hentry : w.pageTitleEntry page = w'.pageTitleEntry page :=
      funext fun lang => by rw [pageTitleEntry, pageTitleEntry, h]
    rw [h, hentry]
    exact same _
  · intro page key
    have hentry : w.syntheticTitleEntry page key = w'.syntheticTitleEntry page key :=
      funext fun lang => by rw [syntheticTitleEntry, syntheticTitleEntry, h]
    rw [h, hentry]
    exact same _
  · intro attr key
    rw [h]
    exact same _

/-- Two walkers read the same hints, the same pages, and the same bundles
from those that are held, and differ in no mark that is looked at. -/
structure Walker.Indistinct (see : Observer) (Same : SideTables → SideTables → Prop)
    (Held : Bundle → Prop) (w w' : Walker) : Prop extends Walker.TitledAlike Same w w' where
  interaction : w.interaction = w'.interaction
  findPage? : ∀ name, w.presentation.findPage? name = w'.presentation.findPage? name
  dependency? : ∀ {owner}, Held owner → ∀ name, w.dependency? owner name = w'.dependency? owner name
  held : ∀ {owner name dep}, Held owner → w.dependency? owner name = some dep → Held dep
  conditionals : see.conditions = true → w.conditionals = w'.conditionals
  readonly : see.readonly = true → w.readonly = w'.readonly
  now : see.bounds = true → w.now = w'.now

namespace Walker

variable {see : Observer} {Same : SideTables → SideTables → Prop} {Held : Bundle → Prop}
  {w w' : Walker}

namespace Indistinct

variable (h : Indistinct see Same Held w w') (path above : Path) (declared : Attribute)
include h

theorem hints?_eq : w'.hints? path = w.hints? path := by
  rw [hints?, hints?, h.interaction]

theorem question?_eq : w'.question? path = w.question? path := by
  rw [question?, question?, h.hints?_eq]

theorem listIdentifier_eq : w'.listIdentifier path = w.listIdentifier path := by
  rw [listIdentifier, listIdentifier, identifierRequest?, identifierRequest?, h.hints?_eq]

/-- An attribute is completed alike, since only hints are read for it. -/
theorem prefilled_eq : w'.prefilled above declared = w.prefilled above declared := by
  rw [prefilled, prefilled, h.hints?_eq]

/-- Conditions may differ where they are not looked at. -/
theorem condition_eq :
    see.condition? (w.condition? path) = see.condition? (w'.condition? path) := by
  unfold Observer.condition?
  split
  · next hconditions => rw [condition?, condition?, h.conditionals hconditions]
  · rfl

/-- Read-only flags may differ where they are not looked at. -/
theorem flag_eq : see.flag (w.isReadonly path) = see.flag (w'.isReadonly path) := by
  cases hreadonly : see.readonly with
  | true => rw [isReadonly, isReadonly, h.readonly hreadonly]
  | false => simp [Observer.flag, hreadonly]

/-- Descriptors may differ in the bounds of dates. -/
theorem plainDescriptor_eq :
    (w.plainDescriptor above declared).map (Descriptor.observed see) =
      (w'.plainDescriptor above declared).map (Descriptor.observed see) := by
  rw [plainDescriptor, plainDescriptor, h.prefilled_eq, h.hints?_eq]
  exact Attribute.observed_descriptor _ _ h.now

/-- Entries of descriptors that look the same look the same. -/
theorem entryOf_eq {descriptor descriptor' : Descriptor}
    (hdescriptor : descriptor.observed see = descriptor'.observed see) :
    (w.entryOf above declared descriptor).observed see =
      (w'.entryOf above declared descriptor').observed see := by
  simp only [FieldEntry.observed_eq, entryOf, h.flag_eq, h.condition_eq, h.prefilled_eq,
    hdescriptor]

end Indistinct

/-! ## fields -/

/-- What an attribute of a held bundle points at is the same bundle for both
walkers, and held. -/
theorem alike_bind_dependency {α γ : Type} {view : α → γ} (h : Indistinct see Same Held w w')
    {bundle : Bundle} (hbundle : Held bundle) {name : String} {next next' : Bundle → Walk α}
    (hnext : ∀ dep, Held dep → (next dep).Alike Same view (next' dep)) :
    (w.dependency bundle name >>= next).Alike Same view (w'.dependency bundle name >>= next') := by
  rw [dependency, dependency, ← h.dependency? hbundle]
  refine Walk.alike_bind_same h.written fun dep hdep => hnext dep ?_
  cases hfound : w.dependency? bundle name with
  | none => simp [hfound, Walk.fail] at hdep
  | some found =>
      obtain rfl : found = dep := by simpa [hfound, Walk.done] using hdep
      exact h.held hbundle hfound

section Fields

variable (h : Indistinct see Same Held w w') {dep bundle : Bundle} {path : Path}
  {build build' : Attribute → Walk FieldEntry}
include h

/-- A further field looks alike under either set of conditions: they are the
same, or nobody looks at the condition of the field. -/
theorem alike_followUpEntry
    (hbuild : ∀ inner, (build inner).Alike Same (FieldEntry.observed see) (build' inner))
    (answer : Path) (followUp : FollowUp) :
    (w.followUpEntry build dep path answer followUp).Alike Same (FieldEntry.observed see)
      (w'.followUpEntry build' dep path answer followUp) := by
  rw [followUpEntry, followUpEntry]
  refine Walk.alike_bind_same h.written fun attr _ => ?_
  refine (hbuild attr).bind fun entry entry' hentry => ?_
  cases hconditions : see.conditions with
  | true =>
      have hcontains : w.conditionals.contains (path.child entry.name).render =
          w'.conditionals.contains (path.child entry'.name).render := by
        rw [h.conditionals hconditions, ← entry.name_observed see, hentry, entry'.name_observed]
      rw [hcontains]
      split
      · exact Walk.alike_pure hentry
      · refine Walk.alike_pure ?_
        rw [FieldEntry.observed_setCondition, FieldEntry.observed_setCondition, hentry]
  | false =>
      have hblind := FieldEntry.observed_setCondition_of_blind hconditions
      split <;> split <;> exact Walk.alike_pure (by simp only [hblind, hentry])

/-- The parts of a question are alike if its answer and further fields are
built alike. -/
theorem alike_questionParts
    (hbuild : ∀ inner, (build inner).Alike Same (FieldEntry.observed see) (build' inner))
    (optional : Bool) (hints : Hints) :
    (w.questionParts build dep path optional hints).Alike Same
      (fun parts => (parts.1.observed see, parts.2.map (PageNode.observed see)))
      (w'.questionParts build' dep path optional hints) := by
  rw [questionParts, questionParts]
  refine Walk.alike_bind_same h.written fun attr _ => ?_
  refine (hbuild attr).bind fun answer answer' hanswer => ?_
  refine (Walk.alike_mapM fun followUp _ => alike_followUpEntry h hbuild _ followUp).bind
    fun extras extras' hextras => ?_
  have hoptional : answer'.isOptional = answer.isOptional := by
    rw [← answer'.isOptional_observed see, ← hanswer, answer.isOptional_observed]
  refine Walk.alike_pure (Prod.ext ?_ ?_)
  · dsimp only
    rw [FieldEntry.observed_setOptional, FieldEntry.observed_setOptional, hanswer, hoptional]
  · simp only [PageNode.observed_extrasPage, hextras]

/-- The induction is on the room for questions; it carries that the bundle
is held, since only there both walkers find the same. -/
theorem alike_fieldEntry (hbundle : Held bundle) (above : Path) (declared : Attribute) :
    (w.fieldEntry bundle above declared).Alike Same (FieldEntry.observed see)
      (w'.fieldEntry bundle above declared) := by
  induction bundle, above, declared using fieldEntry_induction w with
  | step bundle above declared ih =>
      rw [fieldEntry_eq, fieldEntry_eq]
      refine (Walk.alike_notify _ _).bind fun _ _ _ => ?_
      refine (Walk.alike_ofExcept (h.plainDescriptor_eq above declared)).bind
        fun plain plain' hplain => ?_
      have hanswered : (w.answered bundle above declared plain).Alike Same
          (Descriptor.observed see) (w'.answered bundle above declared plain') := by
        rw [answered, answered, h.question?_eq, h.prefilled_eq]
        split
        · next hints digest hasked hrefers =>
            refine alike_bind_dependency h hbundle fun dep hheld => ?_
            refine (alike_questionParts h (fun inner => ?_) _ hints).bind
              fun parts parts' hparts => ?_
            · exact ih hints hasked dep inner hheld
            · obtain ⟨hanswer, hextras⟩ := Prod.mk.inj hparts
              refine Walk.alike_pure ?_
              rw [Descriptor.observed_attach, Descriptor.observed_attach, hplain, hanswer, hextras]
        · exact Walk.alike_pure hplain
      refine hanswered.bind fun descriptor descriptor' hdescriptor => ?_
      rw [h.prefilled_eq]
      refine Walk.alike_bind_same h.written fun _ _ => ?_
      exact Walk.alike_pure (h.entryOf_eq above declared hdescriptor)

end Fields

/-! ## pages -/

section Pages

variable (h : Indistinct see Same Held w w') {bundle : Bundle}
include h

theorem alike_listEntry {elements elements' : Walk (List Node)}
    (helements : elements.Alike Same (List.map (Node.observed see)) elements')
    (attr : Attribute) (path : Path) :
    (w.listEntry attr path elements).Alike Same (FieldEntry.observed see)
      (w'.listEntry attr path elements') := by
  rw [listEntry, listEntry, h.listIdentifier_eq]
  refine Walk.alike_bind_same h.written fun identifier _ => ?_
  refine helements.bind fun nodes nodes' hnodes => ?_
  refine Walk.alike_pure ?_
  simp only [FieldEntry.observed_eq, Descriptor.observed_list, List.map_append, hnodes, h.flag_eq]

/-- A section is over the same bundle or over one that is found from it;
both of them are held. -/
theorem alike_sectionFields (hbundle : Held bundle) {within within' : Bundle → Walk (List Node)}
    (hwithin : ∀ dep, Held dep →
      (within dep).Alike Same (List.map (Node.observed see)) (within' dep))
    (address : PageAddress) (path : Path) :
    (w.sectionFields address bundle path within).Alike Same (List.map (Node.observed see))
      (w'.sectionFields address bundle path within') := by
  obtain ⟨name, rfl⟩ | embeds := address.synthetic_or_embeds
  · have htitles : (w.writeTitles (w.syntheticTitleEntry name (sectionTitleKey name))).Alike Same
        id (w'.writeTitles (w'.syntheticTitleEntry name (sectionTitleKey name))) :=
      .ok rfl (h.syntheticTitles name _)
    exact htitles.bind fun _ _ _ => hwithin bundle hbundle
  · rw [sectionFields_eq embeds, sectionFields_eq embeds]
    refine Walk.alike_bind_same h.written fun _ _ => ?_
    refine Walk.alike_bind_same h.written fun attr _ => ?_
    have htitles : (w.writeReferenceTitles attr (sectionTitleKey address.name)).Alike Same id
        (w'.writeReferenceTitles attr (sectionTitleKey address.name)) := by
      refine (Walk.alike_notify _ _).bind fun _ _ _ => ?_
      exact .ok rfl (h.referenceTitles attr _)
    refine htitles.bind fun _ _ _ => ?_
    split
    · exact Walk.alike_fail
    · refine alike_bind_dependency h hbundle fun dep hdep => ?_
      split
      · refine (alike_listEntry h (hwithin dep hdep) attr path).bind fun list list' hlist => ?_
        exact Walk.alike_pure (by simp only [List.map_cons, List.map_nil, Node.observed, hlist])
      · exact hwithin dep hdep

end Pages

mutual

/-- The entries of a page are walked over alike, each over its own bundle. -/
theorem alike_walkEntries (h : Indistinct see Same Held w w') :
    (entries : List PageEntry) → {bundle : Bundle} → Held bundle → (above : Path) →
    (w.walkEntries entries bundle above).Alike Same (List.map (Node.observed see))
      (w'.walkEntries entries bundle above)
  | [], bundle, hbundle, above => by
      rw [walkEntries, walkEntries]
      exact Walk.alike_pure rfl
  | entry :: entries, bundle, hbundle, above => by
      rw [walkEntries, walkEntries]
      refine (alike_walkEntry h entry hbundle above).bind fun node node' hnode => ?_
      refine (alike_walkEntries h entries hbundle above).bind fun nodes nodes' hnodes => ?_
      exact Walk.alike_pure (by rw [List.map_cons, List.map_cons, hnode, hnodes])

/-- A field is built alike, and a page is walked over alike. -/
theorem alike_walkEntry (h : Indistinct see Same Held w w') :
    (entry : PageEntry) → {bundle : Bundle} → Held bundle → (above : Path) →
    (w.walkEntry entry bundle above).Alike Same (Node.observed see)
      (w'.walkEntry entry bundle above)
  | .field name, bundle, hbundle, above => by
      rw [walkEntry, walkEntry]
      refine Walk.alike_bind_same h.written fun attr _ => ?_
      refine (alike_fieldEntry h hbundle above attr).bind fun entry entry' hentry => ?_
      exact Walk.alike_pure (by rw [Node.observed, Node.observed, hentry])
  | .page spec, bundle, hbundle, above => by
      rw [walkEntry, walkEntry]
      refine (alike_nestedPage h spec hbundle above).bind fun page page' hpage => ?_
      exact Walk.alike_pure (by rw [Node.observed, Node.observed, hpage])

/-- A nested page is walked over alike, by the bundle that its address leads
to. -/
theorem alike_nestedPage (h : Indistinct see Same Held w w') :
    (spec : PageSpec) → {bundle : Bundle} → Held bundle → (above : Path) →
    (w.nestedPage spec bundle above).Alike Same (PageNode.observed see)
      (w'.nestedPage spec bundle above)
  | ⟨name, reference, synthetic, entries⟩, bundle, hbundle, above => by
      rw [nestedPage, nestedPage]
      refine Walk.alike_bind_same h.written fun address _ => ?_
      rw [sectionPage, sectionPage]
      refine (alike_sectionFields h hbundle (fun dep hdep => ?_) address _).bind
        fun fields fields' hfields => ?_
      · exact alike_walkEntries h entries hdep _
      · refine Walk.alike_pure ?_
        simp only [PageNode.observed_eq, h.condition_eq, hfields]

end

section Pages

variable (h : Indistinct see Same Held w w') {bundle : Bundle}
include h

theorem alike_topLevelPage (hbundle : Held bundle) (page : String) (spec : PageSpec) :
    (w.topLevelPage page spec bundle).Alike Same (PageNode.observed see)
      (w'.topLevelPage page spec bundle) := by
  rw [topLevelPage, topLevelPage]
  refine Walk.alike_bind_same h.written fun address _ => ?_
  refine Walk.alike_bind_same h.written fun _ _ => ?_
  have htitles : (w.writeTitles (w.pageTitleEntry page)).Alike Same id
      (w'.writeTitles (w'.pageTitleEntry page)) := .ok rfl (h.pageTitles page)
  refine htitles.bind fun _ _ _ => ?_
  refine (alike_walkEntries h spec.entries hbundle .root).bind fun fields fields' hfields => ?_
  refine Walk.alike_pure ?_
  simp only [PageNode.observed_eq, hfields]

theorem alike_orderedPages (hbundle : Held bundle) (names : List String) :
    (w.orderedPages bundle names).Alike Same (List.map (PageNode.observed see))
      (w'.orderedPages bundle names) := by
  induction names with
  | nil =>
      rw [orderedPages, orderedPages]
      exact Walk.alike_pure rfl
  | cons name names ih =>
      rw [orderedPages, orderedPages, ← h.findPage?]
      split
      · exact (Walk.alike_notify _ _).bind fun _ _ _ => ih
      · next spec found =>
          refine (alike_topLevelPage h hbundle name spec).bind fun page page' hpage => ?_
          refine ih.bind fun pages pages' hpages => ?_
          exact Walk.alike_pure (by rw [List.map_cons, List.map_cons, hpage, hpages])

end Pages

end Walker

end FormCompiler

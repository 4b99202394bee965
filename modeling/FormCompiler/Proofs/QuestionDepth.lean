import FormCompiler.Proofs.QuestionExtras
import FormCompiler.Proofs.ShownPaths

/-!
# FormCompiler.Proofs.QuestionDepth

How deep questions are nested.  A walk over a question goes on in the bundle
that the attribute refers to, and nothing keeps bundles from referring to
each other in circles.  What ends the walk are the hints: a question within
another one has a longer dotted path, and each of these paths is a key under
which the hints ask for a question (`Walker.AsksInTurn`).

* A walk that is cut off after more levels than there are hinted questions is
  the whole walk (`Walker.cutOff_eq_fieldEntry`).
* The questions nested in one another in an entry are asked in turn by its
  walk (`Walker.Builds.asksInTurn`).
* So the depth of questions in an entry is bounded by the number of hinted
  questions (`Walker.question_nesting_bounded`).
-/

namespace FormCompiler

/-! ## the depth of questions -/

mutual

/-- How many questions stand within one another in a descriptor. -/
def Descriptor.questionDepth : Descriptor → Nat
  | .array _ element => element.questionDepth
  | .list _ elements => Node.questionDepth elements
  | .question (some answer) (some extras) => max answer.questionDepth extras.questionDepth + 1
  | .question (some answer) none => answer.questionDepth + 1
  | .question none (some extras) => extras.questionDepth + 1
  | .question none none => 1
  | _ => 0

def FieldEntry.questionDepth : FieldEntry → Nat
  | ⟨_, _, _, _, _, descriptor⟩ => descriptor.questionDepth

def PageNode.questionDepth : PageNode → Nat
  | ⟨_, _, _, _, fields⟩ => Node.questionDepth fields

def Node.questionDepth : List Node → Nat
  | [] => 0
  | .field entry :: nodes => max entry.questionDepth (Node.questionDepth nodes)
  | .page page :: nodes => max page.questionDepth (Node.questionDepth nodes)

end

theorem FieldEntry.questionDepth_eq (entry : FieldEntry) :
    entry.questionDepth = entry.descriptor.questionDepth := by
  cases entry
  rw [FieldEntry.questionDepth]

theorem PageNode.questionDepth_eq (page : PageNode) :
    page.questionDepth = Node.questionDepth page.fields := by
  cases page
  rw [PageNode.questionDepth]

/-- The depth of fields that stand side by side is that of one of them. -/
theorem Node.exists_questionDepth_eq {entries : List FieldEntry}
    (h : 0 < Node.questionDepth (entries.map .field)) :
    ∃ entry ∈ entries, entry.questionDepth = Node.questionDepth (entries.map .field) := by
  induction entries with
  | nil => simp [Node.questionDepth] at h
  | cons entry entries ih =>
      rw [List.map_cons, Node.questionDepth] at h ⊢
      by_cases hle : Node.questionDepth (entries.map .field) ≤ entry.questionDepth
      · exact ⟨entry, List.mem_cons_self, (max_eq_left hle).symm⟩
      · obtain ⟨deepest, hmem, hdepth⟩ := ih (by omega)
        exact ⟨deepest, List.mem_cons_of_mem _ hmem, by omega⟩

namespace Descriptor

variable {descriptor : Descriptor} {answer : FieldEntry} {extras : Option PageNode}

/-- A question is one level deeper than what it holds. -/
theorem questionDepth_of_asked? (h : descriptor.asked? = some (answer, extras)) :
    descriptor.questionDepth =
      max answer.questionDepth (extras.elim 0 fun page => Node.questionDepth page.fields) + 1 := by
  have hquestion : (Descriptor.question (some answer) extras).questionDepth =
      max answer.questionDepth (extras.elim 0 fun page => Node.questionDepth page.fields) + 1 := by
    cases extras with
    | none => simp [questionDepth]
    | some page => simp [questionDepth, PageNode.questionDepth_eq]
  unfold asked? at h
  split at h
  · obtain ⟨rfl, rfl⟩ := Prod.mk.inj (Option.some.inj h)
    exact hquestion
  · obtain ⟨rfl, rfl⟩ := Prod.mk.inj (Option.some.inj h)
    rw [questionDepth]
    exact hquestion
  · contradiction

/-! ## questions within questions -/

/-- The entry is the answer of a question or one of its further fields. -/
def HasPart (descriptor : Descriptor) (part : FieldEntry) : Prop :=
  ∃ answer extras, descriptor.question? = some (answer, extras) ∧
    (answer = some part ∨ ∃ page, extras = some page ∧ .field part ∈ page.fields)

/-- Questions that stand within one another in the descriptor at a path, each
a part of the one before: their paths, the outermost first. -/
inductive NestsQuestions : Path → Descriptor → List Path → Prop
  | last {path descriptor slots} (asks : descriptor.question? = some slots) :
      NestsQuestions path descriptor [path]
  | part {path descriptor part paths} (holds : descriptor.HasPart part)
      (inside : NestsQuestions (path.child part.name) part.descriptor paths) :
      NestsQuestions path descriptor (path :: paths)

/-- A question holds no other, or it is one level deeper than one of its
parts. -/
theorem exists_part_of_question (asks : descriptor.question? = some (some answer, extras))
    (fields : ∀ page, extras = some page → ∃ entries : List FieldEntry,
      page.fields = entries.map .field) :
    descriptor.questionDepth = 1 ∨ ∃ part, descriptor.HasPart part ∧ 0 < part.questionDepth ∧
      descriptor.questionDepth = part.questionDepth + 1 := by
  have hdepth := questionDepth_of_asked? (asked?_of_question? asks)
  by_cases hanswer :
      (extras.elim 0 fun page => Node.questionDepth page.fields) ≤ answer.questionDepth
  · rw [max_eq_left hanswer] at hdepth
    rcases Nat.eq_zero_or_pos answer.questionDepth with hzero | hpos
    · exact .inl (by rw [hdepth, hzero])
    · exact .inr ⟨answer, ⟨_, _, asks, .inl rfl⟩, hpos, hdepth⟩
  · rw [max_eq_right (Nat.le_of_not_le hanswer)] at hdepth
    cases extras with
    | none => exact absurd (Nat.zero_le _) hanswer
    | some page =>
        obtain ⟨entries, hentries⟩ := fields page rfl
        rw [Option.elim_some, hentries] at hdepth hanswer
        have hpos : 0 < Node.questionDepth (entries.map .field) := by omega
        obtain ⟨part, hmem, hpart⟩ := Node.exists_questionDepth_eq hpos
        exact .inr ⟨part, ⟨_, _, asks, .inr ⟨page, rfl, hentries ▸ List.mem_map_of_mem hmem⟩⟩,
          by omega, by omega⟩

end Descriptor

namespace Attribute

variable {attr : Attribute} {props : WidgetProperties} {now : Timestamp} {descriptor : Descriptor}

/-- A base type and a widget give a question only for a reference under a
question widget. -/
theorem question_of_scalarDescriptor (h : attr.scalarDescriptor props now = .ok descriptor) :
    (∃ digest, attr.type.base = .reference digest ∧ props.widget = some .question ∧
        descriptor = .question none none) ∨
      (∀ cardinality, (Descriptor.array cardinality descriptor).question? = none) ∧
        descriptor.question? = none ∧ descriptor.questionDepth = 0 := by
  unfold scalarDescriptor at h
  split at h
  all_goals cases h
  all_goals first
    | exact .inr ⟨fun _ => rfl, rfl, by simp [dateField, Descriptor.questionDepth]⟩
    | exact .inl ⟨_, ‹_›, ‹_›, rfl⟩

/-- A descriptor is a question, for a reference under a question widget, or
there is none in it. -/
theorem question_of_descriptor (h : attr.descriptor props now = .ok descriptor) :
    (∃ digest slots, attr.type.base = .reference digest ∧ props.widget = some .question ∧
        descriptor.question? = some slots) ∨
      descriptor.question? = none ∧ descriptor.questionDepth = 0 := by
  obtain ⟨_, _, rfl⟩ | ⟨_, rfl⟩ | ⟨_, cardinality, element, hbase, helement, rfl⟩ | hscalar :=
    descriptor_eq_ok h
  · exact .inr ⟨rfl, by simp [Descriptor.questionDepth]⟩
  · exact .inr ⟨rfl, by simp [Descriptor.questionDepth]⟩
  · obtain ⟨digest, hrefers, hasks, rfl⟩ | ⟨harray, -, hdepth⟩ :=
      question_of_scalarDescriptor helement
    · exact .inl ⟨digest, _, hbase ▸ hrefers, hasks, rfl⟩
    · exact .inr ⟨harray cardinality, by rw [Descriptor.questionDepth, hdepth]⟩
  · obtain ⟨digest, hrefers, hasks, rfl⟩ | ⟨-, hnone, hdepth⟩ :=
      question_of_scalarDescriptor hscalar
    · exact .inl ⟨digest, _, hrefers, hasks, rfl⟩
    · exact .inr ⟨hnone, hdepth⟩

end Attribute

/-! ## hinted questions -/

namespace Walker

variable {w : Walker} {bundle : Bundle} {above path : Path} {declared : Attribute}
  {built : FieldEntry} {journal : Journal} {paths : List Path}

/-- The keys under which the hints ask for a question. -/
def questionKeys (w : Walker) : List String :=
  match w.interaction with
  | none => []
  | some interaction =>
    (interaction.hints.toList.filter fun hint => hint.2.widget = some "question").map (·.1)

/-- A question is asked under a key of the hints. -/
theorem render_mem_questionKeys {hints : Hints} (h : w.question? path = some hints) :
    path.render ∈ w.questionKeys := by
  obtain ⟨hhints, hquestion⟩ := Option.filter_eq_some_iff.mp h
  obtain ⟨interaction, hinteraction, hfound⟩ := Option.bind_eq_some_iff.mp hhints
  rw [questionKeys, hinteraction]
  refine List.mem_map.mpr ⟨(path.render, hints), List.mem_filter.mpr ⟨?_, ?_⟩, rfl⟩
  · exact Dictionary.mem_of_find? hfound
  · exact decide_eq_true (Hints.isQuestion_iff.mp hquestion)

/-- There is room for the hinted questions at most. -/
theorem room_le_length_questionKeys (w : Walker) (path : Path) :
    w.room path ≤ w.questionKeys.length := by
  unfold room questionKeys
  cases w.interaction with
  | none => exact Nat.le_refl 0
  | some interaction =>
      dsimp only
      rw [List.length_map, ← List.countP_eq_length_filter]
      refine List.countP_mono_left fun hint _ hhint => ?_
      exact decide_eq_true (Hints.isQuestion_iff.mp (Bool.and_eq_true_iff.mp hhint).1)

/-! ## levels of a walk -/

/-- The descriptor of an attribute, once the question at its path is answered
by entries that `build` makes. -/
def answeredBy (w : Walker) (build : Bundle → Path → Attribute → Walk FieldEntry) (bundle : Bundle)
    (above : Path) (declared : Attribute) (plain : Descriptor) : Walk Descriptor :=
  match w.question? (above.child declared.name), declared.type.reference? with
  | some hints, some _ => do
    let dep ← w.dependency bundle declared.name
    let (answer, extras) ← w.questionParts (build dep (above.child declared.name)) dep
      (above.child declared.name) (w.prefilled above declared).isOptional hints
    pure (plain.attach answer extras)
  | _, _ => pure plain

/-- One level of a walk: the entry of an attribute, where `build` goes on
with what its question asks for. -/
def entryBy (w : Walker) (build : Bundle → Path → Attribute → Walk FieldEntry) (bundle : Bundle)
    (above : Path) (declared : Attribute) : Walk FieldEntry := do
  Walk.notify ((w.prefilled above declared).unreadableBounds
    (.ofHints? (w.hints? (above.child declared.name))) w.now)
  let plain ← Walk.ofExcept (w.plainDescriptor above declared)
  let descriptor ← w.answeredBy build bundle above declared plain
  Walk.write (.attributeTexts (above.child declared.name) (w.prefilled above declared))
  return w.entryOf above declared descriptor

/-- The walk goes on by itself. -/
theorem fieldEntry_eq_entryBy (w : Walker) (bundle : Bundle) (above : Path)
    (declared : Attribute) :
    w.fieldEntry bundle above declared = w.entryBy w.fieldEntry bundle above declared :=
  w.fieldEntry_eq bundle above declared

/-- Only below a question does it matter how the walk goes on. -/
theorem entryBy_congr {build build' : Bundle → Path → Attribute → Walk FieldEntry}
    (h : ∀ hints, w.question? (above.child declared.name) = some hints → ∀ dep inner,
      build dep (above.child declared.name) inner = build' dep (above.child declared.name) inner) :
    w.entryBy build bundle above declared = w.entryBy build' bundle above declared := by
  have hanswered : w.answeredBy build bundle above declared =
      w.answeredBy build' bundle above declared := by
    funext plain
    unfold answeredBy
    split
    · next hints _ asked _ =>
        have hbuild : ∀ dep, build dep (above.child declared.name) =
            build' dep (above.child declared.name) := fun dep => funext (h hints asked dep)
        simp only [hbuild]
    · rfl
  rw [entryBy, entryBy, hanswered]

/-- The walk over an attribute, cut off after a number of levels; `beyond`
stands in for what lies behind them. -/
def cutOff (w : Walker) (beyond : Bundle → Path → Attribute → Walk FieldEntry) :
    Nat → Bundle → Path → Attribute → Walk FieldEntry
  | 0 => beyond
  | levels + 1 => w.entryBy (w.cutOff beyond levels)

/-- With more levels than there is room for questions nothing is cut off. -/
theorem cutOff_eq_fieldEntry {beyond : Bundle → Path → Attribute → Walk FieldEntry} {levels : Nat}
    (h : w.room (above.child declared.name) < levels) :
    w.cutOff beyond levels bundle above declared = w.fieldEntry bundle above declared := by
  induction levels generalizing bundle above declared with
  | zero => exact absurd h (Nat.not_lt_zero _)
  | succ levels ih =>
      rw [fieldEntry_eq_entryBy, cutOff]
      refine entryBy_congr fun hints asked dep inner => ih ?_
      have hroot : (above.child declared.name).isRoot = false := by simp [Path.isRoot]
      have := room_child_lt hroot asked inner.name
      omega

/-! ## questions asked in turn -/

/-- Questions that the walk over an attribute asks, each for an attribute
that the one before asks for: their paths, the outermost first. -/
inductive AsksInTurn (w : Walker) : Bundle → Path → Attribute → List Path → Prop
  | last {bundle above attr hints digest} (asked : w.question? (above.child attr.name) = some hints)
      (refers : attr.type.reference? = some digest) :
      AsksInTurn w bundle above attr [above.child attr.name]
  | part {bundle above attr dep inner paths} (asks : w.Asks bundle above attr dep inner)
      (inside : AsksInTurn w dep (above.child attr.name) inner paths) :
      AsksInTurn w bundle above attr (above.child attr.name :: paths)

namespace AsksInTurn

/-- Each question takes one of the keys. -/
theorem render_subset (h : w.AsksInTurn bundle above declared paths) :
    paths.map Path.render ⊆ w.questionKeys := by
  induction h with
  | last asked refers =>
      exact List.cons_subset.mpr ⟨render_mem_questionKeys asked, List.nil_subset _⟩
  | part asks inside ih =>
      obtain ⟨hints, -, asked, -⟩ := asks
      exact List.cons_subset.mpr ⟨render_mem_questionKeys asked, ih⟩

/-- No path is shorter than that of the attribute. -/
theorem length_render_le (h : w.AsksInTurn bundle above declared paths) :
    ∀ path ∈ paths, (above.child declared.name).render.length ≤ path.render.length := by
  induction h with
  | last asked refers => exact List.forall_mem_singleton.mpr (Nat.le_refl _)
  | @part bundle above attr dep inner paths asks inside ih =>
      refine List.forall_mem_cons.mpr ⟨Nat.le_refl _, fun path hpath => ?_⟩
      exact Nat.le_trans (Path.length_render_lt_child (by simp [Path.isRoot]) inner.name).le
        (ih path hpath)

/-- The dotted path grows from each question to the next. -/
theorem pairwise_length_render (h : w.AsksInTurn bundle above declared paths) :
    (paths.map Path.render).Pairwise fun outer inner => outer.length < inner.length := by
  induction h with
  | last asked refers => exact List.pairwise_singleton _ _
  | @part bundle above attr dep inner paths asks inside ih =>
      refine List.pairwise_cons.mpr ⟨List.forall_mem_map.mpr fun path hpath => ?_, ih⟩
      exact Nat.lt_of_lt_of_le (Path.length_render_lt_child (by simp [Path.isRoot]) inner.name)
        (inside.length_render_le path hpath)

theorem nodup_render (h : w.AsksInTurn bundle above declared paths) :
    (paths.map Path.render).Nodup :=
  h.pairwise_length_render.imp fun hlt heq => absurd (congrArg String.length heq) (Nat.ne_of_lt hlt)

/-- There are no more questions than keys. -/
theorem length_le (h : w.AsksInTurn bundle above declared paths) :
    paths.length ≤ w.questionKeys.length := by
  rw [← List.length_map Path.render]
  exact h.nodup_render.length_le_of_subset h.render_subset

end AsksInTurn

/-! ## questions in entries -/

/-- A descriptor is a question, which is asked at its path, or there is
none in it. -/
theorem question_of_plainDescriptor {descriptor : Descriptor}
    (described : w.plainDescriptor above declared = .ok descriptor) :
    (w.question? (above.child declared.name) ≠ none ∧ declared.type.reference? ≠ none ∧
        ∃ slots, descriptor.question? = some slots) ∨
      descriptor.question? = none ∧ descriptor.questionDepth = 0 := by
  refine (Attribute.question_of_descriptor described).imp_left
    fun ⟨digest, slots, hrefers, hasks, hslots⟩ => ?_
  obtain ⟨hints, hasked⟩ := exists_question?_of_widget hasks
  rw [prefilled, Attribute.type_prefilled] at hrefers
  have hreference := AttributeType.reference?_eq_some_iff.mpr hrefers
  exact ⟨by simp [hasked], by simp [hreference], slots, hslots⟩

namespace Builds

/-- An entry is a question with an answer, or there is none in it. -/
theorem asked?_or_questionDepth_eq_zero (h : w.Builds bundle above declared built journal) :
    (∃ answer extras, built.descriptor.question? = some (some answer, extras)) ∨
      built.descriptor.question? = none ∧ built.descriptor.questionDepth = 0 := by
  cases h with
  | plain unasked described =>
      obtain ⟨hasked, hrefers, -⟩ | hnone := question_of_plainDescriptor described
      · exact (unasked.elim hasked hrefers).elim
      · exact .inr hnone
  | question asked refers described =>
      obtain ⟨-, -, slots, hslots⟩ | ⟨hnone, hdepth⟩ := question_of_plainDescriptor described
      · exact .inl ⟨_, _, Descriptor.question?_attach hslots⟩
      · rw [entryOf, Descriptor.attach_eq_self hnone]
        exact .inr ⟨hnone, hdepth⟩

/-- The parts of a question are built from what its walk asks for. -/
theorem of_hasPart {part : FieldEntry} (h : w.Builds bundle above declared built journal)
    (holds : built.descriptor.HasPart part) :
    ∃ dep inner core first, w.Asks bundle above declared dep inner ∧
      w.Builds dep (above.child declared.name) inner core first ∧ part.Restates core := by
  obtain ⟨slot, page?, asks, hpart⟩ := holds
  obtain ⟨answer, extras, hslots⟩ | ⟨hnone, -⟩ := h.asked?_or_questionDepth_eq_zero
  · obtain ⟨rfl, rfl⟩ := Prod.mk.inj (Option.some.inj (hslots.symm.trans asks))
    obtain ⟨hints, digest, dep, inner, core, first, runs, asked, refers, depends, found, answered,
      followUps, followed, rfl, rfl⟩ := h.asked (Descriptor.asked?_of_question? hslots)
    rcases hpart with hanswer | ⟨page, hpage, hfield⟩
    · obtain rfl := Option.some.inj hanswer
      exact ⟨dep, inner, core, first, ⟨hints, digest, asked, refers, depends, .inl found⟩, answered,
        _, core.condition, rfl⟩
    · rw [fields_of_extrasPage hpage] at hfield
      obtain ⟨_, hmem, hpart⟩ := List.mem_map.mp hfield
      obtain ⟨run, hrun, rfl⟩ := List.mem_map.mp hmem
      obtain rfl := Node.field.inj hpart
      obtain ⟨hattr, hrunBuilt⟩ := followed run hrun
      exact ⟨dep, run.attr, run.entry, run.journal, ⟨hints, digest, asked, refers, depends,
        .inr ⟨run.followUp, followUps ▸ List.mem_map_of_mem hrun, hattr⟩⟩, hrunBuilt,
        restates_ruled _ run⟩
  · exact absurd (hnone.symm.trans asks) (by simp)

/-- The questions nested in an entry are asked in turn by its walk. -/
theorem asksInTurn {descriptor : Descriptor} (h : w.Builds bundle above declared built journal)
    (hdescriptor : descriptor = built.descriptor) (hpath : path = above.child declared.name)
    (hnests : descriptor.NestsQuestions path paths) : w.AsksInTurn bundle above declared paths := by
  induction hnests generalizing bundle above declared built journal with
  | last asks =>
      subst hdescriptor hpath
      obtain ⟨answer, extras, hslots⟩ | ⟨hnone, -⟩ := h.asked?_or_questionDepth_eq_zero
      · obtain ⟨_, _, _, _, _, _, _, asked, refers, -⟩ :=
          h.asked (Descriptor.asked?_of_question? hslots)
        exact .last asked refers
      · exact absurd (hnone.symm.trans asks) (by simp)
  | part holds inside ih =>
      subst hdescriptor hpath
      obtain ⟨dep, inner, core, first, asks, hcore, hpart⟩ := h.of_hasPart holds
      exact .part asks (ih hcore hpart.descriptor_eq (by rw [hpart.name_eq, hcore.name_eq]))

/-- As many questions are nested in an entry as it is deep. -/
theorem exists_nestsQuestions (h : w.Builds bundle above declared built journal)
    (hdepth : 0 < built.questionDepth) :
    ∃ paths, built.descriptor.NestsQuestions (above.child declared.name) paths ∧
      paths.length = built.questionDepth := by
  induction hlevels : built.questionDepth using Nat.strongRecOn
    generalizing bundle above declared built journal with
  | ind levels ih =>
      rw [FieldEntry.questionDepth_eq] at hlevels hdepth
      obtain ⟨answer, extras, hslots⟩ | ⟨-, hzero⟩ := h.asked?_or_questionDepth_eq_zero
      · obtain ⟨_, _, _, _, _, _, _, -, -, -, -, -, -, -, -, hextras⟩ :=
          h.asked (Descriptor.asked?_of_question? hslots)
        have hfields : ∀ page, extras = some page → ∃ entries : List FieldEntry,
            page.fields = entries.map .field :=
          fun page hpage => ⟨_, fields_of_extrasPage (hextras.symm.trans hpage)⟩
        obtain hone | ⟨part, holds, hpos, hpart⟩ :=
          Descriptor.exists_part_of_question hslots hfields
        · exact ⟨_, .last hslots, by rw [← hlevels, hone, List.length_singleton]⟩
        · obtain ⟨dep, inner, core, first, -, hcore, hrestates⟩ := h.of_hasPart holds
          have hsame : part.questionDepth = core.questionDepth := by
            rw [FieldEntry.questionDepth_eq, FieldEntry.questionDepth_eq, hrestates.descriptor_eq]
          obtain ⟨paths, hnests, hlength⟩ :=
            ih core.questionDepth (by omega) hcore (by omega) rfl
          rw [← hrestates.descriptor_eq, ← hcore.name_eq, ← hrestates.name_eq] at hnests
          exact ⟨_, .part holds hnests, by rw [List.length_cons]; omega⟩
      · omega

end Builds

/-- The walk over an attribute ends, and the questions in its entry are
bounded by the hints, however the bundles refer to each other.  A walk that
is cut off after more levels than there are hinted questions is the whole
walk.  Questions asked in turn have ever longer dotted paths, each of them
another key under which the hints ask for a question.  The questions nested
in the entry are asked in turn, so they are no deeper than there are such
keys. -/
theorem question_nesting_bounded (w : Walker) (bundle : Bundle) (above : Path)
    (declared : Attribute) :
    (∀ beyond levels, w.questionKeys.length < levels →
        w.cutOff beyond levels bundle above declared = w.fieldEntry bundle above declared) ∧
      (∀ paths, w.AsksInTurn bundle above declared paths →
        (paths.map Path.render).Pairwise (fun outer inner => outer.length < inner.length) ∧
          (paths.map Path.render).Nodup ∧ paths.map Path.render ⊆ w.questionKeys) ∧
      ∀ entry, (w.fieldEntry bundle above declared).outcome = .ok entry →
        (∀ paths, entry.descriptor.NestsQuestions (above.child entry.name) paths →
          w.AsksInTurn bundle above declared paths) ∧
          entry.questionDepth ≤ w.questionKeys.length := by
  refine ⟨fun beyond levels hlevels => cutOff_eq_fieldEntry ?_, fun paths hasks => ?_,
    fun entry hentry => ?_⟩
  · exact Nat.lt_of_le_of_lt (w.room_le_length_questionKeys _) hlevels
  · exact ⟨hasks.pairwise_length_render, hasks.nodup_render, hasks.render_subset⟩
  · have hwalk : w.fieldEntry bundle above declared =
        ⟨.ok entry, (w.fieldEntry bundle above declared).journal⟩ := by rw [← hentry]
    have hbuilds := builds_of_fieldEntry hwalk
    have hturn : ∀ paths, entry.descriptor.NestsQuestions (above.child entry.name) paths →
        w.AsksInTurn bundle above declared paths :=
      fun paths => hbuilds.asksInTurn rfl (by rw [hbuilds.name_eq])
    refine ⟨hturn, ?_⟩
    rcases Nat.eq_zero_or_pos entry.questionDepth with hzero | hpos
    · exact hzero ▸ Nat.zero_le _
    · obtain ⟨paths, hnests, hlength⟩ := hbuilds.exists_nestsQuestions hpos
      rw [← hlength]
      exact (hturn paths (hbuilds.name_eq ▸ hnests)).length_le

/-- A person whose friend is a person: two hints are followed around the
circle, then a name ends it. -/
theorem question_nesting_bounded_of_friends :
    let asks (name : String) : Hints :=
      { Hints.none with widget := some "question", answer := some name }
    let friend := Attribute.bare "friend" (.scalar (.reference "Eperson"))
    let person : Bundle :=
      ⟨"Eperson", [friend, .bare "name" (.scalar (.primitive .text))], .empty⟩
    let w : Walker :=
      { presentation := ⟨"Eperson", none, ["eng"], [], [], .empty, []⟩
        interaction := some ⟨"web", "capture",
          .ofList [("friend", asks "friend"), ("friend.friend", asks "name")]⟩
        registry := .ofList [person]
        references := References.empty.insert "Eperson" "friend" "Eperson"
        conditionals := .empty
        readonly := []
        now := .unixEpoch }
    w.dependency? person "friend" = some person ∧
      w.questionKeys = ["friend", "friend.friend"] ∧
      w.cutOff (fun _ _ _ => Walk.fail (.missingDependency "" "")) 3 person .root friend =
        w.fieldEntry person .root friend ∧
      ∃ entry, (w.fieldEntry person .root friend).outcome = .ok entry ∧
        entry.questionDepth = 2 ∧ entry.questionDepth ≤ w.questionKeys.length := by
  intro asks friend person w
  have hkeys : w.questionKeys = ["friend", "friend.friend"] := by decide +kernel
  obtain ⟨hcut, -, hbounded⟩ := question_nesting_bounded w person .root friend
  have hdepth : ((w.fieldEntry person .root friend).outcome.toOption.any
      fun entry => entry.questionDepth = 2) = true := by decide +kernel
  obtain ⟨entry, hentry, hdepth⟩ := (Option.any_eq_true _ _).mp hdepth
  have houtcome := ok_of_toOption hentry
  exact ⟨by decide +kernel, hkeys, hcut _ 3 (by rw [hkeys]; decide), entry, houtcome,
    of_decide_eq_true hdepth, (hbounded entry houtcome).2⟩

end Walker

end FormCompiler

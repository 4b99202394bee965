import FormCompiler.Presentation.Writer
import FormCompiler.Proofs.ValidPresentations
import FormCompiler.Proofs.WalkOutcome

/-!
# FormCompiler.Proofs.WrittenPresentations

Written presentations are read back.  The writers leave out what is absent, and
the readers start from drafts in which everything is absent, so reading a
written member sets just that member (`FieldReader.Reads`) and a written record
is read as that record, from the entries of pages (`PageSpec.read_toJson`) up to
the presentation (`Presentation.read_toJson`).

A raw hint that is `null` would be read as absent.  No reader keeps one: what a
reader preserves holds of every record that is read
(`FieldReader.preserved_readRecord`), so what was read once is read again
(`Presentation.written_presentation_reread`).
-/

namespace FormCompiler

/-! ## dictionaries -/

namespace Dictionary

variable {α : Type}

theorem find?_foldl_insert (entries : List (String × α)) (d : Dictionary α) (key : String) :
    (entries.foldl (fun d e => d.insert e.1 e.2) d).find? key =
      (entries.reverse.lookup key).or (d.find? key) := by
  induction entries generalizing d with
  | nil => rfl
  | cons entry entries ih =>
      rw [List.foldl_cons, ih, find?_insert, List.reverse_cons, lookup_append, Option.or_assoc,
        lookup_cons_eq, List.lookup_nil]
      split <;> rfl

/-- Of the values of a key the last one is found. -/
theorem find?_ofList (entries : List (String × α)) (key : String) :
    (ofList entries).find? key = entries.reverse.lookup key := by
  rw [ofList, find?_foldl_insert, find?_empty, Option.or_none]

/-- Collecting the entries of a dictionary gives it back. -/
theorem ofList_entries (d : Dictionary α) : ofList d.entries = d :=
  ext_find? fun key => by
    rw [find?_ofList, lookup_reverse (nodup_keys_of_sorted d.sorted), find?]

theorem mem_of_mem_ofList {entries : List (String × α)} {entry : String × α}
    (h : entry ∈ (ofList entries).entries) : entry ∈ entries := by
  have hfound : (ofList entries).find? entry.1 = some entry.2 :=
    lookup_of_mem_of_nodup (nodup_keys_of_sorted (ofList entries).sorted) h
  rw [find?_ofList] at hfound
  exact List.mem_reverse.mp (mem_of_lookup hfound)

end Dictionary

namespace Json

variable {α : Type} {read : Json → Shaped α} {f : α → Json}

/-- A raw value that is kept is not null. -/
theorem ne_null_of_toOptional {value : Json} {kept : Option Json}
    (h : value.toOptional .ok = .ok kept) : kept ≠ some .null := by
  cases value <;> (obtain rfl := Except.ok.inj h; simp)

theorem toOptional_ok {value : Json} (h : value ≠ .null) :
    value.toOptional .ok = .ok (some value) := by
  cases value with
  | null => exact absurd rfl h
  | _ => rfl

theorem toItems_map {xs : List α} (h : ∀ x ∈ xs, read (f x) = .ok x) :
    (Json.array (xs.map f)).toItems read = .ok xs :=
  mapM_map_eq_ok h

/-- What is read of each item of a list holds of the list. -/
theorem forall_of_toItems {Q : α → Prop} {value : Json} {xs : List α}
    (h : ∀ item x, read item = .ok x → Q x) (hread : value.toItems read = .ok xs) :
    ∀ x ∈ xs, Q x := by
  cases value with
  | array items => exact forall_of_mapM (fun item _ => h item) hread
  | _ => cases hread

/-- What is read of each value of an object holds of all values. -/
theorem forall_of_toFields {Q : α → Prop} {value : Json} {entries : List (String × α)}
    (h : ∀ item x, read item = .ok x → Q x) (hread : value.toFields read = .ok entries) :
    ∀ entry ∈ entries, Q entry.2 := by
  cases value with
  | object fields =>
      refine forall_of_mapM (fun field _ entry hentry => ?_) hread
      obtain ⟨x, hx, hentry⟩ := except_bind_eq_ok.mp hentry
      obtain rfl := Except.ok.inj hentry
      exact h field.2 x hx
  | _ => cases hread

theorem toItems_ofTexts (texts : List String) : (ofTexts texts).toItems toText = .ok texts :=
  toItems_map fun _ _ => rfl

/-- A written dictionary is read back. -/
theorem toFields_ofDictionary {d : Dictionary α} (h : ∀ e ∈ d.entries, read (f e.2) = .ok e.2) :
    (ofDictionary f d).toFields read = .ok d.entries := by
  refine mapM_map_eq_ok fun e he => ?_
  rw [h e he]
  rfl

end Json

/-! ## records -/

namespace FieldReader

variable {σ : Type} {readers : List (FieldReader σ)} {first second fields : List (String × Json)}
  {draft middle record : σ}

/-- The fields turn one draft into another. -/
def Reads (readers : List (FieldReader σ)) (fields : List (String × Json)) (draft next : σ) :
    Prop :=
  readFields readers fields draft = .ok next

/-- Fields that are read in two parts are read together. -/
theorem Reads.append (hfirst : Reads readers first draft middle)
    (hsecond : Reads readers second middle record) :
    Reads readers (first ++ second) draft record := by
  unfold Reads readFields at *
  rw [List.foldlM_append, hfirst]
  exact hsecond

theorem Reads.cons {field : String × Json} (hfirst : Reads readers [field] draft middle)
    (hrest : Reads readers fields middle record) : Reads readers (field :: fields) draft record :=
  hfirst.append hrest

theorem Reads.of_eq (h : Reads readers fields draft middle) (heq : middle = record) :
    Reads readers fields draft record :=
  heq ▸ h

theorem reads_nil (draft : σ) : Reads readers [] draft draft := rfl

section

variable {α : Type} {key : String} {required : Bool} {read : Json → Shaped α} {set : α → σ → σ}

/-- A field is read by the reader of its key, which sets what it has read. -/
theorem reads_member {value : Json} {member : α}
    (hfind : readers.find? (·.key = key) =
      some ⟨key, required, fun value draft => do return set (← read value) draft⟩)
    (hread : read value = .ok member) (hset : set member draft = record) :
    Reads readers [(key, value)] draft record := by
  unfold Reads readFields
  rw [List.foldlM_cons, hfind]
  simp only [hread]
  exact congrArg Except.ok hset

end

/-- A text that was written, or left out, is set. -/
theorem reads_text {key : String} {required : Bool} {set : Option String → σ → σ}
    (text : Option String)
    (hfind : readers.find? (·.key = key) = some
      ⟨key, required, fun value draft => do return set (← value.toOptional Json.toText) draft⟩)
    (hblank : set none draft = draft) :
    Reads readers (Json.optionalField key (text.map .string)) draft (set text draft) := by
  cases text with
  | none => exact (reads_nil draft).of_eq hblank.symm
  | some text => exact reads_member hfind rfl rfl

/-- A value that was kept as it stood, or left out, is set. -/
theorem reads_raw {key : String} {required : Bool} {set : Option Json → σ → σ}
    {value : Option Json} (hvalue : value ≠ some .null)
    (hfind : readers.find? (·.key = key) = some
      ⟨key, required, fun value draft => do return set (← value.toOptional .ok) draft⟩)
    (hblank : set none draft = draft) :
    Reads readers (Json.optionalField key value) draft (set value draft) := by
  cases value with
  | none => exact (reads_nil draft).of_eq hblank.symm
  | some value =>
      exact reads_member hfind (Json.toOptional_ok fun hnull => hvalue (congrArg some hnull)) rfl

/-- A record is read from its fields, none of the required ones missing. -/
theorem readRecord_object {name : String} (h : Reads readers fields draft record)
    (hmissing : missing? readers fields = none) :
    readRecord name readers draft (.object fields) = .ok record := by
  unfold Reads at h
  simp only [readRecord, h, bind, Except.bind, hmissing]

/-- The reader keeps a property of drafts. -/
def Preserves (reader : FieldReader σ) (P : σ → Prop) : Prop :=
  ∀ value draft next, P draft → reader.read value draft = .ok next → P next

section

variable {P : σ → Prop}

/-- A reader that sets what it has read keeps what holds of all that is set. -/
theorem preserves_of_set {α : Type} {key : String} {required : Bool} {read : Json → Shaped α}
    {set : α → σ → σ}
    (hset : ∀ value member draft, read value = .ok member → P draft → P (set member draft)) :
    Preserves ⟨key, required, fun value draft => do return set (← read value) draft⟩ P := by
  intro value draft next hdraft hread
  obtain ⟨member, hmember, hread⟩ := except_bind_eq_ok.mp hread
  obtain rfl := Except.ok.inj hread
  exact hset value member draft hmember hdraft

/-- What the readers preserve holds behind an object. -/
theorem preserved_readFields (hreaders : ∀ reader ∈ readers, reader.Preserves P) (hdraft : P draft)
    (h : readFields readers fields draft = .ok record) : P record := by
  induction fields generalizing draft with
  | nil =>
      obtain rfl := Except.ok.inj h
      exact hdraft
  | cons field fields ih =>
      rw [readFields, List.foldlM_cons] at h
      obtain ⟨next, hnext, h⟩ := except_bind_eq_ok.mp h
      refine ih ?_ h
      split at hnext
      · next reader hfind =>
          exact hreaders reader (List.mem_of_find?_eq_some hfind) _ _ _ hdraft hnext
      · obtain rfl := Except.ok.inj hnext
        exact hdraft

/-- What the readers preserve holds behind a list. -/
theorem preserved_readItems {name : String} {count taken : Nat} {items rest : List Json}
    (hreaders : ∀ reader ∈ readers, reader.Preserves P) (hdraft : P draft)
    (h : readItems name count taken readers items draft = .ok (record, rest)) : P record := by
  induction readers generalizing draft taken items with
  | nil =>
      rw [readItems] at h
      obtain ⟨rfl, -⟩ := Prod.mk.inj (Except.ok.inj h)
      exact hdraft
  | cons reader readers ih =>
      obtain ⟨hreader, hrest⟩ := List.forall_mem_cons.mp hreaders
      cases items with
      | nil =>
          rw [readItems] at h
          split at h
          · cases h
          · exact ih hrest hdraft h
      | cons item items =>
          rw [readItems] at h
          obtain ⟨next, hnext, h⟩ := except_bind_eq_ok.mp h
          exact ih hrest (hreader _ _ _ hdraft hnext) h

/-- What the readers preserve holds of the record, whichever way it is written.
-/
theorem preserved_readRecord {name : String} {value : Json}
    (hreaders : ∀ reader ∈ readers, reader.Preserves P) (hdraft : P draft)
    (h : readRecord name readers draft value = .ok record) : P record := by
  unfold readRecord at h
  split at h
  · next fields =>
      obtain ⟨next, hnext, h⟩ := except_bind_eq_ok.mp h
      split at h
      · cases h
      · obtain rfl := Except.ok.inj h
        exact preserved_readFields hreaders hdraft hnext
  · next items =>
      obtain ⟨⟨next, rest⟩, hnext, h⟩ := except_bind_eq_ok.mp h
      dsimp only at h
      split at h
      · obtain rfl := Except.ok.inj h
        exact preserved_readItems hreaders hdraft hnext
      · cases h
  · cases h

end

end FieldReader

/-! ## pages -/

namespace PageSpec

variable {draft : Draft}

/-- A name that was written, or left out, is set. -/
theorem readFields_optionalField {key : String} {rest : List (String × Json)}
    (set : Option String → Draft → Draft) (hblank : set none draft = draft)
    (hread : ∀ text, readFields draft ((key, .string text) :: rest) =
      readFields (set (some text) draft) rest) (text : Option String) :
    readFields draft (Json.optionalField key (text.map .string) ++ rest) =
      readFields (set text draft) rest := by
  cases text with
  | none =>
      rw [hblank]
      rfl
  | some text => exact hread text

/-- The entries of a page are read under their key. -/
theorem readFields_entries {items : List Json} {entries : List PageEntry}
    (h : readEntryList items = .ok entries) :
    readFields draft [("ao", .array items)] = .ok { draft with entries := some entries } := by
  rw [readFields, if_neg (by decide), if_neg (by decide), if_neg (by decide), if_pos rfl,
    readEntries, h]
  rfl

mutual

/-- A written page is read back, with the pages within it. -/
theorem read_toJson : ∀ spec : PageSpec, read spec.toJson = .ok spec
  | ⟨name, reference, synthetic, entries⟩ => by
    have hfields : readFields .blank (Json.optionalField "n" (name.map .string) ++
        (Json.optionalField "nr" (reference.map .string) ++
          (Json.optionalField "ns" (synthetic.map .string) ++
            [("ao", .array (entriesToJson entries))]))) =
        .ok ⟨name, reference, synthetic, some entries⟩ := by
      refine Eq.trans (readFields_optionalField (fun name d => { d with name })
        rfl (fun _ => rfl) name) ?_
      refine Eq.trans (readFields_optionalField (fun reference d => { d with reference })
        rfl (fun _ => rfl) reference) ?_
      refine Eq.trans (readFields_optionalField (fun synthetic d => { d with synthetic })
        rfl (fun _ => rfl) synthetic) ?_
      exact readFields_entries (readEntryList_entriesToJson entries)
    rw [toJson, read, List.append_assoc, List.append_assoc, hfields]
    rfl

theorem readEntry_entryToJson : ∀ entry : PageEntry, readEntry (entryToJson entry) = .ok entry
  | .field _ => rfl
  | .page spec => readEntry_of_read (read_toJson spec)

theorem readEntryList_entriesToJson :
    ∀ entries : List PageEntry, readEntryList (entriesToJson entries) = .ok entries
  | [] => rfl
  | entry :: entries => by
    rw [entriesToJson, readEntryList, readEntry_entryToJson entry,
      readEntryList_entriesToJson entries]
    rfl

end

end PageSpec

/-! ## hints -/

namespace Hints

open FieldReader

variable {key : String} {draft : Hints}

def raw (h : Hints) : List (Option Json) :=
  [h.options, h.range, h.step, h.bindings, h.id, h.idFormat, h.onItemRemove]

/-- No hint is kept as `null`, which would read as absent. -/
def NullFree (h : Hints) : Prop := ∀ value ∈ h.raw, value ≠ some .null

/-- Written hints are read back, unless one is `null`. -/
theorem read_toJson {h : Hints} (hfree : h.NullFree) : read h.toJson = .ok h := by
  obtain ⟨widget, options, variant, range, step, bindings, answer, id, idFormat, onItemRemove⟩ := h
  simp only [NullFree, raw, List.forall_mem_cons] at hfree
  obtain ⟨hoptions, hrange, hstep, hbindings, hid, hidFormat, hremove, -⟩ := hfree
  refine readRecord_object ?_ rfl
  simp only [List.append_assoc]
  refine .append (reads_text widget (by rfl) (by rfl)) ?_
  refine .append (reads_raw hoptions (by rfl) (by rfl)) ?_
  refine .append (reads_text variant (by rfl) (by rfl)) ?_
  refine .append (reads_raw hrange (by rfl) (by rfl)) ?_
  refine .append (reads_raw hstep (by rfl) (by rfl)) ?_
  refine .append (reads_raw hbindings (by rfl) (by rfl)) ?_
  refine .append (reads_text answer (by rfl) (by rfl)) ?_
  refine .append (reads_raw hid (by rfl) (by rfl)) ?_
  refine .append (reads_raw hidFormat (by rfl) (by rfl)) ?_
  exact .of_eq (reads_raw hremove (by rfl) (by rfl)) rfl

/-- A text that is read changes no raw hint. -/
theorem textReader_preserves {set : Option String → Hints → Hints}
    (hset : ∀ text draft, (set text draft).raw = draft.raw) :
    (textReader key set).Preserves NullFree := by
  refine preserves_of_set fun _ text draft _ hdraft => ?_
  rw [NullFree, hset]
  exact hdraft

/-- A raw hint that is read takes its place among them, and is not `null`. -/
theorem rawReader_preserves {set : Option Json → Hints → Hints} (place : Nat)
    (hset : ∀ value draft, (set value draft).raw = draft.raw.set place value) :
    (rawReader key set).Preserves NullFree := by
  refine preserves_of_set fun _ value draft hvalue hdraft kept hkept => ?_
  rw [hset] at hkept
  obtain hkept | rfl := List.mem_or_eq_of_mem_set hkept
  · exact hdraft kept hkept
  · exact Json.ne_null_of_toOptional hvalue

/-- No reader of hints keeps a null. -/
theorem readers_preserve : ∀ reader ∈ readers, reader.Preserves NullFree := by
  simp only [readers, List.forall_mem_cons]
  exact ⟨textReader_preserves fun _ _ => rfl, rawReader_preserves 0 fun _ _ => rfl,
    textReader_preserves fun _ _ => rfl, rawReader_preserves 1 fun _ _ => rfl,
    rawReader_preserves 2 fun _ _ => rfl, rawReader_preserves 3 fun _ _ => rfl,
    textReader_preserves fun _ _ => rfl, rawReader_preserves 4 fun _ _ => rfl,
    rawReader_preserves 5 fun _ _ => rfl, rawReader_preserves 6 fun _ _ => rfl, by simp⟩

/-- No hint that was read is `null`. -/
theorem nullFree_of_read {value : Json} {h : Hints} (hread : read value = .ok h) : h.NullFree :=
  preserved_readRecord readers_preserve (by simp [NullFree, raw, Hints.none]) hread

end Hints

/-! ## interactions -/

namespace Interaction

open FieldReader

/-- No attribute has a hint that is `null`. -/
def NullFree (i : Interaction) : Prop := ∀ entry ∈ i.hints.entries, entry.2.NullFree

/-- A written interaction is read back. -/
theorem read_toJson {i : Interaction} (hfree : i.NullFree) : read i.toJson = .ok i := by
  obtain ⟨medium, context, hints⟩ := i
  have hhints : (Json.ofDictionary Hints.toJson hints).toFields Hints.read = .ok hints.entries :=
    Json.toFields_ofDictionary fun entry hentry => Hints.read_toJson (hfree entry hentry)
  refine readRecord_object (.cons (reads_member rfl rfl rfl) (.cons (reads_member rfl rfl rfl) ?_))
    rfl
  exact reads_member rfl hhints (by rw [hints.ofList_entries])

/-- No hint of an interaction that was read is `null`. -/
theorem nullFree_of_read {value : Json} {i : Interaction} (hread : read value = .ok i) :
    i.NullFree := by
  have hhints : ∀ (value : Json) entries, value.toFields Hints.read = .ok entries →
      ∀ entry ∈ (Dictionary.ofList entries).entries, entry.2.NullFree :=
    fun value entries hentries entry hentry =>
      Json.forall_of_toFields (fun _ _ => Hints.nullFree_of_read) hentries entry
        (Dictionary.mem_of_mem_ofList hentry)
  refine preserved_readRecord ?_ (by simp [NullFree, Dictionary.empty]) hread
  simp only [readers, List.forall_mem_cons]
  exact ⟨preserves_of_set fun _ _ _ _ hdraft => hdraft,
    preserves_of_set fun _ _ _ _ hdraft => hdraft,
    preserves_of_set fun value entries _ hentries _ => hhints value entries hentries, by simp⟩

end Interaction

/-! ## presentations -/

namespace Presentation

open FieldReader

/-- No interaction has a hint that is `null`. -/
def NullFree (p : Presentation) : Prop := ∀ i ∈ p.interactions, i.NullFree

theorem readTitles_ofDictionary (titles : Dictionary String) :
    readTitles (Json.ofDictionary .string titles) = .ok titles := by
  rw [readTitles, Json.toFields_ofDictionary fun _ _ => rfl]
  exact congrArg Except.ok titles.ofList_entries

/-- A written presentation is read back. -/
theorem read_toJson {p : Presentation} (hfree : p.NullFree) : read p.toJson = .ok p := by
  obtain ⟨bundleDigest, digest, languages, pages, pageOrder, pageLabels, interactions⟩ := p
  have hpages : (Json.array (pages.map PageSpec.toJson)).toItems PageSpec.read = .ok pages :=
    Json.toItems_map fun spec _ => PageSpec.read_toJson spec
  have hlabels : (Json.ofDictionary (Json.ofDictionary .string) pageLabels).toFields readTitles =
      .ok pageLabels.entries :=
    Json.toFields_ofDictionary fun entry _ => readTitles_ofDictionary entry.2
  have hinteractions : (Json.array (interactions.map Interaction.toJson)).toItems
      Interaction.read = .ok interactions :=
    Json.toItems_map fun i hi => Interaction.read_toJson (hfree i hi)
  refine readRecord_object (.append (.append (reads_member rfl rfl rfl)
    (reads_text digest (by rfl) rfl)) ?_) ?_
  · refine .cons (reads_member rfl (Json.toItems_ofTexts languages) rfl) ?_
    refine .cons (reads_member rfl hpages rfl) ?_
    refine .cons (reads_member rfl (Json.toItems_ofTexts pageOrder) rfl) ?_
    refine .cons (reads_member rfl hlabels rfl) ?_
    exact reads_member rfl hinteractions (by rw [pageLabels.ofList_entries])
  · cases digest <;> rfl

/-- No hint of a presentation that was read is `null`. -/
theorem nullFree_of_read {value : Json} {p : Presentation} (hread : read value = .ok p) :
    p.NullFree := by
  have hother : ∀ {α : Type} {key : String} {required : Bool} {read : Json → Shaped α}
      {set : α → Presentation → Presentation},
      (∀ member draft, (set member draft).interactions = draft.interactions) →
      Preserves ⟨key, required, fun value draft => do return set (← read value) draft⟩
        NullFree := fun hset => preserves_of_set fun _ member draft _ hdraft => by
    rw [NullFree, hset]
    exact hdraft
  refine preserved_readRecord ?_ (by simp [NullFree, blank]) hread
  simp only [readers, List.forall_mem_cons]
  exact ⟨hother fun _ _ => rfl, hother fun _ _ => rfl, hother fun _ _ => rfl,
    hother fun _ _ => rfl, hother fun _ _ => rfl, hother fun _ _ => rfl,
    preserves_of_set fun _ _ _ hinteractions _ =>
      Json.forall_of_toItems (fun _ _ => Interaction.nullFree_of_read) hinteractions, by simp⟩

/-- A presentation is read exactly if its record is. -/
theorem ofJson_eq_ok_iff {doc : Json} {p : Presentation} :
    ofJson doc = .ok p ↔ read doc = .ok p := by
  unfold ofJson
  cases read doc with
  | ok q =>
      exact ⟨fun h => congrArg Except.ok (Except.ok.inj h),
        fun h => congrArg Except.ok (Except.ok.inj h)⟩
  | error e => exact ⟨nofun, nofun⟩

/-- Just the presentations without hints that are `null` are read back. -/
theorem ofJson_toJson_eq_ok_iff {p : Presentation} : ofJson p.toJson = .ok p ↔ p.NullFree :=
  ⟨fun h => nullFree_of_read (ofJson_eq_ok_iff.mp h),
    fun hfree => ofJson_eq_ok_iff.mpr (read_toJson hfree)⟩

/-- A presentation that was read from a document is read again, unchanged,
from the document that it is written as. -/
theorem written_presentation_reread {doc : Json} {p : Presentation} (h : ofJson doc = .ok p) :
    ofJson p.toJson = .ok p :=
  ofJson_toJson_eq_ok_iff.mpr (nullFree_of_read (ofJson_eq_ok_iff.mp h))

/-- A page within a page, once as an array and once as an object, and hints
of which one is `null`, so that it is not written. -/
theorem written_presentation_reread_of_nested :
    let inner := Json.array [.null, .string "b", .null, .array [.string "c"]]
    let main := Json.object [("ns", .string "p"), ("ao", .array [.string "a", inner])]
    let hints := Json.object [("t", .string "radio"), ("o", .string "row"), ("m", .null),
      ("s", .number (.integer 2)), ("id", .object [("x", .array [.null])])]
    let interaction := Json.array [.string "web", .string "capture", .object [("a.b", hints)]]
    let doc := Json.object [("bd", .string "E"), ("p", .array [main]), ("x", .null),
      ("pl", .object [("nl", .object [("p", .string "P")]), ("en", .object [])]),
      ("i", .array [interaction])]
    let p : Presentation :=
      { blank with
        bundleDigest := "E"
        pages := [⟨none, none, some "p", [.field "a", .page ⟨none, some "b", none, [.field "c"]⟩]⟩]
        pageLabels := .ofList [("en", .empty), ("nl", .ofList [("p", "P")])]
        interactions := [⟨"web", "capture", .ofList [("a.b",
          { Hints.none with
            widget := some "radio"
            options := some (.string "row")
            step := some (.number (.integer 2))
            id := some (.object [("x", .array [.null])]) })]⟩] }
    ofJson doc = .ok p ∧ ofJson p.toJson = .ok p := by
  intro inner main hints interaction doc p
  have hread : ofJson doc = .ok p := by rfl
  exact ⟨hread, written_presentation_reread hread⟩

end Presentation

end FormCompiler

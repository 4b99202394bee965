import FormCompiler.Proofs.SharedKeys

/-!
# FormCompiler.Proofs.SectionTitles

Titles of the sections of a form.  The key of a title is made of the name of
the section alone, so sections of one name share it wherever they stand, and
so does a top-level page whose name is the key.  The title that was recorded
last stands (`CompileRequest.lastTitle?`): a section has the title of its
source unless a page with the same key has another one
(`CompileRequest.section_titles_recorded`).
-/

namespace FormCompiler

/-! ## the sections of a form -/

mutual

/-- The sections within the descriptor of a field on a page at a path: those
among the elements of a list. -/
def Descriptor.sections (path : Path) : Descriptor → List (Path × PageNode)
  | .list _ elements => Node.sections path elements
  | _ => []

/-- The sections within a field on a page at a path. -/
def FieldEntry.sections (path : Path) : FieldEntry → List (Path × PageNode)
  | ⟨_, _, _, _, _, descriptor⟩ => descriptor.sections path

def PageNode.sections (path : Path) : PageNode → List (Path × PageNode)
  | ⟨kind, name, title, condition, fields⟩ =>
    (path, ⟨kind, name, title, condition, fields⟩) :: Node.sections path fields

def Node.sections (above : Path) : List Node → List (Path × PageNode)
  | [] => []
  | .field entry :: nodes => entry.sections above ++ Node.sections above nodes
  | .page page :: nodes => page.sections (above.child page.name) ++ Node.sections above nodes

end

def Form.sections (form : Form) : List (Path × PageNode) :=
  form.pages.flatMap fun page => Node.sections .root page.fields

/-- An entry is no section, but its descriptor may hold some. -/
theorem FieldEntry.sections_eq (entry : FieldEntry) (path : Path) :
    entry.sections path = entry.descriptor.sections path := by
  cases entry
  rw [FieldEntry.sections]

/-- A page is a section, and its fields hold others. -/
theorem PageNode.sections_eq (page : PageNode) (path : Path) :
    page.sections path = (path, page) :: Node.sections path page.fields := by
  cases page
  rw [PageNode.sections]

/-- Only lists hold sections. -/
theorem FieldEntry.sections_of_isList_eq_false {entry : FieldEntry} (h : entry.isList = false)
    (path : Path) : entry.sections path = [] := by
  rw [sections_eq]
  unfold isList Descriptor.isList at h
  split at h
  · contradiction
  · next hnot =>
      rw [Descriptor.sections]
      exact hnot

/-- Among nodes behind a section stand the section, those within it, and
those among the other nodes. -/
theorem Node.mem_sections_page_iff {above : Path} {page : PageNode} {nodes : List Node}
    {found : Path × PageNode} :
    found ∈ Node.sections above (.page page :: nodes) ↔
      found = (above.child page.name, page) ∨
        found ∈ Node.sections (above.child page.name) page.fields ∨
        found ∈ Node.sections above nodes := by
  rw [Node.sections, PageNode.sections_eq, List.cons_append, List.mem_cons, List.mem_append]

theorem Node.sections_append (path : Path) (first second : List Node) :
    Node.sections path (first ++ second) =
      Node.sections path first ++ Node.sections path second := by
  induction first with
  | nil => rw [List.nil_append, Node.sections, List.nil_append]
  | cons node nodes ih =>
      cases node with
      | field entry => rw [List.cons_append, Node.sections, ih, Node.sections, List.append_assoc]
      | page page => rw [List.cons_append, Node.sections, ih, Node.sections, List.append_assoc]

theorem Node.mem_sections_cons {path : Path} {nodes : List Node} {found : Path × PageNode}
    (node : Node) (h : found ∈ Node.sections path nodes) :
    found ∈ Node.sections path (node :: nodes) := by
  rw [← List.singleton_append, Node.sections_append]
  exact List.mem_append_right _ h

namespace Walker

/-! ## sections and where they come from -/

/-- A page that reads attributes from the bundle `owner` and stands below
`place` is made into a section at a path. -/
def Makes (w : Walker) (spec : PageSpec) (owner : Bundle) (place path : Path) (page : PageNode) :
    Prop :=
  ∃ address journal, spec.address = .ok address ∧ path = place.child address.name ∧
    w.Fills [.page spec] owner place [.page page] journal

/-- An entry of a page is made into a section at a path. -/
def MakesEntry (w : Walker) (path : Path) (page : PageNode) : PageEntry → Bundle → Path → Prop
  | .field _, _, _ => False
  | .page spec, owner, place => w.Makes spec owner place path page

section Sections

variable {w : Walker} {entries : List PageEntry} {bundle owner : Bundle} {above place path : Path}
  {nodes : List Node} {journal : Journal} {spec : PageSpec} {page : PageNode}

/-- The key of the title of a section is made of the name of the page. -/
theorem Makes.title_eq (h : w.Makes spec owner place path page) :
    ∃ address, spec.address = .ok address ∧ page.title = sectionTitleKey address.name := by
  obtain ⟨address, journal, addressed, -, hfills⟩ := h
  refine ⟨address, addressed, ?_⟩
  cases hfills with
  | synthetic addressed' =>
      obtain rfl := Except.ok.inj (addressed.symm.trans addressed')
      rfl
  | embedded addressed' | list addressed' =>
      obtain rfl := Except.ok.inj (addressed.symm.trans addressed')
      rfl

/-- The list of an array holds the sections among its elements. -/
theorem sections_listOf {attr : Attribute} {identifier : Option FieldEntry}
    (h : w.listIdentifier path = ⟨.ok identifier, journal⟩) (nodes : List Node) :
    (w.listOf attr path identifier nodes).sections path = Node.sections path nodes := by
  have hidentifier : Node.sections path (identifier.toList.map .field) = [] := by
    obtain ⟨rfl, -⟩ | ⟨hints, id, format, -, rfl, -⟩ := listIdentifier_eq_ok h
    · rw [Option.toList_none, List.map_nil, Node.sections]
    · rw [Option.toList_some, List.map_singleton, Node.sections, Node.sections,
        FieldEntry.sections_of_isList_eq_false rfl, List.append_nil]
  rw [FieldEntry.sections_eq, listOf, Descriptor.sections, Node.sections_append, hidentifier,
    List.append_nil]

/-- Every section on a page is made of an entry that is met. -/
theorem Fills.meetsSome_of_mem_sections (h : w.Fills entries bundle above nodes journal)
    (hpage : (path, page) ∈ Node.sections above nodes) :
    w.MeetsSome (w.MakesEntry path page) entries bundle above := by
  induction h with
  | nil => simp [Node.sections] at hpage
  | field found built others ih =>
      rw [Node.sections, FieldEntry.sections_of_isList_eq_false built.isList_eq] at hpage
      exact meetsSome_field_iff.mpr (.inr (ih hpage))
  | synthetic addressed inside others ihInside ihOthers =>
      rw [meetsSome_synthetic_iff addressed]
      refine (Node.mem_sections_page_iff.mp hpage).imp (fun hself => ?_) (Or.imp ihInside ihOthers)
      obtain ⟨rfl, rfl⟩ := Prod.mk.inj hself
      exact ⟨_, _, addressed, rfl, .synthetic addressed inside .nil⟩
  | embedded addressed embeds found refers scalar depends inside others ihInside ihOthers =>
      rw [meetsSome_embedded_iff addressed embeds depends]
      refine (Node.mem_sections_page_iff.mp hpage).imp (fun hself => ?_) (Or.imp ihInside ihOthers)
      obtain ⟨rfl, rfl⟩ := Prod.mk.inj hself
      exact ⟨_, _, addressed, rfl,
        .embedded addressed embeds found refers scalar depends inside .nil⟩
  | list addressed embeds found refers array depends identified inside others ihInside ihOthers =>
      rw [meetsSome_embedded_iff addressed embeds depends]
      refine (Node.mem_sections_page_iff.mp hpage).imp (fun hself => ?_)
        (Or.imp (fun hinside => ihInside ?_) ihOthers)
      · obtain ⟨rfl, rfl⟩ := Prod.mk.inj hself
        exact ⟨_, _, addressed, rfl,
          .list addressed embeds found refers array depends identified inside .nil⟩
      · simpa only [sectionNode, Node.sections, List.append_nil, sections_listOf identified]
          using hinside

/-- Every page that is met is made into a section. -/
theorem Meets.exists_makes {entry : PageEntry}
    (hmeets : w.Meets entries bundle above entry owner place) (hspec : entry = .page spec)
    (hfills : w.Fills entries bundle above nodes journal) :
    ∃ path page, w.Makes spec owner place path page ∧ (path, page) ∈ Node.sections above nodes := by
  -- The way to the page and the derivation take the same turns, because the
  -- address and the dependency of a page are functions of it.
  induction hmeets generalizing nodes journal with
  | here =>
      subst hspec
      cases hfills with
      | synthetic addressed inside others =>
          exact ⟨_, _, ⟨_, _, addressed, rfl, .synthetic addressed inside .nil⟩,
            Node.mem_sections_page_iff.mpr (.inl rfl)⟩
      | embedded addressed embeds found refers scalar depends inside others =>
          exact ⟨_, _, ⟨_, _, addressed, rfl,
            .embedded addressed embeds found refers scalar depends inside .nil⟩,
            Node.mem_sections_page_iff.mpr (.inl rfl)⟩
      | list addressed embeds found refers array depends identified inside others =>
          exact ⟨_, _, ⟨_, _, addressed, rfl,
            .list addressed embeds found refers array depends identified inside .nil⟩,
            Node.mem_sections_page_iff.mpr (.inl rfl)⟩
  | synthetic addressed _ ih =>
      cases hfills with
      | synthetic addressed' inside others =>
          obtain rfl := PageAddress.synthetic.inj (Except.ok.inj (addressed.symm.trans addressed'))
          obtain ⟨path, page, hmakes, hmem⟩ := ih hspec inside
          exact ⟨path, page, hmakes, Node.mem_sections_page_iff.mpr (.inr (.inl hmem))⟩
      | embedded addressed' embeds | list addressed' embeds =>
          exact absurd (Except.ok.inj (addressed'.symm.trans addressed)) (embeds _)
  | embedded addressed embeds depends _ ih =>
      cases hfills with
      | synthetic addressed' =>
          exact absurd (Except.ok.inj (addressed.symm.trans addressed')) (embeds _)
      | embedded addressed' _ _ _ _ depends' inside others =>
          obtain rfl := Except.ok.inj (addressed.symm.trans addressed')
          obtain rfl := Option.some.inj (depends.symm.trans depends')
          obtain ⟨path, page, hmakes, hmem⟩ := ih hspec inside
          exact ⟨path, page, hmakes, Node.mem_sections_page_iff.mpr (.inr (.inl hmem))⟩
      | list addressed' _ _ _ _ depends' identified inside others =>
          obtain rfl := Except.ok.inj (addressed.symm.trans addressed')
          obtain rfl := Option.some.inj (depends.symm.trans depends')
          obtain ⟨path, page, hmakes, hmem⟩ := ih hspec inside
          refine ⟨path, page, hmakes, Node.mem_sections_page_iff.mpr (.inr (.inl ?_))⟩
          simpa only [sectionNode, Node.sections, List.append_nil, sections_listOf identified]
  | later _ ih =>
      cases nodes with
      | nil => cases hfills
      | cons node nodes =>
          obtain ⟨rest, hothers⟩ := hfills.tail
          obtain ⟨path, page, hmakes, hmem⟩ := ih hspec hothers
          exact ⟨path, page, hmakes, Node.mem_sections_cons node hmem⟩

/-- Every name of the page order that is there has a page. -/
theorem FillsPages.exists_page {names : List String} {pages : List PageNode} {name : String}
    (h : w.FillsPages bundle names pages journal) (hname : name ∈ names)
    (found : w.presentation.findPage? name = some spec) :
    ∃ page ∈ pages, ∃ first, w.Fills spec.entries bundle .root page.fields first := by
  induction h with
  | nil => simp at hname
  | missing missing others ih =>
      rcases List.mem_cons.mp hname with rfl | hname
      · rw [found] at missing
        contradiction
      · exact ih hname
  | page found' addressed inside others ih =>
      rcases List.mem_cons.mp hname with rfl | hname
      · obtain rfl := Option.some.inj (found.symm.trans found')
        exact ⟨_, List.mem_cons_self, _, inside⟩
      · obtain ⟨page, hpage, hfills⟩ := ih hname
        exact ⟨page, List.mem_cons_of_mem _ hpage, hfills⟩

end Sections

/-! ## titles in journals -/

/-- The text of the title of a section in a language: the label of the page
for a synthetic page, and otherwise the label of the attribute. -/
def sectionText? (w : Walker) (spec : PageSpec) (owner : Bundle) (lang : String) :
    Option String :=
  match spec.address with
  | .ok (.synthetic name) => w.presentation.pageLabel? lang name
  | .ok address => (owner.attribute? address.name).bind (·.labels.get? lang)
  | .error _ => none

/-- An entry of a page puts a text under a key of titles. -/
def TitlesEntry (w : Walker) (lang key text : String) : PageEntry → Bundle → Path → Prop
  | .field _, _, _ => False
  | .page spec, owner, _ => ∃ address, spec.address = .ok address ∧
      key = sectionTitleKey address.name ∧ w.sectionText? spec owner lang = some text

/-- What is written down for each language is the title under a key, or a
notice where there is no text. -/
def TitlesUnder (entry : String → JournalEntry) (key : String)
    (text? : String → Option String) : Prop :=
  ∀ lang, (∃ text, text? lang = some text ∧ entry lang = .title lang key text) ∨
    text? lang = none ∧ ∃ notice, entry lang = .notice notice

section Titles

variable {w : Walker} {entries : List PageEntry} {bundle : Bundle} {above path : Path}
  {nodes : List Node} {journal : Journal} {spec : PageSpec} {lang key text : String}
  {address : PageAddress} {attr : Attribute}

/-- Of the entries for titles in many languages one is a title in a
language. -/
theorem TitlesUnder.mem_map_iff {entry : String → JournalEntry} {titleKey : String}
    {text? : String → Option String} (h : TitlesUnder entry titleKey text?)
    (languages : List String) :
    .title lang key text ∈ languages.map entry ↔
      lang ∈ languages ∧ key = titleKey ∧ text? lang = some text := by
  rw [List.mem_map]
  constructor
  · rintro ⟨l, hl, hentry⟩
    obtain ⟨title, htext, htitle⟩ | ⟨-, notice, hnotice⟩ := h l
    · rw [htitle] at hentry
      obtain ⟨rfl, rfl, rfl⟩ := JournalEntry.title.inj hentry
      exact ⟨hl, rfl, htext⟩
    · rw [hnotice] at hentry
      contradiction
  · rintro ⟨hlang, rfl, htext⟩
    obtain ⟨title, htext', htitle⟩ | ⟨hnone, -⟩ := h lang
    · obtain rfl := Option.some.inj (htext.symm.trans htext')
      exact ⟨lang, hlang, htitle⟩
    · rw [hnone] at htext
      contradiction

/-- A synthetic page writes the label that the presentation has for it, under
the key of its section. -/
theorem titlesUnder_synthetic (w : Walker) (name key : String) :
    TitlesUnder (w.syntheticTitleEntry name key) key (w.presentation.pageLabel? · name) := by
  intro lang
  unfold syntheticTitleEntry
  cases htext : w.presentation.pageLabel? lang name with
  | none => exact .inr ⟨htext, _, rfl⟩
  | some title => exact .inl ⟨title, htext, rfl⟩

/-- The page of an attribute writes the labels of the attribute. -/
theorem titlesUnder_reference (attr : Attribute) (key : String) :
    TitlesUnder (referenceTitleEntry attr key) key attr.labels.get? := by
  intro lang
  unfold referenceTitleEntry
  cases attr.labels.get? lang with
  | none => exact .inr ⟨rfl, _, rfl⟩
  | some label => exact .inl ⟨label, rfl, rfl⟩

/-- A top-level page writes its label under its own name. -/
theorem titlesUnder_page (w : Walker) (page : String) :
    TitlesUnder (w.pageTitleEntry page) page (w.presentation.pageLabel? · page) := by
  intro lang
  unfold pageTitleEntry
  cases hlabels : w.presentation.pageLabels.find? lang with
  | none => exact .inr ⟨by simp [Presentation.pageLabel?, hlabels], _, rfl⟩
  | some labels =>
      have htext : w.presentation.pageLabel? lang page = labels.find? page := by
        rw [Presentation.pageLabel?, hlabels, Option.bind_some]
      dsimp only
      cases hlabel : labels.find? page with
      | none => exact .inr ⟨htext.trans hlabel, _, rfl⟩
      | some title => exact .inl ⟨title, htext.trans hlabel, rfl⟩

theorem Builds.title_notMem {declared : Attribute} {built : FieldEntry}
    (h : w.Builds bundle above declared built journal) : .title lang key text ∉ journal := by
  intro hmem
  obtain ⟨place, attr, hline⟩ | ⟨notice, hline⟩ := h.mem_journal_cases hmem <;> contradiction

theorem title_notMem_of_listIdentifier {identifier : Option FieldEntry}
    (h : w.listIdentifier path = ⟨.ok identifier, journal⟩) : .title lang key text ∉ journal := by
  obtain ⟨-, rfl⟩ | ⟨hints, id, format, -, -, rfl⟩ := listIdentifier_eq_ok h <;> simp

/-- A title of the page of an attribute is a label of the attribute in a
requested language. -/
theorem mem_referenceTitles_iff :
    .title lang key text ∈ w.referenceTitles address attr ↔ lang ∈ w.presentation.languages ∧
      key = sectionTitleKey address.name ∧ attr.labels.get? lang = some text := by
  simp [referenceTitles, (titlesUnder_reference attr (sectionTitleKey address.name)).mem_map_iff]

/-- A title of a top-level page is its label in a requested language. -/
theorem mem_pageTitles_iff {page : String} :
    .title lang key text ∈ w.pageTitles address page ↔ lang ∈ w.presentation.languages ∧
      key = page ∧ w.presentation.pageLabel? lang page = some text := by
  simp [pageTitles, (titlesUnder_page w page).mem_map_iff]

/-- A synthetic page gives the label that the presentation has for its name. -/
theorem titlesEntry_synthetic_iff {name : String}
    (addressed : spec.address = .ok (.synthetic name)) :
    w.TitlesEntry lang key text (.page spec) bundle above ↔
      key = sectionTitleKey name ∧ w.presentation.pageLabel? lang name = some text := by
  simp [TitlesEntry, sectionText?, addressed, PageAddress.name]

/-- An embedded page gives a label of its attribute. -/
theorem titlesEntry_embedded_iff (addressed : spec.address = .ok address)
    (embeds : ∀ name, address ≠ .synthetic name)
    (found : bundle.attribute? address.name = some attr) :
    w.TitlesEntry lang key text (.page spec) bundle above ↔
      key = sectionTitleKey address.name ∧ attr.labels.get? lang = some text := by
  have htext : w.sectionText? spec bundle lang = attr.labels.get? lang := by
    unfold sectionText?
    split
    · next haddress => exact absurd (Except.ok.inj (addressed.symm.trans haddress)) (embeds _)
    · next haddress =>
        obtain rfl := Except.ok.inj (addressed.symm.trans haddress)
        rw [found, Option.bind_some]
    · next haddress => rw [addressed] at haddress; contradiction
  simp [TitlesEntry, htext, addressed]

/-- The titles that filling in a page writes down are those of the sections
within it. -/
theorem Fills.mem_title_iff (h : w.Fills entries bundle above nodes journal) :
    .title lang key text ∈ journal ↔ lang ∈ w.presentation.languages ∧
      w.MeetsSome (w.TitlesEntry lang key text) entries bundle above := by
  induction h with
  | nil => simp [not_meetsSome_nil]
  | field found built others ih =>
      rw [List.mem_append, or_iff_right built.title_notMem, ih, meetsSome_field_iff]
      simp [TitlesEntry]
  | synthetic addressed inside others ihInside ihOthers =>
      rw [List.mem_append, List.mem_append, ihInside, ihOthers, syntheticTitles,
        (titlesUnder_synthetic w _ _).mem_map_iff, meetsSome_synthetic_iff addressed,
        titlesEntry_synthetic_iff addressed, ← and_or_left, ← and_or_left, or_assoc]
  | embedded addressed embeds found refers scalar depends inside others ihInside ihOthers =>
      rw [List.mem_append, List.mem_append, ihInside, ihOthers, mem_referenceTitles_iff,
        meetsSome_embedded_iff addressed embeds depends,
        titlesEntry_embedded_iff addressed embeds found, ← and_or_left, ← and_or_left, or_assoc]
  | list addressed embeds found refers array depends identified inside others ihInside ihOthers =>
      rw [List.mem_append, List.mem_append, List.mem_append,
        or_iff_right (title_notMem_of_listIdentifier identified), ihInside, ihOthers,
        mem_referenceTitles_iff,
        meetsSome_embedded_iff addressed embeds depends,
        titlesEntry_embedded_iff addressed embeds found, ← and_or_left, ← and_or_left, or_assoc]

/-- The titles of a form are those of its pages and of the sections within
them. -/
theorem FillsPages.mem_title_iff {names : List String} {pages : List PageNode}
    (h : w.FillsPages bundle names pages journal) :
    .title lang key text ∈ journal ↔ lang ∈ w.presentation.languages ∧
      ∃ name ∈ names, ∃ spec, w.presentation.findPage? name = some spec ∧
        (key = name ∧ w.presentation.pageLabel? lang name = some text ∨
          w.MeetsSome (w.TitlesEntry lang key text) spec.entries bundle .root) := by
  induction h with
  | nil => simp
  | missing missing others ih =>
      rw [List.mem_cons, or_iff_right (by simp), ih]
      simp [missing]
  | page found addressed inside others ih =>
      rw [List.mem_append, List.mem_append, mem_pageTitles_iff, inside.mem_title_iff, ih,
        ← and_or_left, ← and_or_left]
      simp only [List.exists_mem_cons_iff, found, Option.some.injEq, exists_eq_left']

end Titles

end Walker

/-! ## titles in dictionaries -/

/-- What a line of a journal puts under a key of the titles of a language. -/
def JournalEntry.titleAt? (lang key : String) : JournalEntry → Option String
  | .title l k text => if lang = l ∧ key = k then some text else none
  | _ => none

theorem JournalEntry.titleAt?_eq_some {lang key text : String} {entry : JournalEntry} :
    entry.titleAt? lang key = some text ↔ entry = .title lang key text := by
  cases entry with
  | title l k other =>
      rw [titleAt?, Option.ite_none_right_eq_some, title.injEq, Option.some.injEq, and_assoc,
        eq_comm (a := lang), eq_comm (a := key)]
  | attributeTexts | bundleTexts | identifier | notice => simp [titleAt?]

/-- One line changes the title that it puts a text under, and no other. -/
theorem JournalEntry.find?_pages_enterIn (entry : JournalEntry) (lang key : String)
    (locale : Locale) :
    (entry.enterIn lang locale).pages.find? key =
      (entry.titleAt? lang key).or (locale.pages.find? key) := by
  cases entry with
  | title l k text =>
      simp only [enterIn, titleAt?]
      split
      · next hlang =>
          rw [Locale.recordTitle, Dictionary.find?_insert]
          by_cases hkey : key = k <;> simp [hlang, hkey]
      · next hlang => simp [hlang]
  | attributeTexts | bundleTexts | identifier | notice => exact Option.none_or.symm

namespace CompileRequest

variable {request : CompileRequest} {options : CompileOptions} {compiled : CompiledForm}
  {lang key text : String}

/-- A page of a compilation has a text for the title under a key: a
top-level page of this name, or a section whose key it is. -/
def Titles (request : CompileRequest) (options : CompileOptions) (lang key text : String) : Prop :=
  (key ∈ request.presentation.pageOrder ∧ (request.presentation.findPage? key).isSome ∧
      request.presentation.pageLabel? lang key = some text) ∨
    ∃ entry owner place, request.Meets options entry owner place ∧
      (request.resolvedWalker options).TitlesEntry lang key text entry owner place

/-- The titles of the pages are written down in the requested languages, and
no others. -/
theorem mem_journal_title_iff (h : request.compile options = .ok compiled) :
    .title lang key text ∈ (request.walk options).journal ↔
      lang ∈ request.presentation.languages ∧ request.Titles options lang key text := by
  obtain ⟨-, journal, hfills, ⟨before, after, hjournal⟩, -⟩ := compile_eq_ok h
  rw [hjournal]
  simp only [List.mem_cons, List.mem_append, List.mem_map, reduceCtorEq, and_false, exists_false,
    or_false, false_or]
  rw [hfills.mem_title_iff]
  refine and_congr_right fun _ => ?_
  simp only [Titles, exists_meets_iff, and_or_left, exists_or]
  refine or_congr_left ⟨?_, ?_⟩
  · rintro ⟨name, hname, spec, found, rfl, htext⟩
    exact ⟨hname, Option.isSome_of_eq_some found, htext⟩
  · rintro ⟨hname, hfound, htext⟩
    obtain ⟨spec, found⟩ := Option.isSome_iff_exists.mp hfound
    exact ⟨key, hname, spec, found, rfl, htext⟩

/-- The text of the title that is written down last under a key. -/
def lastTitle? (request : CompileRequest) (options : CompileOptions) (lang key : String) :
    Option String :=
  (request.walk options).journal.reverse.findSome? (·.titleAt? lang key)

/-- The title that was recorded last is given by a page or a section. -/
theorem titles_of_lastTitle? (h : request.compile options = .ok compiled)
    (htext : request.lastTitle? options lang key = some text) :
    request.Titles options lang key text := by
  obtain ⟨entry, hentry, htitle⟩ := List.exists_of_findSome?_eq_some htext
  rw [List.mem_reverse, JournalEntry.titleAt?_eq_some.mp htitle] at hentry
  exact ((mem_journal_title_iff h).mp hentry).2

/-- Where a title is given in a requested language, one was recorded last. -/
theorem exists_lastTitle? (h : request.compile options = .ok compiled)
    (hlang : lang ∈ request.presentation.languages)
    (htitles : request.Titles options lang key text) :
    ∃ last, request.lastTitle? options lang key = some last := by
  rw [← Option.isSome_iff_exists, lastTitle?, List.findSome?_isSome_iff]
  refine ⟨_, List.mem_reverse.mpr ((mem_journal_title_iff h).mpr ⟨hlang, htitles⟩), ?_⟩
  rw [JournalEntry.titleAt?_eq_some.mpr rfl]
  rfl

/-- Under each key of titles stands what was written down last. -/
theorem find?_title (h : request.compile options = .ok compiled)
    (hlang : lang ∈ request.presentation.languages) :
    ∃ locale, compiled.locales.find? lang = some locale ∧
      ∀ key, locale.pages.find? key = request.lastTitle? options lang key := by
  have hreplay := SideTables.find?_locales_replay
    (SideTables.forLanguages request.presentation.languages) lang (request.walk options).journal
  rw [replay_journal h, SideTables.find?_locales_forLanguages, if_pos hlang, Option.map_some]
    at hreplay
  refine ⟨_, hreplay, fun key => ?_⟩
  rw [Journal.read_foldl_enterIn (·.pages.find? key) (·.titleAt? lang key)
    fun entry locale => entry.find?_pages_enterIn lang key locale]
  exact Option.or_none

/-- Every section of a form is made of a page that the compilation meets. -/
theorem meets_of_mem_sections (h : request.compile options = .ok compiled) {path : Path}
    {page : PageNode} (hpage : (path, page) ∈ compiled.form.sections) :
    ∃ spec owner place, request.Meets options (.page spec) owner place ∧
      (request.resolvedWalker options).Makes spec owner place path page := by
  obtain ⟨-, journal, hfills, -, -⟩ := compile_eq_ok h
  obtain ⟨outer, houter, hmem⟩ := List.mem_flatMap.mp hpage
  obtain ⟨hname, -, spec, first, found, hinside⟩ := hfills.of_mem houter
  obtain ⟨entry, owner, place, hmeets, hmakes⟩ := hinside.meetsSome_of_mem_sections hmem
  cases entry with
  | field => exact hmakes.elim
  | page made => exact ⟨made, owner, place, ⟨outer.name, hname, spec, found, hmeets⟩, hmakes⟩

/-- Every page that a compilation meets is made into a section of the form. -/
theorem Meets.exists_section (h : request.compile options = .ok compiled) {spec : PageSpec}
    {owner : Bundle} {place : Path} (hmeets : request.Meets options (.page spec) owner place) :
    ∃ path page, (path, page) ∈ compiled.form.sections ∧
      (request.resolvedWalker options).Makes spec owner place path page := by
  obtain ⟨-, journal, hfills, -, -⟩ := compile_eq_ok h
  obtain ⟨name, hname, outer, found, hmeets⟩ := hmeets
  obtain ⟨top, htop, first, hinside⟩ := hfills.exists_page hname found
  obtain ⟨path, page, hmakes, hmem⟩ := hmeets.exists_makes rfl hinside
  exact ⟨path, page, List.mem_flatMap.mpr ⟨top, htop, hmem⟩, hmakes⟩

/-- The sections of a form are those made of the pages that the compilation
meets.  If a section has a text in a requested language, the label of its
attribute or of its page, then under the key of its title stands what was
written down last for the key.  This is the text of the section itself,
unless a page with the same key has another one and that one stands there. -/
theorem section_titles_recorded (h : request.compile options = .ok compiled)
    (hlang : lang ∈ request.presentation.languages) :
    ∃ locale, compiled.locales.find? lang = some locale ∧
      (∀ path page, (path, page) ∈ compiled.form.sections → ∃ spec owner place,
        request.Meets options (.page spec) owner place ∧
        (request.resolvedWalker options).Makes spec owner place path page) ∧
      ∀ spec owner place, request.Meets options (.page spec) owner place →
        (∃ path page, (path, page) ∈ compiled.form.sections ∧
          (request.resolvedWalker options).Makes spec owner place path page) ∧
        ∀ path page, (request.resolvedWalker options).Makes spec owner place path page →
          ∀ text, (request.resolvedWalker options).sectionText? spec owner lang = some text →
            ∃ recorded, locale.pages.find? page.title = some recorded ∧
              request.lastTitle? options lang page.title = some recorded ∧
              (recorded = text ∨
                recorded ≠ text ∧ request.Titles options lang page.title recorded) := by
  obtain ⟨locale, hlocale, hkeys⟩ := find?_title h hlang
  refine ⟨locale, hlocale, fun path page => meets_of_mem_sections h,
    fun spec owner place hmeets => ⟨hmeets.exists_section h, fun path page hmakes text htext => ?_⟩⟩
  obtain ⟨address, addressed, htitle⟩ := hmakes.title_eq
  obtain ⟨recorded, hlast⟩ := exists_lastTitle? h hlang
    (.inr ⟨.page spec, owner, place, hmeets, address, addressed, htitle, htext⟩)
  refine ⟨recorded, by rw [hkeys, hlast], hlast, ?_⟩
  by_cases hsame : recorded = text
  · exact .inl hsame
  · exact .inr ⟨hsame, titles_of_lastTitle? h hlast⟩

/-- A form with one section, whose title is the label of its attribute. -/
theorem section_titles_recorded_of_reference :
    let address : Attribute :=
      { Attribute.bare "address" (.scalar (.reference "Eaddress")) with
        labels := .ofList [("eng", "Address")] }
    let spec : PageSpec := ⟨none, some "address", none, []⟩
    let request : CompileRequest :=
      { bundle := ⟨"Eperson", [address], .empty⟩
        dependencies := [⟨"Eaddress", [], .empty⟩]
        presentation :=
          { bundleDigest := "Eperson", digest := none, languages := ["eng"]
            pages := [⟨none, none, some "main", [.page spec]⟩]
            pageOrder := ["main"], pageLabels := .empty, interactions := [] }
        conditionals := .empty
        readonly := [] }
    ∃ compiled locale path page, request.compile default = .ok compiled ∧
      compiled.locales.find? "eng" = some locale ∧ (path, page) ∈ compiled.form.sections ∧
      page.title = "page.address.title" ∧
      locale.pages.find? page.title = some "Address" := by
  intro address spec request
  have hok : (request.compile default).isOk = true := by decide +kernel
  obtain ⟨compiled, hcompile⟩ := exists_compile_eq_ok hok
  obtain ⟨locale, hlocale, -, htitles⟩ :=
    section_titles_recorded hcompile (List.mem_singleton_self "eng")
  have hmeets : request.Meets default (.page spec) request.bundle .root :=
    ⟨"main", List.mem_singleton_self _, _, rfl, .here⟩
  obtain ⟨⟨path, page, hpage, hmakes⟩, hrecorded⟩ := htitles spec request.bundle .root hmeets
  obtain ⟨address', addressed, htitle⟩ := hmakes.title_eq
  cases addressed
  obtain ⟨recorded, hfind, hlast, -⟩ := hrecorded path page hmakes "Address" rfl
  have htext : request.lastTitle? default "eng" "page.address.title" = some "Address" := by
    decide +kernel
  have hkey : page.title = "page.address.title" := htitle.trans (by decide)
  rw [hkey, htext] at hlast
  obtain rfl := Option.some.inj hlast
  exact ⟨compiled, locale, path, page, hcompile, hlocale, hpage, hkey, hfind⟩

/-- An address, and an address within the section of an employer: both
sections are named `address`, and the title of the one that comes first is
lost. -/
theorem title_lost_to_namesake :
    let home : Attribute :=
      { Attribute.bare "address" (.scalar (.reference "Eaddress")) with
        labels := .ofList [("eng", "Home address")] }
    let office : Attribute :=
      { Attribute.bare "address" (.scalar (.reference "Eaddress")) with
        labels := .ofList [("eng", "Office address")] }
    let employer : Attribute := Attribute.bare "employer" (.scalar (.reference "Eemployer"))
    let spec : PageSpec := ⟨none, some "address", none, [.field "city"]⟩
    let request : CompileRequest :=
      { bundle := ⟨"Eperson", [home, employer], .empty⟩
        dependencies := [⟨"Eemployer", [office], .empty⟩,
          ⟨"Eaddress", [.bare "city" (.scalar (.primitive .text))], .empty⟩]
        presentation :=
          { bundleDigest := "Eperson", digest := none, languages := ["eng"]
            pages := [⟨none, none, some "main",
              [.page spec, .page ⟨none, some "employer", none, [.page spec]⟩]⟩]
            pageOrder := ["main"], pageLabels := .empty, interactions := [] }
        conditionals := .empty
        readonly := [] }
    ∃ compiled locale path page, request.compile default = .ok compiled ∧
      "eng" ∈ request.presentation.languages ∧ compiled.locales.find? "eng" = some locale ∧
      (path, page) ∈ compiled.form.sections ∧
      (request.resolvedWalker default).Makes spec request.bundle .root path page ∧
      (request.resolvedWalker default).sectionText? spec request.bundle "eng" =
        some "Home address" ∧
      locale.pages.find? page.title = some "Office address" := by
  intro home office employer spec request
  have hlost : ((request.compile default).toOption.bind fun compiled =>
      (compiled.locales.find? "eng").bind (·.pages.find? "page.address.title")) =
        some "Office address" := by decide +kernel
  obtain ⟨compiled, hcompiled, hlocale⟩ := Option.bind_eq_some_iff.mp hlost
  obtain ⟨locale, hlocale, hfind⟩ := Option.bind_eq_some_iff.mp hlocale
  have hcompile := ok_of_toOption hcompiled
  have hmeets : request.Meets default (.page spec) request.bundle .root :=
    ⟨"main", List.mem_singleton_self _, _, rfl, .here⟩
  obtain ⟨path, page, hpage, hmakes⟩ := hmeets.exists_section hcompile
  obtain ⟨address, addressed, htitle⟩ := hmakes.title_eq
  cases addressed
  have hkey : page.title = "page.address.title" := htitle.trans (by decide)
  exact ⟨compiled, locale, path, page, hcompile, List.mem_singleton_self _, hlocale, hpage, hmakes,
    rfl, hkey ▸ hfind⟩

end CompileRequest

end FormCompiler

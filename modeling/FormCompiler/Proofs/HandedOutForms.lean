import FormCompiler.CommandLine.Run
import FormCompiler.Proofs.StoredFiles
import FormCompiler.Proofs.WritableForms

/-!
# FormCompiler.Proofs.HandedOutForms

What a run of `compile` leaves behind that ends with code 0.  It has compiled
a form and handed out its text, on the output or in the file that the
arguments name; a form that cannot be written is handed out as the wording
of that error, which is no JSON
(`CommandLine.compiled_form_handed_out`).

Files are read through any function, and writing one may end in any way:
`Outcome.told` is the report of a run whose file was written, or was not, and
`Outcome.file?` the file itself.  A directory is one such surrounding
(`Outcome.exists_told`).
-/

namespace FormCompiler.CommandLine

open Written (IsWritten)

variable {tree : FileTree} {arguments : List String} {now : Timestamp} {manner : Manner}
  {a : CompileArguments} {read : ReadFile} {written : Except FileFault Unit}

/-! ## reports and files -/

namespace Outcome

/-- The report of a run, where writing its file ends as `written`. -/
def told (outcome : Outcome) (written : Except FileFault Unit) : Report :=
  match outcome with
  | .finish report => report
  | .write _ _ report => report written

/-- The file that a run writes: its path and its text. -/
def file? : Outcome → Option (String × String)
  | .finish _ => none
  | .write path text _ => some (path, text)

/-- A directory lets the file be written, or has a fault of its own. -/
theorem exists_told (outcome : Outcome) (tree : FileTree) :
    ∃ written, (outcome.conclude tree).1 = outcome.told written := by
  cases outcome with
  | finish report => exact ⟨.ok (), rfl⟩
  | write path text report =>
      rw [conclude]
      cases tree.write path text.toUTF8 with
      | ok _ => exact ⟨.ok (), rfl⟩
      | error fault => exact ⟨.error fault, rfl⟩

end Outcome

/-! ## runs that end well -/

namespace CompileArguments

/-- Did a run hand out the text, on the output or in the file that the
arguments name? -/
def HandsOut (a : CompileArguments) (ending : Report × FileTree) (text : String) : Prop :=
  match a.out with
  | none => ending.1.stdout = text
  | some path => ending.2.read path = .ok text.toUTF8

/-- Is the text handed out, printed or put whole into the file that the
arguments name? -/
def Delivers (a : CompileArguments) (outcome : Outcome) (written : Except FileFault Unit)
    (text : String) : Prop :=
  match a.out with
  | none => outcome = .finish (.success text)
  | some path => outcome.file? = some (path, text) ∧ written = .ok ()

/-- A text is delivered if the report tells of a success. -/
theorem delivers_of_code {text : String} (h : ((a.handOut manner text).told written).code = 0) :
    a.Delivers (a.handOut manner text) written (line text) := by
  unfold handOut at h ⊢
  unfold Delivers
  cases hout : a.out with
  | none => rfl
  | some path =>
      refine ⟨rfl, ?_⟩
      cases hwritten : written with
      | ok _ => rfl
      | error fault =>
          rw [hout, hwritten] at h
          exact absurd h Nat.one_ne_zero

/-- In a directory, a text that was put into a file stands there. -/
theorem handsOut_of_code {text : String}
    (h : ((a.handOut manner text).conclude tree).1.code = 0) :
    a.HandsOut ((a.handOut manner text).conclude tree) (line text) := by
  unfold handOut at h ⊢
  unfold HandsOut
  cases hout : a.out with
  | none => rfl
  | some path =>
      simp only [hout, Outcome.conclude] at h ⊢
      cases hwrite : tree.write path (line text).toUTF8 with
      | ok written => exact FileTree.read_of_write hwrite
      | error fault =>
          rw [hwrite] at h
          simp [Manner.failure, Report.failure] at h

/-- A run of `compile` has a form to hand out, or it fails.  Neither the manner
nor the file for the form has a part in which. -/
theorem run_cases (a : CompileArguments) (read : ReadFile) (now : Timestamp) :
    (∃ documents options compiled, a.load read now = .ok (documents, options) ∧
      documents.compile options = .ok compiled ∧
      ∀ out manner, { a with out := out }.run manner read now =
        { a with out := out }.handOut manner (formText compiled)) ∨
    ∀ out manner, ∃ stderr,
      { a with out := out }.run manner read now = .finish (.failure stderr) := by
  have hload : ∀ out, { a with out := out }.load read now = a.load read now := fun _ => rfl
  cases hdocuments : a.load read now with
  | error message => exact .inr fun out manner => ⟨_, by rw [run, hload, hdocuments]; rfl⟩
  | ok loaded =>
      obtain ⟨documents, options⟩ := loaded
      cases hcompile : documents.compile options with
      | error error =>
          exact .inr fun out manner => ⟨_, by simp only [run, hload, hdocuments, hcompile]; rfl⟩
      | ok compiled =>
          exact .inl ⟨documents, options, compiled, rfl, hcompile, fun out manner => by
            simp only [run, hload, hdocuments, hcompile]⟩

/-- A run that ends well has compiled a form. -/
theorem exists_compiled_of_code (h : ((a.run manner read now).told written).code = 0) :
    ∃ documents options compiled, a.load read now = .ok (documents, options) ∧
      documents.compile options = .ok compiled ∧
      a.run manner read now = a.handOut manner (formText compiled) := by
  rcases a.run_cases read now with ⟨documents, options, compiled, hload, hcompile, hrun⟩ |
    hfailure
  · exact ⟨documents, options, compiled, hload, hcompile, hrun a.out manner⟩
  · obtain ⟨stderr, hrun⟩ := hfailure a.out manner
    rw [hrun] at h
    exact absurd h Nat.one_ne_zero

end CompileArguments

/-! ## the text of a form -/

/-- A form that can be written is handed out as its JSON text. -/
theorem formText_of_isWritten {compiled : CompiledForm} (h : IsWritten compiled.toJson) :
    ∃ json, compiled.toJson = .ok json ∧ CompileArguments.formText compiled = json.pretty := by
  obtain ⟨json, hjson⟩ := h
  exact ⟨json, hjson, by rw [CompileArguments.formText, hjson]⟩

/-- A form that cannot be written is handed out as the wording of the error. -/
theorem formText_of_not_isWritten {compiled : CompiledForm} (h : ¬ IsWritten compiled.toJson) :
    CompileArguments.formText compiled =
      "serialization error: " ++ WriteError.yearBeforeZero.message := by
  unfold CompileArguments.formText
  split
  · next json hjson => exact absurd ⟨json, hjson⟩ h
  · next error _ => cases error; rfl

theorem run_compile (h : Invocation.ofArguments arguments = .ok ⟨manner, .compile a⟩) :
    run arguments read now = a.run manner read now := by
  rw [run, h]
  rfl

theorem runIn_compile (h : Invocation.ofArguments arguments = .ok ⟨manner, .compile a⟩) :
    runIn tree arguments now = (a.run manner tree.read now).conclude tree := by
  rw [runIn, run_compile h]

/-- From what the arguments name a form is compiled, and this text tells it:
the JSON text of the form exactly if no date bound in the form lies before
the year zero, and no JSON at all otherwise. -/
def CompileArguments.Tells (a : CompileArguments) (read : ReadFile) (now : Timestamp)
    (text : String) : Prop :=
  ∃ documents options compiled,
    a.load read now = .ok (documents, options) ∧
    documents.compile options = .ok compiled ∧
    ((∃ json, compiled.toJson = .ok json ∧ text = line json.pretty) ↔
      ∀ located ∈ compiled.form.located, located.2.HasWritableRange) ∧
    ((¬ ∀ located ∈ compiled.form.located, located.2.HasWritableRange) →
      (Json.read text).isOk = false)

/-- The text of a compiled form tells it. -/
theorem CompileArguments.tells_formText {documents : CompileDocuments} {options : CompileOptions}
    {compiled : CompiledForm} (hload : a.load read now = .ok (documents, options))
    (hcompile : documents.compile options = .ok compiled) :
    a.Tells read now (line (formText compiled)) := by
  refine ⟨documents, options, compiled, hload, hcompile, ?_, ?_⟩
  · rw [← CompiledForm.isWritten_toJson]
    constructor
    · rintro ⟨json, hjson, -⟩
      exact ⟨json, hjson⟩
    · intro hwritten
      obtain ⟨json, hjson, htext⟩ := formText_of_isWritten hwritten
      exact ⟨json, hjson, by rw [htext]⟩
  · rw [← CompiledForm.isWritten_toJson]
    intro hwritten
    rw [formText_of_not_isWritten hwritten]
    decide +kernel

/-- A run of `compile` that ends with code 0, whatever files it read and
however writing a file ended, has compiled a form and handed out a text that
tells it.  So has a run in a directory, where the text then stands. -/
theorem compiled_form_handed_out
    (harguments : Invocation.ofArguments arguments = .ok ⟨manner, .compile a⟩) :
    (∀ read written, ((run arguments read now).told written).code = 0 →
      ∃ text, a.Tells read now text ∧ a.Delivers (run arguments read now) written text) ∧
    ∀ tree, (runIn tree arguments now).1.code = 0 →
      ∃ text, a.Tells tree.read now text ∧ a.HandsOut (runIn tree arguments now) text := by
  constructor
  · intro read written hcode
    rw [run_compile harguments] at hcode ⊢
    obtain ⟨documents, options, compiled, hload, hcompile, hrun⟩ :=
      CompileArguments.exists_compiled_of_code hcode
    rw [hrun] at hcode ⊢
    exact ⟨_, CompileArguments.tells_formText hload hcompile,
      CompileArguments.delivers_of_code hcode⟩
  · intro tree hcode
    rw [runIn_compile harguments] at hcode ⊢
    obtain ⟨written, htold⟩ := (a.run manner tree.read now).exists_told tree
    obtain ⟨documents, options, compiled, hload, hcompile, hrun⟩ :=
      CompileArguments.exists_compiled_of_code (htold ▸ hcode)
    rw [hrun] at hcode ⊢
    exact ⟨_, CompileArguments.tells_formText hload hcompile,
      CompileArguments.handsOut_of_code hcode⟩

/-! ## dated forms -/

/-- The documents of a form with one date field, which takes dates from
`first` on. -/
def datedDocuments (first : String) : List (String × ByteArray) :=
  let born := Json.object [("name", .string "born"), ("type", .string "DateTime")]
  let bundle := Json.object [("digest", .string "Eperson"), ("attributes", .array [born])]
  let page := Json.object [("ns", .string "main"), ("ao", .array [.string "born"])]
  let hints := Json.object
    [("t", .string "date"), ("r", .array [.string first, .string "now"])]
  let interaction := Json.object
    [("m", .string "web"), ("c", .string "capture"), ("a", .object [("born", hints)])]
  let presentation := Json.object
    [("bd", .string "Eperson"), ("p", .array [page]), ("po", .array [.string "main"]),
      ("i", .array [interaction])]
  [("b.json", bundle.compact.toUTF8), ("p.json", presentation.compact.toUTF8)]

def datedFiles (first : String) : FileTree := .ofList (datedDocuments first)

/-- A form that is compiled from files anywhere and written anywhere, and one
that is written into a file of the directory. -/
theorem compiled_form_handed_out_of_date :
    let read : ReadFile := fun path =>
      (((datedDocuments "1900-01-01").map fun file => ("/forms/" ++ file.1, file.2)).lookup
        path).elim (.error .notFound) .ok
    let tree := datedFiles "1900-01-01"
    let arguments := fun directory : String => ["compile", directory ++ "b.json", "--presentation",
      directory ++ "p.json", "--reference-time", "2024-01-01T00:00:00Z", "--out",
      directory ++ "form.json"]
    let a := fun directory : String => (⟨directory ++ "b.json", [], directory ++ "p.json", none, [],
      some "2024-01-01T00:00:00Z", some (directory ++ "form.json")⟩ : CompileArguments)
    Invocation.ofArguments (arguments "/forms/") =
      .ok ⟨⟨.text, false⟩, .compile (a "/forms/")⟩ ∧
    ((run (arguments "/forms/") read .unixEpoch).told (.ok ())).code = 0 ∧
    (∃ text, (a "/forms/").Tells read .unixEpoch text ∧
      (run (arguments "/forms/") read .unixEpoch).file? = some ("/forms/form.json", text)) ∧
    Invocation.ofArguments (arguments "") = .ok ⟨⟨.text, false⟩, .compile (a "")⟩ ∧
    (runIn tree (arguments "") .unixEpoch).1.code = 0 ∧
    ∃ text, (a "").Tells tree.read .unixEpoch text ∧
      (runIn tree (arguments "") .unixEpoch).2.read "form.json" = .ok text.toUTF8 := by
  intro read tree arguments a
  have hanywhere : Invocation.ofArguments (arguments "/forms/") =
      .ok ⟨⟨.text, false⟩, .compile (a "/forms/")⟩ := by rfl
  have hinside : Invocation.ofArguments (arguments "") =
      .ok ⟨⟨.text, false⟩, .compile (a "")⟩ := by rfl
  have hcode : ((run (arguments "/forms/") read .unixEpoch).told (.ok ())).code = 0 := by
    decide +kernel
  have hcodeInside : (runIn tree (arguments "") .unixEpoch).1.code = 0 := by decide +kernel
  obtain ⟨text, htold, hfile, -⟩ := (compiled_form_handed_out hanywhere).1 read (.ok ()) hcode
  have hstands := (compiled_form_handed_out hinside).2 tree hcodeInside
  exact ⟨hanywhere, hcode, ⟨text, htold, hfile⟩, hinside, hcodeInside, hstands⟩

/-- A date before the year zero: the run ends with code 0 and prints the
error, which is no JSON. -/
theorem early_date_printed :
    let report := (runIn (datedFiles "-0001-01-01") ["compile", "b.json", "--presentation",
      "p.json", "--reference-time", "2024-01-01T00:00:00Z"] .unixEpoch).1
    report = ⟨0, line ("serialization error: " ++ WriteError.yearBeforeZero.message), ""⟩ ∧
      (Json.read report.stdout).isOk = false := by
  intro report
  have hreport : report =
      ⟨0, line ("serialization error: " ++ WriteError.yearBeforeZero.message), ""⟩ := by
    decide +kernel
  refine ⟨hreport, ?_⟩
  rw [hreport]
  decide +kernel

end FormCompiler.CommandLine

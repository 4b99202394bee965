import FormCompiler.Proofs.HandedOutForms

/-!
# FormCompiler.Proofs.OutputManner

The manner of a run, which is what `--quiet` and `--output` ask for, decides
how the results are told and nothing else.

* A run fails in every manner or in none (`CompileArguments.run_cases`,
  `runValidate_cases`).
* `Outcome.SameEffect` compares two ends of a run: the same file with the same
  text, if any, and the same exit code.
* `manner_keeps_outcome`: runs of one command that differ in their manner end
  with the same code and leave the same files, and a form is printed in the same
  bytes, which are those that `--out` puts into a file.  That holds whatever
  files are read and however writing one ends, and so in any directory.
-/

namespace FormCompiler.CommandLine

variable {arguments arguments' : List String} {manner manner' : Manner} {command : Command}
  {read : ReadFile} {now : Timestamp} {tree : FileTree} {written : Except FileFault Unit}

/-! ## how runs end -/

/-- Either the presentation is valid, or the run fails. -/
theorem runValidate_cases (path : String) (read : ReadFile) :
    (∀ manner, ∃ stdout, runValidate path manner read = .success stdout) ∨
    ∀ manner, ∃ stderr, runValidate path manner read = .failure stderr := by
  cases hvalue : readJson read path with
  | error message => exact .inr fun manner => ⟨_, by rw [runValidate, hvalue]; rfl⟩
  | ok value =>
      cases hviolations : presentationSchema.violations value with
      | nil => exact .inl fun manner => ⟨_, by simp only [runValidate, hvalue, hviolations]; rfl⟩
      | cons violation others =>
          exact .inr fun manner => ⟨_, by simp only [runValidate, hvalue, hviolations]; rfl⟩

/-! ## effects -/

namespace Outcome

/-- The same file is written with the same text, if any, and the exit code is
the same. -/
inductive SameEffect : Outcome → Outcome → Prop
  | finish {report report' : Report} (h : report'.code = report.code) :
    SameEffect (.finish report) (.finish report')
  | write {path text : String} {report report' : Except FileFault Unit → Report}
    (h : ∀ written, (report' written).code = (report written).code) :
    SameEffect (.write path text report) (.write path text report')

/-- In a directory, the same effect leads to the same code and the same files.
-/
theorem SameEffect.conclude {outcome outcome' : Outcome} (h : SameEffect outcome outcome')
    (tree : FileTree) :
    (outcome'.conclude tree).1.code = (outcome.conclude tree).1.code ∧
      (outcome'.conclude tree).2 = (outcome.conclude tree).2 := by
  cases h with
  | finish h => exact ⟨h, rfl⟩
  | @write path text report report' h =>
      cases hwrite : tree.write path text.toUTF8 with
      | ok written =>
          simp only [Outcome.conclude, hwrite]
          exact ⟨h (.ok ()), trivial⟩
      | error fault =>
          simp only [Outcome.conclude, hwrite]
          exact ⟨h (.error fault), trivial⟩

end Outcome

open Outcome (SameEffect)

/-- The manner decides how a text is announced, and not where it goes. -/
theorem CompileArguments.handOut_sameEffect (a : CompileArguments) (text : String) :
    SameEffect (a.handOut manner text) (a.handOut manner' text) := by
  unfold handOut
  cases a.out with
  | none => exact .finish rfl
  | some path =>
      refine .write fun written => ?_
      cases written with
      | ok _ => rfl
      | error _ => rfl

/-- The manner has no part in what a compilation leaves behind. -/
theorem CompileArguments.run_sameEffect (a : CompileArguments) :
    SameEffect (a.run manner read now) (a.run manner' read now) := by
  rcases a.run_cases read now with ⟨_, _, compiled, -, -, hform⟩ | hfailure
  · rw [hform a.out manner, hform a.out manner']
    exact a.handOut_sameEffect (formText compiled)
  · obtain ⟨stderr, hrun⟩ := hfailure a.out manner
    obtain ⟨stderr', hrun'⟩ := hfailure a.out manner'
    rw [hrun, hrun']
    exact .finish rfl

/-- The manner has no part in whether a document is valid. -/
theorem runValidate_code (path : String) :
    (runValidate path manner' read).code = (runValidate path manner read).code := by
  rcases runValidate_cases path read with hvalid | hfailure
  · obtain ⟨stdout, hrun⟩ := hvalid manner
    obtain ⟨stdout', hrun'⟩ := hvalid manner'
    rw [hrun, hrun']
    rfl
  · obtain ⟨stderr, hrun⟩ := hfailure manner
    obtain ⟨stderr', hrun'⟩ := hfailure manner'
    rw [hrun, hrun']
    rfl

/-- The manner has no effect, whatever the files hold. -/
theorem Command.run_sameEffect (command : Command) :
    SameEffect (Invocation.run ⟨manner, command⟩ read now)
      (Invocation.run ⟨manner', command⟩ read now) := by
  cases command with
  | compile a => exact a.run_sameEffect
  | validate path => exact .finish (runValidate_code path)

/-! ## forms -/

namespace CompileArguments

variable {a : CompileArguments} {path text : String}

/-- Without a file for it, a text is printed, and there is nothing to tell of a
file. -/
theorem handOut_of_none (h : a.out = none) (manner : Manner) (text : String) :
    a.handOut manner text = .finish (.success (line text)) := by
  rw [handOut]
  simp only [h]

/-- A run without a file for the form prints the same in every manner. -/
theorem told_stdout_run (h : a.out = none) (written : Except FileFault Unit) :
    ((a.run manner' read now).told written).stdout =
      ((a.run manner read now).told written).stdout := by
  rcases a.run_cases read now with ⟨_, _, compiled, -, -, hform⟩ | hfailure
  · rw [hform a.out manner, hform a.out manner', handOut_of_none h, handOut_of_none h]
  · obtain ⟨stderr, hrun⟩ := hfailure a.out manner
    obtain ⟨stderr', hrun'⟩ := hfailure a.out manner'
    rw [hrun, hrun']
    rfl

/-- One form is compiled for the two runs; `out` decides only where it goes. -/
theorem file?_run_iff (h : a.out = none) :
    ({ a with out := some path }.run manner' read now).file? = some (path, text) ↔
      a.run manner read now = .finish (.success text) := by
  rcases a.run_cases read now with ⟨_, _, compiled, -, -, hform⟩ | hfailure
  · have hprinted : a.run manner read now =
        .finish (.success (line (formText compiled))) := by
      rw [hform a.out manner, handOut_of_none h]
    have hfile : ({ a with out := some path }.run manner' read now).file? =
        some (path, line (formText compiled)) := by
      rw [hform (some path) manner']
      rfl
    rw [hprinted, hfile]
    constructor
    · intro heq
      rw [(Prod.mk.inj (Option.some.inj heq)).2]
    · intro heq
      have htext : line (formText compiled) = text :=
        congrArg Report.stdout (Outcome.finish.inj heq)
      rw [htext]
  · obtain ⟨stderr, hrun⟩ := hfailure a.out manner
    obtain ⟨stderr', hrun'⟩ := hfailure (some path) manner'
    have hfailed : Report.failure stderr ≠ .success text := fun heq =>
      Nat.one_ne_zero (congrArg Report.code heq)
    rw [hrun, hrun']
    constructor
    · intro heq
      contradiction
    · intro heq
      exact absurd (Outcome.finish.inj heq) hfailed

/-- A run with a file for the form succeeds if it writes that file and the
writing ends well. -/
theorem exists_file?_of_code
    (hcode : (({ a with out := some path }.run manner read now).told written).code = 0) :
    written = .ok () ∧
      ∃ text, ({ a with out := some path }.run manner read now).file? = some (path, text) := by
  obtain ⟨_, _, compiled, -, -, hrun⟩ := exists_compiled_of_code hcode
  rw [hrun] at hcode ⊢
  obtain ⟨hfile, hwritten⟩ := delivers_of_code hcode
  exact ⟨hwritten, _, hfile⟩

end CompileArguments

/-! ## forms in a directory -/

namespace CompileArguments

variable {a : CompileArguments}

/-- Without a file for the form, nothing is written to one. -/
theorem exists_run_eq_finish (h : a.out = none) (manner : Manner) (read : ReadFile)
    (now : Timestamp) : ∃ report, a.run manner read now = .finish report := by
  rcases a.run_cases read now with ⟨_, _, compiled, -, -, hform⟩ | hfailure
  · exact ⟨.success (line (formText compiled)), by rw [hform a.out manner, handOut_of_none h]⟩
  · obtain ⟨stderr, hrun⟩ := hfailure a.out manner
    exact ⟨_, hrun⟩

/-- A run in a directory that writes no file prints what it prints anywhere. -/
theorem stdout_run (h : a.out = none) :
    ((a.run manner' read now).conclude tree).1.stdout =
      ((a.run manner read now).conclude tree).1.stdout := by
  have htold : ((a.run manner' read now).told (.ok ())).stdout =
      ((a.run manner read now).told (.ok ())).stdout := told_stdout_run h (.ok ())
  obtain ⟨report, hrun⟩ := exists_run_eq_finish h manner read now
  obtain ⟨report', hrun'⟩ := exists_run_eq_finish h manner' read now
  rw [hrun, hrun'] at htold ⊢
  exact htold

/-- What a run puts into the file is what it prints without one. -/
theorem stdout_of_written {path : String} (h : a.out = none)
    (hcode : (({ a with out := some path }.run manner' tree.read now).conclude tree).1.code = 0) :
    ((a.run manner tree.read now).conclude tree).1.code = 0 ∧
      (({ a with out := some path }.run manner' tree.read now).conclude tree).2.read path =
        .ok ((a.run manner tree.read now).conclude tree).1.stdout.toUTF8 := by
  obtain ⟨written, htold⟩ :=
    Outcome.exists_told ({ a with out := some path }.run manner' tree.read now) tree
  obtain ⟨_, _, compiled, -, -, hrun⟩ := exists_compiled_of_code (htold ▸ hcode)
  have hfile : ({ a with out := some path }.run manner' tree.read now).file? =
      some (path, line (formText compiled)) := by
    rw [hrun]
    rfl
  rw [(file?_run_iff h).mp hfile]
  rw [hrun] at hcode ⊢
  exact ⟨rfl, handsOut_of_code hcode⟩

end CompileArguments

/-! ## two runs of one command -/

/-- Arguments that name a command run it in their manner. -/
theorem run_eq (h : Invocation.ofArguments arguments = .ok ⟨manner, command⟩) :
    run arguments read now = Invocation.run ⟨manner, command⟩ read now := by
  rw [run, h]

/-- Two runs of one command that differ in their manner have the same effect,
whatever files they read and however writing one ends.  Without `--out` they
print the same, and what they print with success is what a run with `--out`
writes, which succeeds only if it writes and the writing ends well.  So in a
directory they end with the same exit code and leave the same files, and the
form that is printed is what a run with `--out` puts into the file. -/
theorem manner_keeps_outcome
    (h : Invocation.ofArguments arguments = .ok ⟨manner, command⟩)
    (h' : Invocation.ofArguments arguments' = .ok ⟨manner', command⟩) :
    (∀ read, SameEffect (run arguments read now) (run arguments' read now)) ∧
      (∀ read a, command = .compile a → a.out = none →
        (∀ written, ((run arguments' read now).told written).stdout =
          ((run arguments read now).told written).stdout) ∧
        ∀ path writing manner'',
          Invocation.ofArguments writing = .ok ⟨manner'', .compile { a with out := some path }⟩ →
          (∀ text, (run writing read now).file? = some (path, text) ↔
            run arguments read now = .finish (.success text)) ∧
          ∀ written, ((run writing read now).told written).code = 0 →
            written = .ok () ∧ ∃ text, (run writing read now).file? = some (path, text)) ∧
      ∀ tree, (runIn tree arguments' now).1.code = (runIn tree arguments now).1.code ∧
        (runIn tree arguments' now).2 = (runIn tree arguments now).2 ∧
        ∀ a, command = .compile a → a.out = none →
          (runIn tree arguments' now).1.stdout = (runIn tree arguments now).1.stdout ∧
          ∀ path writing manner'',
            Invocation.ofArguments writing = .ok ⟨manner'', .compile { a with out := some path }⟩ →
            (runIn tree writing now).1.code = 0 →
            (runIn tree arguments now).1.code = 0 ∧
              (runIn tree writing now).2.read path =
                .ok (runIn tree arguments now).1.stdout.toUTF8 := by
  have heffect : ∀ read, SameEffect (run arguments read now) (run arguments' read now) := by
    intro read
    rw [run_eq h, run_eq h']
    exact command.run_sameEffect
  refine ⟨heffect, ?_, fun tree => ?_⟩
  · rintro read a rfl hout
    rw [run_compile h, run_compile h']
    refine ⟨CompileArguments.told_stdout_run hout, fun path writing manner'' hwriting => ?_⟩
    rw [run_compile hwriting]
    exact ⟨fun text => CompileArguments.file?_run_iff hout,
      fun written => CompileArguments.exists_file?_of_code⟩
  · obtain ⟨hcode, hfiles⟩ := (heffect tree.read).conclude tree
    refine ⟨hcode, hfiles, ?_⟩
    rintro a rfl hout
    rw [runIn_compile h, runIn_compile h']
    refine ⟨CompileArguments.stdout_run hout, fun path writing manner'' hwriting => ?_⟩
    rw [runIn_compile hwriting]
    exact CompileArguments.stdout_of_written hout

/-- A form that is printed, printed by a quiet run, and put into a file: from
files anywhere, and in a directory. -/
theorem manner_keeps_outcome_of_page :
    let files := [("b", "\x7b\"digest\":\"E\",\"attributes\":[]\x7d".toUTF8),
      ("p", "\x7b\"bd\":\"E\"\x7d".toUTF8)]
    let read : ReadFile := fun path =>
      ((files.map fun file => ("/" ++ file.1, file.2)).lookup path).elim (.error .notFound) .ok
    let tree := FileTree.ofList files
    let loud := fun d : String => ["compile", d ++ "b", "--presentation", d ++ "p", "--output",
      "json"]
    let quiet := fun d : String => ["--quiet", "compile", d ++ "b", "--presentation", d ++ "p"]
    let writing := fun d : String => ["compile", d ++ "b", "--presentation", d ++ "p", "--out",
      d ++ "f"]
    (∃ text, run (loud "/") read .unixEpoch = .finish (.success text) ∧
      ((run (quiet "/") read .unixEpoch).told (.ok ())).stdout = text ∧
      (run (writing "/") read .unixEpoch).file? = some ("/f", text)) ∧
    (runIn tree (quiet "") .unixEpoch).1.code = (runIn tree (loud "") .unixEpoch).1.code ∧
    (runIn tree (quiet "") .unixEpoch).1.stdout = (runIn tree (loud "") .unixEpoch).1.stdout ∧
    (runIn tree (loud "") .unixEpoch).1.code = 0 ∧
    (runIn tree (writing "") .unixEpoch).2.read "f" =
      .ok (runIn tree (loud "") .unixEpoch).1.stdout.toUTF8 := by
  intro files read tree loud quiet writing
  have hloud : ∀ d, d = "/" ∨ d = "" → Invocation.ofArguments (loud d) =
      .ok ⟨⟨.json, false⟩, .compile ⟨d ++ "b", [], d ++ "p", none, [], none, none⟩⟩ := by
    rintro d (rfl | rfl) <;> rfl
  have hquiet : ∀ d, d = "/" ∨ d = "" → Invocation.ofArguments (quiet d) =
      .ok ⟨⟨.text, true⟩, .compile ⟨d ++ "b", [], d ++ "p", none, [], none, none⟩⟩ := by
    rintro d (rfl | rfl) <;> rfl
  have hwriting : ∀ d, d = "/" ∨ d = "" → Invocation.ofArguments (writing d) =
      .ok ⟨⟨.text, false⟩,
        .compile ⟨d ++ "b", [], d ++ "p", none, [], none, some (d ++ "f")⟩⟩ := by
    rintro d (rfl | rfl) <;> rfl
  refine ⟨?_, ?_⟩
  · have hcode : ((run (writing "/") read .unixEpoch).told (.ok ())).code = 0 := by decide +kernel
    obtain ⟨-, hforms, -⟩ :=
      manner_keeps_outcome (hloud "/" (.inl rfl)) (hquiet "/" (.inl rfl))
    obtain ⟨hprinted, hwritten⟩ := hforms read _ rfl rfl
    obtain ⟨hfile, hsucceeds⟩ := hwritten "/f" (writing "/") _ (hwriting "/" (.inl rfl))
    obtain ⟨-, text, htext⟩ := hsucceeds (.ok ()) hcode
    have hfinish := (hfile text).mp htext
    refine ⟨text, hfinish, ?_, htext⟩
    rw [hprinted, hfinish]
    rfl
  · have hcode : (runIn tree (writing "") .unixEpoch).1.code = 0 := by decide +kernel
    obtain ⟨-, -, hdirectory⟩ :=
      manner_keeps_outcome (hloud "" (.inr rfl)) (hquiet "" (.inr rfl))
    obtain ⟨hcodes, -, hforms⟩ := hdirectory tree
    obtain ⟨hprinted, hwritten⟩ := hforms _ rfl rfl
    obtain ⟨hzero, hread⟩ := hwritten "f" (writing "") _ (hwriting "" (.inr rfl)) hcode
    exact ⟨hcodes, hprinted, hzero, hread⟩

end FormCompiler.CommandLine

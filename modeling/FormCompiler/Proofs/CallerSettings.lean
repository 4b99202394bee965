import FormCompiler.Proofs.FormSites
import FormCompiler.Proofs.PairedCompilations

/-!
# FormCompiler.Proofs.CallerSettings

What the caller of a compilation sets beside the documents — conditions,
read-only rules, and the instant that date expressions refer to — only shows
in the marks that it is about (`CompileRequest.sameResult_settings`).  An
observer that looks at none of these marks cannot tell two settings apart
(`CompileRequest.settings_only_mark`).
-/

namespace FormCompiler

namespace CompileRequest

variable (request : CompileRequest) {conditionals : Dictionary Json} {readonly : List Path}
  {options options' : CompileOptions}

/-- Two settings look the same to an observer that looks only at marks of
settings that they have in common. -/
theorem sameResult_settings {see : Observer}
    (hconditions : see.conditions = true → request.conditionals = conditionals)
    (hreadonly : see.readonly = true → request.readonly = readonly)
    (hbounds : see.bounds = true → options.referenceTime = options'.referenceTime) :
    SameResult see Eq (request.compile options)
      ({ request with conditionals, readonly }.compile options') := by
  refine Paired.sameResult ⟨rfl, rfl, rfl, rfl, fun _ => ⟨fun _ => True, trivial, ?_⟩, rfl⟩
  exact
    { Walker.titledAlike_eq rfl with
      interaction := rfl
      findPage? := fun _ => rfl
      dependency? := fun _ _ => rfl
      held := fun _ _ => trivial
      conditionals := hconditions
      readonly := hreadonly
      now := hbounds }

/-- Compilations that differ in their settings fail with the same error, or
give equal tables and forms that are equal but for the conditions, the
read-only flags and the bounds of date ranges.  A range keeps its two
bounds; whether a bound can be read at all depends on the instant, since
dates end with the range of years. -/
theorem settings_only_mark (conditionals : Dictionary Json) (readonly : List Path)
    (options options' : CompileOptions) :
    (∃ error, request.compile options = .error error ∧
      { request with conditionals, readonly }.compile options' = .error error) ∨
    ∃ first second, request.compile options = .ok first ∧
      { request with conditionals, readonly }.compile options' = .ok second ∧
      first.locales = second.locales ∧ first.identifiers = second.identifiers ∧
      first.form.observed .blind = second.form.observed .blind := by
  have hsame : SameResult .blind Eq (request.compile options)
      ({ request with conditionals, readonly }.compile options') :=
    request.sameResult_settings (fun h => nomatch h) (fun h => nomatch h) (fun h => nomatch h)
  obtain herror | ⟨first, second, hfirst, hsecond, hform, htables⟩ := hsame.error_or_ok
  · exact .inl herror
  · obtain ⟨hlocales, hidentifiers⟩ := SideTables.mk.inj htables
    exact .inr ⟨first, second, hfirst, hsecond, hlocales, hidentifiers, hform⟩

/-- A question that opens a date field, under two settings.  The field has
the rule of the question under the first one, and is read-only, with a rule
of its own and with other bounds, under the second. -/
theorem settings_only_mark_of_question :
    let request : CompileRequest :=
      { bundle := ⟨"Eperson", [.bare "visit" (.scalar (.reference "Evisit"))], .empty⟩
        dependencies :=
          [⟨"Evisit", [.bare "place" (.scalar (.primitive .text)),
            .bare "day" (.scalar (.primitive .dateTime))], .empty⟩]
        presentation :=
          { bundleDigest := "Eperson", digest := none, languages := ["eng"]
            pages := [⟨none, none, some "main", [.field "visit"]⟩]
            pageOrder := ["main"], pageLabels := .empty
            interactions := [⟨"web", "capture", .ofList
              [("visit",
                { Hints.none with
                  widget := some "question", answer := some "place"
                  options := some (.object [("home", .array [.string "day"])]) }),
              ("visit.day",
                { Hints.none with
                  widget := some "date"
                  range := some (.array [.string "today", .string "tomorrow"]) })]⟩] }
        conditionals := .empty
        readonly := [] }
    let conditionals := Dictionary.ofList [("visit.day", .null)]
    let readonly := [Path.parse "visit.day"]
    let leapDay : CompileOptions := ⟨⟨⟨2024, 2, 29, by decide⟩, .midnight, .utc⟩⟩
    let marked := fun compiled : CompiledForm =>
      compiled.form.sites.any fun site => site.2.item?.any (·.isReadonly)
    ∃ first second, request.compile default = .ok first ∧
      { request with conditionals, readonly }.compile leapDay = .ok second ∧
      first.form.observed .blind = second.form.observed .blind ∧
      marked first = false ∧ marked second = true := by
  intro request conditionals readonly leapDay marked
  have hfirst : ((request.compile default).toOption.any (!marked ·)) = true := by decide +kernel
  have hsecond : (({ request with conditionals, readonly }.compile leapDay).toOption.any marked) =
      true := by decide +kernel
  rcases request.settings_only_mark conditionals readonly default leapDay with
    ⟨error, h, -⟩ | ⟨first, second, h, h', -, -, hform⟩
  · rw [h] at hfirst
    contradiction
  · rw [h] at hfirst
    rw [h'] at hsecond
    exact ⟨first, second, h, h', hform, (Bool.not_eq_true' _).mp hfirst, hsecond⟩

end CompileRequest

end FormCompiler

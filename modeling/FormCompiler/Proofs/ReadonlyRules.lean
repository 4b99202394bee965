import FormCompiler.Proofs.DottedPaths
import FormCompiler.Proofs.SiteOrigins

/-!
# FormCompiler.Proofs.ReadonlyRules

Which entries of a form are read-only.  The rules are dotted texts, read as
paths and compared name by name, while conditions and hints are looked up by
the whole dotted text.  So a rule reaches an entry when it joins the first
names of its path and none of these names holds a dot
(`CompileRequest.isReadonly_iff`).  Along names without dots this is the
same as the dotted text of the entry lying within the rule; a name with a
dot in it hides the entry from the rule (`CompileRequest.dotted_name_not_readonly`).
-/

namespace FormCompiler

namespace CompileRequest

variable {request : CompileRequest} {options : CompileOptions} {compiled : CompiledForm}
  {rules : List String} {path : Path} {entry : FieldEntry}

/-- The walker of a request reads its rules as paths and compares them name by
name. -/
theorem isReadonly_resolvedWalker (hrules : request.readonly = rules.map Path.parse) :
    (request.resolvedWalker options).isReadonly path = true ↔
      ∃ rule ∈ rules, rule ≠ "" ∧ path.StartsWith rule := by
  simp only [Walker.isReadonly, resolvedWalker, walker, hrules, List.any_map, List.any_eq_true,
    Function.comp, Path.isWithin_parse_iff]

/-- The entry of a path is read-only when a rule joins the first names of
the path and none of them holds a dot.  So its dotted text lies within some
rule whenever it is read-only, and the converse holds for an entry if one
such rule, where there is any, is made of whole names without dots: always
where no name of its path holds a dot. -/
theorem isReadonly_iff (hrules : request.readonly = rules.map Path.parse)
    (h : request.compile options = .ok compiled)
    (hlocated : (path, entry) ∈ compiled.form.located) {text : String}
    (hlabel : entry.label = some (text ++ ".label")) :
    text = path.render ∧
    (entry.isReadonly = true ↔ ∃ rule ∈ rules, rule ≠ "" ∧ path.StartsWith rule) ∧
    ((entry.isReadonly = true ↔ ∃ rule ∈ rules, Path.DottedWithin text rule) ↔
      ((∃ rule ∈ rules, Path.DottedWithin text rule) →
        ∃ rule ∈ rules, rule ≠ "" ∧ path.StartsWith rule)) ∧
    ((∀ name ∈ path.segments, '.' ∉ name.toList) →
      (entry.isReadonly = true ↔ ∃ rule ∈ rules, Path.DottedWithin text rule)) := by
  rw [Form.located_eq, Site.mem_entries] at hlocated
  obtain ⟨site, hsite, hentry⟩ := hlocated
  obtain ⟨hkey, hreadonly⟩ := (origin_of_mem_sites h hsite).labelled hentry (by simp [hlabel])
  have htext : text = path.render := by
    rw [hlabel] at hkey
    exact (String.append_left_inj ".label").mp (Option.some.inj hkey)
  have hstarts : entry.isReadonly = true ↔ ∃ rule ∈ rules, rule ≠ "" ∧ path.StartsWith rule := by
    rw [hreadonly]
    exact isReadonly_resolvedWalker hrules
  have hwithin : (∃ rule ∈ rules, rule ≠ "" ∧ path.StartsWith rule) →
      ∃ rule ∈ rules, Path.DottedWithin text rule := by
    rintro ⟨rule, hrule, hne, hstart⟩
    exact ⟨rule, hrule, htext ▸ hstart.dottedWithin hne⟩
  refine ⟨htext, hstarts, ?_, fun hdotless => ?_⟩
  · rw [hstarts]
    exact ⟨fun hiff => hiff.mpr, fun hrule => ⟨hwithin, hrule⟩⟩
  · rw [hstarts, htext]
    simp only [Path.dottedWithin_iff hdotless]

/-- The rule for a section reaches the field in it. -/
theorem isReadonly_iff_of_section :
    let request : CompileRequest :=
      { bundle := ⟨"Eperson", [.bare "address" (.scalar (.reference "Eaddress"))], .empty⟩
        dependencies := [⟨"Eaddress", [.bare "city" (.scalar (.primitive .text))], .empty⟩]
        presentation :=
          { bundleDigest := "Eperson", digest := none, languages := ["eng"]
            pages := [⟨none, none, some "main", [.page ⟨none, some "address", none,
              [.field "city"]⟩]⟩]
            pageOrder := ["main"], pageLabels := .empty, interactions := [] }
        conditionals := .empty
        readonly := ["name", "address"].map Path.parse }
    ∃ compiled path entry, request.compile default = .ok compiled ∧
      (path, entry) ∈ compiled.form.located ∧ entry.label = some ("address.city" ++ ".label") ∧
      entry.isReadonly = true := by
  intro request
  obtain ⟨compiled, ⟨path, entry⟩, hcompile, hlocated, hfound⟩ :=
    exists_mem_of_compile request default (fun compiled => compiled.form.located)
      (fun located => located.1 == Path.parse "address.city" &&
        located.2.label == some ("address.city" ++ ".label")) (by decide +kernel)
  obtain ⟨rfl, hlabel⟩ : path = Path.parse "address.city" ∧
      entry.label = some ("address.city" ++ ".label") := by simpa using hfound
  refine ⟨compiled, _, entry, hcompile, hlocated, hlabel, ?_⟩
  obtain ⟨-, -, -, hwithin⟩ :=
    isReadonly_iff rfl hcompile hlocated hlabel
  refine (hwithin (by decide)).mpr ⟨"address", by simp, by decide, .inr ⟨"city", by decide⟩⟩

/-- A name with a dot in it: the rule is the dotted text of the field, and
the field is not read-only. -/
theorem dotted_name_not_readonly :
    let request : CompileRequest :=
      { bundle := ⟨"Eperson", [.bare "name.first" (.scalar (.primitive .text))], .empty⟩
        dependencies := []
        presentation :=
          { bundleDigest := "Eperson", digest := none, languages := ["eng"]
            pages := [⟨none, none, some "main", [.field "name.first"]⟩]
            pageOrder := ["main"], pageLabels := .empty, interactions := [] }
        conditionals := .empty
        readonly := ["name.first"].map Path.parse }
    ∃ compiled path entry, request.compile default = .ok compiled ∧
      (path, entry) ∈ compiled.form.located ∧ entry.label = some ("name.first" ++ ".label") ∧
      Path.DottedWithin "name.first" "name.first" ∧ entry.isReadonly = false := by
  intro request
  obtain ⟨compiled, ⟨path, entry⟩, hcompile, hlocated, hfound⟩ :=
    exists_mem_of_compile request default (fun compiled => compiled.form.located)
      (fun located => located.2.label == some ("name.first" ++ ".label") &&
        !located.2.isReadonly) (by decide +kernel)
  obtain ⟨hlabel, hreadonly⟩ : entry.label = some ("name.first" ++ ".label") ∧
      entry.isReadonly = false := by simpa using hfound
  exact ⟨compiled, path, entry, hcompile, hlocated, hlabel, ⟨by decide, .inl rfl⟩, hreadonly⟩

end CompileRequest

end FormCompiler

import FormCompiler.Proofs.Compilation

/-!
# FormCompiler.Proofs.MetEntries

The entries that a walk meets, on pages of any depth, each with the bundle
that it reads attributes from and the path that it stands below.
`Walker.Meets` follows the sections of a presentation alone; what becomes of
an entry is left to a property of it.  Whether some entry with a property is
met is decided entry by entry (`Walker.MeetsSome`).
-/

namespace FormCompiler

namespace Walker

/-! ## entries on pages -/

/-- Walking over the entries of a page below a path, an entry is met: one of
them, or one within a section.  It reads attributes from the bundle `owner`
and stands below `place`. -/
inductive Meets (w : Walker) :
    List PageEntry → Bundle → Path → PageEntry → Bundle → Path → Prop
  | here {entry entries bundle above} : Meets w (entry :: entries) bundle above entry bundle above
  | synthetic {spec name entries bundle above entry owner place}
      (addressed : spec.address = .ok (.synthetic name))
      (inside : Meets w spec.entries bundle (above.child name) entry owner place) :
      Meets w (.page spec :: entries) bundle above entry owner place
  | embedded {spec address entries bundle above dep entry owner place}
      (addressed : spec.address = .ok address) (embeds : ∀ name, address ≠ .synthetic name)
      (depends : w.dependency? bundle address.name = some dep)
      (inside : Meets w spec.entries dep (above.child address.name) entry owner place) :
      Meets w (.page spec :: entries) bundle above entry owner place
  | later {first entries bundle above entry owner place}
      (inside : Meets w entries bundle above entry owner place) :
      Meets w (first :: entries) bundle above entry owner place

def MeetsSome (w : Walker) (P : PageEntry → Bundle → Path → Prop) (entries : List PageEntry)
    (bundle : Bundle) (above : Path) : Prop :=
  ∃ entry owner place, w.Meets entries bundle above entry owner place ∧ P entry owner place

section Inversion

variable {w : Walker} {bundle : Bundle} {above : Path} {entries : List PageEntry}
  {spec : PageSpec} {P : PageEntry → Bundle → Path → Prop}

theorem not_meetsSome_nil : ¬ w.MeetsSome P [] bundle above :=
  fun ⟨_, _, _, h, _⟩ => nomatch h

/-- A name leads to no other entry. -/
theorem meetsSome_field_iff {name : String} :
    w.MeetsSome P (.field name :: entries) bundle above ↔
      P (.field name) bundle above ∨ w.MeetsSome P entries bundle above := by
  constructor
  · rintro ⟨entry, owner, place, hmeets, hentry⟩
    cases hmeets with
    | here => exact .inl hentry
    | later inside => exact .inr ⟨entry, owner, place, inside, hentry⟩
  · rintro (hhere | ⟨entry, owner, place, inside, hentry⟩)
    · exact ⟨_, _, _, .here, hhere⟩
    · exact ⟨entry, owner, place, .later inside, hentry⟩

/-- The entries of a synthetic page are met over the same bundle. -/
theorem meetsSome_synthetic_iff {name : String}
    (addressed : spec.address = .ok (.synthetic name)) :
    w.MeetsSome P (.page spec :: entries) bundle above ↔
      P (.page spec) bundle above ∨ w.MeetsSome P spec.entries bundle (above.child name) ∨
        w.MeetsSome P entries bundle above := by
  constructor
  · rintro ⟨entry, owner, place, hmeets, hentry⟩
    cases hmeets with
    | here => exact .inl hentry
    | synthetic addressed' inside =>
        obtain rfl := PageAddress.synthetic.inj (Except.ok.inj (addressed.symm.trans addressed'))
        exact .inr (.inl ⟨entry, owner, place, inside, hentry⟩)
    | embedded addressed' embeds =>
        exact absurd (Except.ok.inj (addressed'.symm.trans addressed)) (embeds name)
    | later inside => exact .inr (.inr ⟨entry, owner, place, inside, hentry⟩)
  · rintro (hhere | ⟨entry, owner, place, inside, hentry⟩ | ⟨entry, owner, place, inside, hentry⟩)
    · exact ⟨_, _, _, .here, hhere⟩
    · exact ⟨entry, owner, place, .synthetic addressed inside, hentry⟩
    · exact ⟨entry, owner, place, .later inside, hentry⟩

/-- The entries of an embedded page are met over the bundle that its attribute
refers to. -/
theorem meetsSome_embedded_iff {address : PageAddress} {dep : Bundle}
    (addressed : spec.address = .ok address) (embeds : ∀ name, address ≠ .synthetic name)
    (depends : w.dependency? bundle address.name = some dep) :
    w.MeetsSome P (.page spec :: entries) bundle above ↔
      P (.page spec) bundle above ∨ w.MeetsSome P spec.entries dep (above.child address.name) ∨
        w.MeetsSome P entries bundle above := by
  constructor
  · rintro ⟨entry, owner, place, hmeets, hentry⟩
    cases hmeets with
    | here => exact .inl hentry
    | synthetic addressed' =>
        exact absurd (Except.ok.inj (addressed.symm.trans addressed')) (embeds _)
    | embedded addressed' embeds' depends' inside =>
        obtain rfl := Except.ok.inj (addressed.symm.trans addressed')
        obtain rfl := Option.some.inj (depends.symm.trans depends')
        exact .inr (.inl ⟨entry, owner, place, inside, hentry⟩)
    | later inside => exact .inr (.inr ⟨entry, owner, place, inside, hentry⟩)
  · rintro (hhere | ⟨entry, owner, place, inside, hentry⟩ | ⟨entry, owner, place, inside, hentry⟩)
    · exact ⟨_, _, _, .here, hhere⟩
    · exact ⟨entry, owner, place, .embedded addressed embeds depends inside, hentry⟩
    · exact ⟨entry, owner, place, .later inside, hentry⟩

end Inversion

end Walker

/-! ## entries on the pages of a form -/

namespace CompileRequest

/-- A compilation meets an entry on some page of the page order, or within a
section of it. -/
def Meets (request : CompileRequest) (options : CompileOptions) (entry : PageEntry)
    (owner : Bundle) (place : Path) : Prop :=
  ∃ name ∈ request.presentation.pageOrder, ∃ spec,
    request.presentation.findPage? name = some spec ∧
    (request.resolvedWalker options).Meets spec.entries request.bundle .root entry owner place

/-- Some entry with a property is met on a page exactly if the compilation
meets one. -/
theorem exists_meets_iff {request : CompileRequest} {options : CompileOptions}
    {P : PageEntry → Bundle → Path → Prop} :
    (∃ entry owner place, request.Meets options entry owner place ∧ P entry owner place) ↔
      ∃ name ∈ request.presentation.pageOrder, ∃ spec,
        request.presentation.findPage? name = some spec ∧
        (request.resolvedWalker options).MeetsSome P spec.entries request.bundle .root := by
  constructor
  · rintro ⟨entry, owner, place, ⟨name, hname, spec, found, hmeets⟩, hentry⟩
    exact ⟨name, hname, spec, found, entry, owner, place, hmeets, hentry⟩
  · rintro ⟨name, hname, spec, found, entry, owner, place, hmeets, hentry⟩
    exact ⟨entry, owner, place, ⟨name, hname, spec, found, hmeets⟩, hentry⟩

end CompileRequest

end FormCompiler

import FormCompiler.Json.Reader

/-!
# FormCompiler.Proofs.DistinctKeys

Values whose objects have no key twice.  Whatever is read from a text is
such a value, since a repeated key takes the place of the first one
(`Json.distinctKeys_of_read`), so a lookup by key sees every field of it
(`Json.DistinctKeys.lookup_of_mem`), and merging repeated keys leaves it as
it is (`Json.DistinctKeys.mergeKeys_eq`).
-/

namespace FormCompiler

/-! ## keys -/

section Entries

universe u

variable {α : Type u} {key : String} {value : α} {entries : List (String × α)}

theorem mem_putEntry {entry : String × α} (h : entry ∈ putEntry key value entries) :
    entry = (key, value) ∨ entry ∈ entries := by
  induction entries with
  | nil => exact .inl (List.mem_singleton.mp h)
  | cons head rest ih =>
      rw [putEntry] at h
      split at h
      · next hkey =>
          obtain rfl | hrest := List.mem_cons.mp h
          · exact .inl (by rw [hkey])
          · exact .inr (List.mem_cons_of_mem _ hrest)
      · obtain rfl | hrest := List.mem_cons.mp h
        · exact .inr List.mem_cons_self
        · exact (ih hrest).imp_right (List.mem_cons_of_mem _)

/-- Keys that are all different stay so. -/
theorem nodup_putEntry (key : String) (value : α) (h : (entries.map (·.1)).Nodup) :
    ((putEntry key value entries).map (·.1)).Nodup := by
  rw [keys_putEntry]
  split
  · exact h
  · next hfresh =>
      refine List.nodup_append.mpr ⟨h, by simp, fun name hname other hother heq => ?_⟩
      exact hfresh (List.mem_singleton.mp hother ▸ heq ▸ hname)

/-- Where no key stands twice, each entry is found under its key. -/
theorem lookup_of_mem_of_nodup (hnodup : (entries.map (·.1)).Nodup) (h : (key, value) ∈ entries) :
    entries.lookup key = some value := by
  induction entries with
  | nil => simp at h
  | cons head rest ih =>
      obtain ⟨hfresh, hrest⟩ := List.nodup_cons.mp hnodup
      rw [lookup_cons_eq]
      obtain rfl | hmem := List.mem_cons.mp h
      · rw [if_pos rfl]
      · have hne : key ≠ head.1 := fun heq =>
          hfresh (List.mem_map.mpr ⟨(key, value), hmem, heq⟩)
        rw [if_neg hne, ih hrest hmem]

theorem nodup_keys_of_sorted (h : SortedEntries entries) : (entries.map (·.1)).Nodup := by
  refine List.pairwise_map.mpr (h.imp fun {a b} hlt heq => ?_)
  rw [heq] at hlt
  exact String.lt_irrefl _ hlt

theorem putEntry_of_notMem (h : key ∉ entries.map (·.1)) (value : α) :
    putEntry key value entries = entries ++ [(key, value)] := by
  induction entries with
  | nil => rfl
  | cons head rest ih =>
      obtain ⟨hhead, hrest⟩ := List.ne_and_not_mem_of_not_mem_cons h
      rw [putEntry, if_neg (Ne.symm hhead), ih hrest, List.cons_append]

theorem lookup_append (key : String) (first second : List (String × α)) :
    (first ++ second).lookup key = (first.lookup key).or (second.lookup key) := by
  induction first with
  | nil => rfl
  | cons head rest ih =>
      rw [List.cons_append, lookup_cons_eq, lookup_cons_eq, ih]
      split <;> rfl

/-- Nothing is found under the keys that no entry has, and only there. -/
theorem lookup_eq_none_iff_notMem : entries.lookup key = none ↔ key ∉ entries.map (·.1) := by
  induction entries with
  | nil => simp
  | cons head rest ih =>
      rw [lookup_cons_eq, List.map_cons, List.mem_cons, not_or, ← ih]
      by_cases hkey : key = head.1 <;> simp [hkey]

/-- Of different keys the last entry is the only one. -/
theorem lookup_reverse (h : (entries.map (·.1)).Nodup) (key : String) :
    entries.reverse.lookup key = entries.lookup key := by
  cases hfound : entries.lookup key with
  | none =>
      cases hlast : entries.reverse.lookup key with
      | none => rfl
      | some value =>
          have := lookup_of_mem_of_nodup h (List.mem_reverse.mp (mem_of_lookup hlast))
          rw [hfound] at this
          contradiction
  | some value =>
      refine lookup_of_mem_of_nodup ?_ (List.mem_reverse.mpr (mem_of_lookup hfound))
      rw [List.map_reverse]
      exact List.pairwise_reverse.mpr (h.imp Ne.symm)

end Entries

namespace Json

/-! ## values -/

/-- No object in the value has a key twice. -/
inductive DistinctKeys : Json → Prop
  | null : DistinctKeys .null
  | boolean {value} : DistinctKeys (.boolean value)
  | number {value} : DistinctKeys (.number value)
  | string {value} : DistinctKeys (.string value)
  | array {items} (distinct : ∀ item ∈ items, DistinctKeys item) : DistinctKeys (.array items)
  | object {fields} (distinct : (fields.map (·.1)).Nodup)
      (values : ∀ field ∈ fields, DistinctKeys field.2) : DistinctKeys (.object fields)

/-- An object has distinct keys exactly if its own keys differ and its values
have distinct keys. -/
theorem distinctKeys_object_iff {fields : List (String × Json)} :
    (object fields).DistinctKeys ↔
      (fields.map (·.1)).Nodup ∧ ∀ field ∈ fields, field.2.DistinctKeys := by
  constructor
  · intro h
    cases h with
    | object distinct values => exact ⟨distinct, values⟩
  · exact fun h => .object h.1 h.2

namespace DistinctKeys

variable {items : List Json} {fields : List (String × Json)}

/-- The property goes down to the items of an array. -/
theorem of_mem_items {item : Json} (h : (Json.array items).DistinctKeys) (hitem : item ∈ items) :
    item.DistinctKeys := by
  cases h with
  | array distinct => exact distinct item hitem

/-- The property goes down to the fields of an object. -/
theorem of_mem_fields {field : String × Json} (h : (Json.object fields).DistinctKeys)
    (hfield : field ∈ fields) : field.2.DistinctKeys := by
  cases h with
  | object distinct values => exact values field hfield

/-- A lookup sees every field. -/
theorem lookup_of_mem {key : String} {value : Json} (h : (Json.object fields).DistinctKeys)
    (hfield : (key, value) ∈ fields) : fields.lookup key = some value := by
  cases h with
  | object distinct values => exact lookup_of_mem_of_nodup distinct hfield

/-- The property goes down to what is found under a key. -/
theorem of_lookup {key : String} {value : Json} (h : (Json.object fields).DistinctKeys)
    (hvalue : fields.lookup key = some value) : value.DistinctKeys :=
  h.of_mem_fields (mem_of_lookup hvalue)

/-- A field with a key that may be there already. -/
theorem putEntry {value : Json} (h : (Json.object fields).DistinctKeys) (key : String)
    (hvalue : value.DistinctKeys) : (Json.object (putEntry key value fields)).DistinctKeys := by
  cases h with
  | object distinct values =>
      refine .object (nodup_putEntry key value distinct) fun field hfield => ?_
      obtain rfl | hfield := mem_putEntry hfield
      · exact hvalue
      · exact values field hfield

end DistinctKeys

/-! ## repeated keys -/

/-- The value that keys lead to, one after the other. -/
def follow? : List String → Json → Option Json
  | [], value => some value
  | key :: keys, value => (value.get? key).bind (follow? keys)

theorem follow?_append (first second : List String) (value : Json) :
    value.follow? (first ++ second) = (value.follow? first).bind (follow? second) := by
  induction first generalizing value with
  | nil => rfl
  | cons key first ih =>
      rw [List.cons_append, follow?, follow?]
      cases value.get? key with
      | none => rfl
      | some inner => exact ih inner

/-- Merged fields answer with the last value of a key. -/
theorem lookup_mergeFields (key : String) (taken fields : List (String × Json)) :
    (mergeFields taken fields).lookup key =
      ((fields.reverse.lookup key).map mergeKeys).or (taken.lookup key) := by
  induction fields generalizing taken with
  | nil => rfl
  | cons field fields ih =>
      obtain ⟨name, value⟩ := field
      rw [mergeFields, ih, lookup_putEntry, List.reverse_cons, lookup_append, lookup_cons_eq]
      cases fields.reverse.lookup key with
      | some found => rfl
      | none => split <;> simp

/-- Merging keeps the last value of a key, merged in turn. -/
theorem get?_mergeKeys_object (key : String) (fields : List (String × Json)) :
    (object fields).mergeKeys.get? key = (fields.reverse.lookup key).map mergeKeys := by
  rw [mergeKeys, get?, lookup_mergeFields]
  simp

/-- Fields with distinct keys are taken over behind those that are there. -/
theorem mergeFields_of_nodup {fields : List (String × Json)} (taken : List (String × Json))
    (hkeys : ((taken ++ fields).map (·.1)).Nodup)
    (hvalues : ∀ field ∈ fields, field.2.mergeKeys = field.2) :
    mergeFields taken fields = taken ++ fields := by
  induction fields generalizing taken with
  | nil => rw [mergeFields, List.append_nil]
  | cons field fields ih =>
      obtain ⟨name, value⟩ := field
      obtain ⟨hvalue, hvalues⟩ := List.forall_mem_cons.mp hvalues
      have hfresh : name ∉ taken.map (·.1) := by
        rw [List.map_append, List.map_cons, List.nodup_append] at hkeys
        exact fun hmem => hkeys.2.2 name hmem name List.mem_cons_self rfl
      rw [← List.singleton_append, ← List.append_assoc] at hkeys
      rw [mergeFields, hvalue, putEntry_of_notMem hfresh, ih _ hkeys hvalues, List.append_assoc,
        List.singleton_append]

theorem mergeItems_of_forall {items : List Json} (h : ∀ item ∈ items, item.mergeKeys = item) :
    mergeItems items = items := by
  induction items with
  | nil => rfl
  | cons item items ih =>
      obtain ⟨hitem, hitems⟩ := List.forall_mem_cons.mp h
      rw [mergeItems, hitem, ih hitems]

/-- Without repeated keys there is nothing to merge. -/
theorem DistinctKeys.mergeKeys_eq {value : Json} (h : value.DistinctKeys) :
    value.mergeKeys = value := by
  induction h with
  | null | boolean | number | string => rfl
  | array distinct ih => rw [mergeKeys, mergeItems_of_forall ih]
  | object distinct values ih =>
      rw [mergeKeys, mergeFields_of_nodup [] distinct ih, List.nil_append]

end Json

/-! ## reading -/

/-- Whatever the step takes is a value of which `P` holds. -/
def ReadStep.Yields {α : Type} (step : ReadStep α) (P : α → Prop) : Prop :=
  ∀ text value rest, step text = .ok (value, rest) → P value

namespace Json

/-- A word of the grammar is read as its value. -/
theorem readLetters_yields (value : Json) (letters : List Char) :
    (readLetters value letters).Yields (· = value) := by
  intro text value' rest h
  induction letters generalizing text with
  | nil =>
      obtain ⟨rfl, -⟩ := Prod.mk.inj (Except.ok.inj h)
      rfl
  | cons letter letters ih =>
      cases text with
      | nil => contradiction
      | cons c text =>
          rw [readLetters] at h
          split at h
          · exact ih text h
          · contradiction

/-! ### numbers -/

def IsNumber (value : Json) : Prop := ∃ number, value = .number number

section Numbers

variable {negative : Bool} {significand : Nat} {exponent : Int}

theorem scaledNumber_yields : (scaledNumber negative significand exponent).Yields IsNumber := by
  intro text value rest h
  unfold scaledNumber at h
  split at h
  · contradiction
  · obtain ⟨rfl, -⟩ := Prod.mk.inj (Except.ok.inj h)
    exact ⟨_, rfl⟩

/-- The digits of an exponent end a number, also where the exponent is too
large. -/
theorem readExponent_yields : (readExponent negative significand exponent).Yields IsNumber := by
  intro text value rest h
  unfold readExponent at h
  split at h
  split at h
  · contradiction
  · split at h
    · contradiction
    · split at h
      · split at h
        · contradiction
        · obtain ⟨rfl, -⟩ := Prod.mk.inj (Except.ok.inj h)
          exact ⟨_, rfl⟩
      · exact scaledNumber_yields _ _ _ h

theorem readScale_yields : (readScale negative significand exponent).Yields IsNumber := by
  intro text value rest h
  unfold readScale at h
  split at h
  · exact readExponent_yields _ _ _ h
  · exact readExponent_yields _ _ _ h
  · exact scaledNumber_yields _ _ _ h

/-- The digits behind a dot belong to a number. -/
theorem readFraction_yields : (readFraction negative significand exponent).Yields IsNumber := by
  intro text value rest h
  unfold readFraction at h
  dsimp only at h
  split at h
  · contradiction
  · exact readScale_yields _ _ _ h

/-- With its whole part read, a number may end or go on. -/
theorem readTail_yields (digits : List Char) :
    ReadStep.Yields (readNumber.readTail negative digits) IsNumber := by
  intro text value rest h
  unfold readNumber.readTail at h
  dsimp only at h
  split at h
  · exact readFraction_yields _ _ _ h
  · exact readExponent_yields _ _ _ h
  · exact readExponent_yields _ _ _ h
  · split at h
    · obtain ⟨rfl, -⟩ := Prod.mk.inj (Except.ok.inj h)
      exact ⟨_, rfl⟩
    · split at h
      · obtain ⟨rfl, -⟩ := Prod.mk.inj (Except.ok.inj h)
        exact ⟨_, rfl⟩
      · exact scaledNumber_yields _ _ _ h

theorem readNumber_yields : (readNumber negative).Yields IsNumber := by
  intro text value rest h
  unfold readNumber at h
  split at h
  · contradiction
  · split at h
    · contradiction
    · exact readTail_yields _ _ _ _ h
  · dsimp only at h
    split at h
    · contradiction
    · exact readTail_yields _ _ _ _ h

theorem IsNumber.distinctKeys {value : Json} (h : value.IsNumber) : value.DistinctKeys := by
  obtain ⟨number, rfl⟩ := h
  exact .number

end Numbers

/-! ### arrays and objects -/

section Nested

variable {one : ReadStep Json} (hone : one.Yields DistinctKeys)
include hone

/-- Items with distinct keys are read into an array of such items. -/
theorem readItems_yields (fuel : Nat) {items : List Json}
    (hitems : ∀ item ∈ items, item.DistinctKeys) :
    (readItems one fuel items).Yields DistinctKeys := by
  intro text value rest h
  induction fuel generalizing items text with
  | zero => contradiction
  | succ fuel ih =>
      rw [readItems] at h
      cases hitem : one text with
      | error failure =>
          rw [hitem] at h
          contradiction
      | ok taken =>
          rw [hitem] at h
          have hall : ∀ item ∈ taken.1 :: items, item.DistinctKeys :=
            List.forall_mem_cons.mpr ⟨hone _ _ _ hitem, hitems⟩
          dsimp only [bind, Except.bind] at h
          split at h
          · contradiction
          · obtain ⟨rfl, -⟩ := Prod.mk.inj (Except.ok.inj h)
            exact .array fun item hitem => hall item (List.mem_reverse.mp hitem)
          · split at h
            · contradiction
            · contradiction
            · exact ih hall _ h
          · contradiction

/-- A field that is read takes the place of an earlier one with its key, so the
keys stay distinct. -/
theorem readFields_yields (fuel : Nat) {fields : List (String × Json)}
    (hfields : (Json.object fields).DistinctKeys) :
    (readFields one fuel fields).Yields DistinctKeys := by
  intro text value rest h
  induction fuel generalizing fields text with
  | zero => contradiction
  | succ fuel ih =>
      rw [readFields] at h
      cases hkey : readString text with
      | error failure =>
          rw [hkey] at h
          contradiction
      | ok key =>
          rw [hkey] at h
          dsimp only [bind, Except.bind] at h
          split at h
          · contradiction
          · next behind _ =>
              cases hvalue : one (skipSpaces behind) with
              | error failure =>
                  rw [hvalue] at h
                  contradiction
              | ok taken =>
                  rw [hvalue] at h
                  have hall := hfields.putEntry (String.ofList key.1) (hone _ _ _ hvalue)
                  dsimp only at h
                  split at h
                  · contradiction
                  · obtain ⟨rfl, -⟩ := Prod.mk.inj (Except.ok.inj h)
                    exact hall
                  · split at h
                    · contradiction
                    · exact ih hall _ h
                    · contradiction
                    · contradiction
                  · contradiction
          · contradiction

end Nested

/-- The items and the values within a value are read with less depth left. -/
theorem readValue_yields (depth : Nat) : (readValue depth).Yields DistinctKeys := by
  -- Only arrays and objects go deeper; all else is read without depth.
  induction depth using Nat.strongRecOn with
  | ind depth ih =>
      intro text value rest h
      unfold readValue at h
      split at h
      · contradiction
      · obtain rfl := readLetters_yields _ _ _ _ _ h
        exact .null
      · obtain rfl := readLetters_yields _ _ _ _ _ h
        exact .boolean
      · obtain rfl := readLetters_yields _ _ _ _ _ h
        exact .boolean
      · exact (readNumber_yields _ _ _ h).distinctKeys
      · next behind _ =>
          cases hstring : readString behind with
          | error failure =>
              rw [hstring] at h
              contradiction
          | ok taken =>
              rw [hstring] at h
              obtain ⟨rfl, -⟩ := Prod.mk.inj (Except.ok.inj h)
              exact .string
      · split at h
        · contradiction
        · next depth =>
            split at h
            · contradiction
            · obtain ⟨rfl, -⟩ := Prod.mk.inj (Except.ok.inj h)
              exact .array (by simp)
            · exact readItems_yields (ih depth (Nat.lt_succ_self depth)) _ (by simp) _ _ _ h
      · split at h
        · contradiction
        · next depth =>
            split at h
            · contradiction
            · obtain ⟨rfl, -⟩ := Prod.mk.inj (Except.ok.inj h)
              exact .object (by simp) (by simp)
            · exact readFields_yields (ih depth (Nat.lt_succ_self depth)) _
                (.object (by simp) (by simp)) _ _ _ h
            · contradiction
      · split at h
        · exact (readNumber_yields _ _ _ h).distinctKeys
        · contradiction

/-- What is read from a text has no key twice in an object. -/
theorem distinctKeys_of_read {text : String} {value : Json} (h : read text = .ok value) :
    value.DistinctKeys := by
  unfold read at h
  split at h
  · contradiction
  · next value' rest hread =>
      split at h
      · obtain rfl := Except.ok.inj h
        exact readValue_yields _ _ _ _ hread
      · contradiction

end Json

end FormCompiler

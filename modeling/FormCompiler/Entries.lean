/-!
# FormCompiler.Entries

Keyed entry lists, the common ground of ordered objects, per-language
values and sorted maps.  Two updates are offered:

1. `putEntry` keeps the order in which keys first appeared and replaces a
   repeated key in place;
2. `alterEntry` keeps the keys in increasing order and lets the new value
   depend on the old one.

Lookup is `List.lookup`, which returns the first entry of a key.  The main
statements are `lookup_putEntry` and `lookup_alterEntry`, one equation per
update, `keys_putEntry`, that the first update keeps the places of all keys,
and `sorted_alterEntry`, that the second one keeps the order.
-/

namespace FormCompiler

universe u

variable {α : Type u}

theorem lookup_cons_eq (key : String) (entry : String × α) (entries : List (String × α)) :
    (entry :: entries).lookup key =
      if key = entry.1 then some entry.2 else entries.lookup key := by
  grind

theorem mem_of_lookup {key : String} {value : α} {entries : List (String × α)}
    (h : entries.lookup key = some value) : (key, value) ∈ entries := by
  induction entries with
  | nil => simp at h
  | cons head rest ih => grind

/-! ## insertion order -/

/-- Gives `key` the value `value`: in place when the key is there, at the
end otherwise. -/
def putEntry (key : String) (value : α) : List (String × α) → List (String × α)
  | [] => [(key, value)]
  | (k, v) :: rest =>
    if k = key then (k, value) :: rest else (k, v) :: putEntry key value rest

/-- Putting an entry changes what is found under its key, and nowhere else. -/
theorem lookup_putEntry (key k : String) (value : α) (entries : List (String × α)) :
    (putEntry key value entries).lookup k = if k = key then some value else entries.lookup k := by
  induction entries with
  | nil => by_cases h : k = key <;> simp [putEntry, lookup_cons_eq, h]
  | cons head rest ih =>
    obtain ⟨k', v⟩ := head
    by_cases hk : k' = key
    · by_cases h : k = key <;> grind [putEntry]
    · grind [putEntry]

/-- A new key goes behind the others; a repeated one keeps its place. -/
theorem keys_putEntry (key : String) (value : α) (entries : List (String × α)) :
    (putEntry key value entries).map (·.1) =
      if key ∈ entries.map (·.1) then entries.map (·.1) else entries.map (·.1) ++ [key] := by
  induction entries with
  | nil => simp [putEntry]
  | cons head rest ih =>
    by_cases hkey : head.1 = key
    · simp [putEntry, hkey]
    · rw [putEntry, if_neg hkey, List.map_cons, ih, List.map_cons]
      by_cases hrest : key ∈ rest.map (·.1)
      · rw [if_pos hrest, if_pos (List.mem_cons_of_mem _ hrest)]
      · rw [if_neg hrest, if_neg fun hmem => (List.mem_cons.mp hmem).elim (Ne.symm hkey) hrest]
        rfl

/-! ## key order -/

/-- The entries are in strictly increasing key order. -/
abbrev SortedEntries (entries : List (String × α)) : Prop :=
  entries.Pairwise fun a b => a.1 < b.1

/-- Replaces the value of `key` by `f` of the old value, keeping the keys
in increasing order. -/
def alterEntry (key : String) (f : Option α → α) : List (String × α) → List (String × α)
  | [] => [(key, f none)]
  | (k, v) :: rest =>
    if key < k then (key, f none) :: (k, v) :: rest
    else if key = k then (k, f (some v)) :: rest
    else (k, v) :: alterEntry key f rest

/-- Text order is total. -/
theorem lt_of_not_lt_of_ne {a b : String} (h : ¬ a < b) (hne : a ≠ b) : b < a := by
  rcases String.le_total a b with hab | hba
  · exact absurd (String.le_antisymm hab (String.not_lt.mp h)) hne
  · exact String.not_le.mp fun hab => hne (String.le_antisymm hab hba)

/-- Altering a key adds no entry but for that key. -/
theorem mem_alterEntry {key : String} {f : Option α → α} {e : String × α}
    {entries : List (String × α)} (h : e ∈ alterEntry key f entries) :
    e.1 = key ∨ e ∈ entries := by
  induction entries with
  | nil => simp_all [alterEntry]
  | cons head rest ih => grind [alterEntry]

/-- Altering a key keeps entries sorted. -/
theorem sorted_alterEntry (key : String) (f : Option α → α) {entries : List (String × α)}
    (h : SortedEntries entries) : SortedEntries (alterEntry key f entries) := by
  induction entries with
  | nil => simp [alterEntry, SortedEntries]
  | cons head rest ih =>
    obtain ⟨k, v⟩ := head
    have hrest := List.pairwise_cons.mp h
    simp only [alterEntry]
    split
    · rename_i hlt
      refine List.pairwise_cons.mpr ⟨fun e he => ?_, h⟩
      rcases List.mem_cons.mp he with rfl | he
      · exact hlt
      · exact String.lt_trans hlt (hrest.1 e he)
    · rename_i hlt
      split
      · exact List.pairwise_cons.mpr hrest
      · rename_i hne
        refine List.pairwise_cons.mpr ⟨fun e he => ?_, ih hrest.2⟩
        rcases mem_alterEntry he with he | he
        · exact he ▸ lt_of_not_lt_of_ne hlt hne
        · exact hrest.1 e he

/-- Nothing is found in front of the first key. -/
theorem lookup_eq_none_of_lt {key : String} {entries : List (String × α)}
    (h : ∀ e ∈ entries, key < e.1) : entries.lookup key = none := by
  induction entries with
  | nil => rfl
  | cons head rest ih =>
    have hne : key ≠ head.1 := fun heq => String.lt_irrefl key (heq ▸ h head (by simp))
    grind

/-- Altering a key changes what is found under it, and nowhere else. -/
theorem lookup_alterEntry (key k : String) (f : Option α → α) {entries : List (String × α)}
    (h : SortedEntries entries) :
    (alterEntry key f entries).lookup k =
      if k = key then some (f (entries.lookup key)) else entries.lookup k := by
  induction entries with
  | nil => by_cases hk : k = key <;> simp [alterEntry, lookup_cons_eq, hk]
  | cons head rest ih =>
    obtain ⟨k', v⟩ := head
    have hrest := List.pairwise_cons.mp h
    by_cases hlt : key < k'
    · have hnone : ((k', v) :: rest).lookup key = none :=
        lookup_eq_none_of_lt fun e he => by
          rcases List.mem_cons.mp he with rfl | he
          · exact hlt
          · exact String.lt_trans hlt (hrest.1 e he)
      simp only [alterEntry, hlt, if_true, hnone]
      by_cases hk : k = key <;> grind
    · have := ih hrest.2
      grind [alterEntry]

end FormCompiler

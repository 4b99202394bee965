import FormCompiler.Entries

/-!
# FormCompiler.Dictionary

Maps from text keys to values, kept as entry lists in increasing key order.
The order is part of the type, so two dictionaries that answer every lookup
alike are equal (`Dictionary.ext_find?`), and printing one in stored order
prints its keys in the order of their code points.
-/

namespace FormCompiler

universe u v

/-- A finite map with text keys, in increasing key order. -/
structure Dictionary (α : Type u) where
  entries : List (String × α)
  sorted : SortedEntries entries
deriving DecidableEq

namespace Dictionary

variable {α : Type u} {β : Type v}

def empty : Dictionary α := ⟨[], List.Pairwise.nil⟩

instance : Inhabited (Dictionary α) := ⟨empty⟩

def find? (d : Dictionary α) (key : String) : Option α := d.entries.lookup key

def contains (d : Dictionary α) (key : String) : Bool := (d.find? key).isSome

/-- Replaces the value of `key` by `f` of the old value. -/
def alter (d : Dictionary α) (key : String) (f : Option α → α) : Dictionary α :=
  ⟨alterEntry key f d.entries, sorted_alterEntry key f d.sorted⟩

def insert (d : Dictionary α) (key : String) (value : α) : Dictionary α :=
  d.alter key fun _ => value

/-- Collects entries; of a repeated key the last value stays. -/
def ofList (entries : List (String × α)) : Dictionary α :=
  entries.foldl (fun d e => d.insert e.1 e.2) empty

/-- The entries in increasing key order. -/
def toList (d : Dictionary α) : List (String × α) := d.entries

/-- The keys in increasing order. -/
def keys (d : Dictionary α) : List String := d.entries.map (·.1)

def size (d : Dictionary α) : Nat := d.entries.length

/-- Applies `f` to every entry, keeping the keys. -/
def mapWithKey (f : String → α → β) (d : Dictionary α) : Dictionary β :=
  ⟨d.entries.map fun e => (e.1, f e.1 e.2), List.Pairwise.map _ (fun _ _ h => h) d.sorted⟩

/-! ## lookups -/

@[simp] theorem find?_empty (key : String) : (empty : Dictionary α).find? key = none := rfl

/-- Altering a key changes what is found under it, and nowhere else. -/
theorem find?_alter (d : Dictionary α) (key k : String) (f : Option α → α) :
    (d.alter key f).find? k = if k = key then some (f (d.find? key)) else d.find? k :=
  lookup_alterEntry key k f d.sorted

theorem find?_insert (d : Dictionary α) (key k : String) (value : α) :
    (d.insert key value).find? k = if k = key then some value else d.find? k :=
  find?_alter d key k _

/-- Values are mapped where they stand. -/
theorem find?_mapWithKey (f : String → α → β) (d : Dictionary α) (key : String) :
    (d.mapWithKey f).find? key = (d.find? key).map (f key) := by
  obtain ⟨entries, _⟩ := d
  simp only [mapWithKey, find?]
  induction entries with
  | nil => rfl
  | cons head rest ih =>
    rename_i h
    simp only [List.map_cons, lookup_cons_eq, ih (List.pairwise_cons.mp h).2]
    by_cases hkey : key = head.1 <;> simp [hkey]

theorem mem_of_find? {d : Dictionary α} {key : String} {value : α} (h : d.find? key = some value) :
    (key, value) ∈ d.toList :=
  mem_of_lookup h

/-! ## extensionality -/

/-- Sorted entry lists with the same lookups are the same list. -/
theorem entries_ext {a b : List (String × α)} (ha : SortedEntries a) (hb : SortedEntries b)
    (h : ∀ key, a.lookup key = b.lookup key) : a = b := by
  induction a generalizing b with
  | nil =>
    cases b with
    | nil => rfl
    | cons e rest => have := h e.1; simp [lookup_cons_eq] at this
  | cons e rest ih =>
    cases b with
    | nil => have := h e.1; simp [lookup_cons_eq] at this
    | cons e' rest' =>
      have ha' := List.pairwise_cons.mp ha
      have hb' := List.pairwise_cons.mp hb
      have hkey : e.1 = e'.1 := by
        by_cases hlt : e.1 < e'.1
        · have hnone : (e' :: rest').lookup e.1 = none :=
            lookup_eq_none_of_lt fun x hx => by
              rcases List.mem_cons.mp hx with rfl | hx
              · exact hlt
              · exact String.lt_trans hlt (hb'.1 x hx)
          have := h e.1
          rw [hnone] at this
          simp [lookup_cons_eq] at this
        · by_cases heq : e.1 = e'.1
          · exact heq
          · have hgt := lt_of_not_lt_of_ne hlt heq
            have hnone : (e :: rest).lookup e'.1 = none :=
              lookup_eq_none_of_lt fun x hx => by
                rcases List.mem_cons.mp hx with rfl | hx
                · exact hgt
                · exact String.lt_trans hgt (ha'.1 x hx)
            have := h e'.1
            rw [hnone] at this
            simp [lookup_cons_eq] at this
      have hval : e.2 = e'.2 := by
        have := h e.1
        simpa [lookup_cons_eq, hkey] using this
      have hhead : e = e' := Prod.ext hkey hval
      subst hhead
      refine congrArg (e :: ·) (ih ha'.2 hb'.2 fun key => ?_)
      by_cases hk : key = e.1
      · subst hk
        rw [lookup_eq_none_of_lt ha'.1, lookup_eq_none_of_lt hb'.1]
      · have := h key
        simpa [lookup_cons_eq, hk] using this

/-- Dictionaries with the same lookups are the same. -/
theorem ext_find? {a b : Dictionary α} (h : ∀ key, a.find? key = b.find? key) : a = b := by
  obtain ⟨as, ha⟩ := a
  obtain ⟨bs, hb⟩ := b
  have : as = bs := entries_ext ha hb h
  subst this
  rfl

end Dictionary

end FormCompiler

import FormCompiler.Localized
import Mathlib.Data.List.Basic
import Mathlib.Data.List.Induction

/-!
# FormCompiler.Proofs.DeclaredLanguages

Values per language after any number of declarations.  A declaration leaves
the languages as they are or puts a new one behind them
(`Localized.languages_insert`).  So no language stands twice, the languages
stand in the order in which they were first declared, and each has the value
that was declared for it last (`Localized.declarations_in_order`).
-/

namespace FormCompiler

namespace Localized

universe u

variable {α : Type u} {values : Localized α} {calls : List (String × α)} {lang : String}

/-! ## one declaration -/

/-- A declaration adds its own language and no other. -/
theorem mem_languages_insert {value : α} {l : String} :
    l ∈ (values.insert lang value).languages ↔ l ∈ values.languages ∨ l = lang := by
  rw [languages_insert]
  split
  · next hknown => exact ⟨.inl, fun h => h.elim id fun heq => heq ▸ hknown⟩
  · rw [List.mem_append, List.mem_singleton]

/-- The first language does not change any more. -/
theorem head?_languages_insert (values : Localized α) (lang : String) (value : α) :
    (values.insert lang value).languages.head? = values.languages.head?.or (some lang) := by
  rw [languages_insert]
  split
  · next hknown =>
      obtain ⟨first, rest, hlanguages⟩ := List.exists_cons_of_ne_nil (List.ne_nil_of_mem hknown)
      rw [hlanguages]
      rfl
  · rw [List.head?_append, List.head?_singleton]

/-! ## any number of declarations -/

/-- The last of several declarations is made upon the others. -/
theorem ofList_concat (calls : List (String × α)) (call : String × α) :
    ofList (calls ++ [call]) = (ofList calls).insert call.1 call.2 := by
  rw [ofList, List.foldl_concat]
  rfl

/-- The last declaration of a language counts. -/
theorem get?_ofList (calls : List (String × α)) (lang : String) :
    (ofList calls).get? lang = calls.reverse.lookup lang := by
  induction calls using List.reverseRecOn with
  | nil => rfl
  | append_singleton calls call ih =>
      rw [ofList_concat, get?_insert, ih, List.reverse_concat, lookup_cons_eq]

theorem mem_languages_ofList : lang ∈ (ofList calls).languages ↔ lang ∈ calls.map (·.1) := by
  induction calls using List.reverseRecOn with
  | nil => rfl
  | append_singleton calls call ih =>
      rw [ofList_concat, mem_languages_insert, ih, List.map_append, List.mem_append,
        List.map_singleton, List.mem_singleton]

theorem head?_languages_ofList (calls : List (String × α)) :
    (ofList calls).languages.head? = calls.head?.map (·.1) := by
  induction calls using List.reverseRecOn with
  | nil => rfl
  | append_singleton calls call ih =>
      rw [ofList_concat, head?_languages_insert, ih, List.head?_append]
      cases calls.head? <;> rfl

/-- The languages stand in the order of the calls in which they come up
first. -/
theorem pairwise_languages_ofList (calls : List (String × α)) :
    (ofList calls).languages.Pairwise fun first second =>
      (calls.map (·.1)).idxOf first < (calls.map (·.1)).idxOf second := by
  induction calls using List.reverseRecOn with
  | nil => exact .nil
  | append_singleton calls call ih =>
      -- One more call does not move the first calls of the languages before it.
      have hplace : ∀ l ∈ (ofList calls).languages,
          ((calls ++ [call]).map (·.1)).idxOf l = (calls.map (·.1)).idxOf l := fun l hl => by
        rw [List.map_append, List.idxOf_append_of_mem (mem_languages_ofList.mp hl)]
      have hkept := ih.imp_of_mem fun {first second} hfirst hsecond hlt => by
        rwa [← hplace first hfirst, ← hplace second hsecond] at hlt
      rw [ofList_concat, languages_insert]
      split
      · exact hkept
      · next hnew =>
          have hlast : ((calls ++ [call]).map (·.1)).idxOf call.1 = calls.length := by
            rw [mem_languages_ofList] at hnew
            rw [List.map_append, List.idxOf_append_of_notMem hnew]
            simp
          refine List.pairwise_append.mpr
            ⟨hkept, List.pairwise_singleton _ _, fun l hl other hother => ?_⟩
          rw [List.mem_singleton.mp hother, hlast, hplace l hl]
          have hbound := List.idxOf_lt_length_iff.mpr (mem_languages_ofList.mp hl)
          rwa [List.length_map] at hbound

theorem nodup_languages_ofList (calls : List (String × α)) : (ofList calls).languages.Nodup :=
  (pairwise_languages_ofList calls).imp fun hlt heq => by
    rw [heq] at hlt
    exact Nat.lt_irrefl _ hlt

/-- After any declarations no language stands twice, and the declared ones
stand in the order in which they were first declared.  Each has the value
that was declared for it last, and the first value is the present one of the
language declared first. -/
theorem declarations_in_order (calls : List (String × α)) :
    (ofList calls).languages.Nodup ∧
    (∀ lang, lang ∈ (ofList calls).languages ↔ lang ∈ calls.map (·.1)) ∧
    ((ofList calls).languages.Pairwise fun first second =>
      (calls.map (·.1)).idxOf first < (calls.map (·.1)).idxOf second) ∧
    (∀ lang, (ofList calls).get? lang = calls.reverse.lookup lang) ∧
    (ofList calls).first? = calls.head?.bind fun call => (ofList calls).get? call.1 := by
  refine ⟨nodup_languages_ofList calls, fun _ => mem_languages_ofList,
    pairwise_languages_ofList calls, get?_ofList calls, ?_⟩
  rw [first?_eq, head?_languages_ofList, Option.bind_map]
  rfl

/-- The language declared first keeps its place under a new value. -/
example : (ofList [("eng", 1), ("deu", 2), ("eng", 3)]).entries = [("eng", 3), ("deu", 2)] ∧
    (ofList [("eng", 1), ("deu", 2), ("eng", 3)]).first? = some 3 := by decide

end Localized

end FormCompiler

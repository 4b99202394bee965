import FormCompiler.Text.Blank
import Mathlib.Data.List.TakeWhile

/-!
# FormCompiler.Proofs.Words

Texts taken apart, at marks or into words.

* `Text.splitWhere_append_cons` and `Text.words_append_cons`: a text is taken
  apart on both sides of a mark, or of a blank.
* `Text.pads_trim` and `Text.Pads.trim_eq`: trimming takes off the blanks
  around a text, and nothing else.
* `Text.words_trim` and `Text.words_map_toLower`: blanks around a text do not
  change its words, and its words change their case with it.
* `Text.IsWord.words_eq`: a text without blanks is its only word.
-/

namespace FormCompiler.Text

/-! ## cutting -/

section

variable {p : Char → Bool} {cs : List Char}

/-- A text without marks stays whole. -/
theorem splitWhere_of_forall (h : ∀ c ∈ cs, p c = false) : splitWhere p cs = [cs] := by
  induction cs with
  | nil => rfl
  | cons c cs ih =>
      have hc := h c List.mem_cons_self
      have hcs := ih fun d hd => h d (List.mem_cons_of_mem c hd)
      simp [splitWhere, hc, hcs]

/-- A text is cut at a mark in it, and on both sides of it. -/
theorem splitWhere_append_cons {mark : Char} (hmark : p mark = true)
    (first second : List Char) :
    splitWhere p (first ++ mark :: second) = splitWhere p first ++ splitWhere p second := by
  induction first with
  | nil => simp [splitWhere, hmark]
  | cons c first ih =>
      by_cases hc : p c = true
      · simp [splitWhere, hc, ih]
      · obtain ⟨piece, pieces, hfirst⟩ :=
          List.exists_cons_of_ne_nil (splitWhere_ne_nil p first)
        simp [splitWhere, hc, ih, hfirst]

theorem splitWhere_of_notMem {sep : Char} (h : sep ∉ cs) : splitWhere (· = sep) cs = [cs] :=
  splitWhere_of_forall fun _ hc => decide_eq_false fun heq => h (heq ▸ hc)

/-- A text is cut on both sides of a mark. -/
theorem splitWhere_append_separator {sep : Char} (first second : List Char) :
    splitWhere (· = sep) (first ++ sep :: second) =
      splitWhere (· = sep) first ++ splitWhere (· = sep) second :=
  splitWhere_append_cons (decide_eq_true rfl) first second

/-- Characters without a mark go in front of the first piece. -/
theorem splitWhere_append_of_forall {front : List Char} (h : ∀ c ∈ front, p c = false)
    (cs : List Char) :
    ∃ piece pieces, splitWhere p cs = piece :: pieces ∧
      splitWhere p (front ++ cs) = (front ++ piece) :: pieces := by
  induction front with
  | nil =>
      obtain ⟨piece, pieces, hcs⟩ := List.exists_cons_of_ne_nil (splitWhere_ne_nil p cs)
      exact ⟨piece, pieces, hcs, hcs⟩
  | cons c front ih =>
      have hc := h c List.mem_cons_self
      obtain ⟨piece, pieces, hcs, hfront⟩ := ih fun d hd => h d (List.mem_cons_of_mem c hd)
      exact ⟨piece, pieces, hcs, by simp [splitWhere, hc, hfront]⟩

/-- What keeps marks apart from other characters commutes with cutting. -/
theorem splitWhere_map {f : Char → Char} (hf : ∀ c, p (f c) = p c) (cs : List Char) :
    splitWhere p (cs.map f) = (splitWhere p cs).map (List.map f) := by
  induction cs with
  | nil => rfl
  | cons c cs ih =>
      obtain ⟨piece, pieces, hcs⟩ := List.exists_cons_of_ne_nil (splitWhere_ne_nil p cs)
      by_cases hc : p c = true
      · simp [splitWhere, hf, hc, ih]
      · simp [splitWhere, hf, hc, ih, hcs]

end

/-! ## blanks -/

/-- The visible ASCII characters are no blanks. -/
theorem isBlank_of_visible {c : Char} (h : 33 ≤ c.toNat ∧ c.toNat ≤ 126) :
    isBlank c = false := by
  simp only [isBlank, Char.le_def, Char.reduceVal, UInt32.le_iff_toNat_le, UInt32.reduceToNat,
    Char.toNat_val, ← Char.toNat_inj, Char.reduceToNat, Bool.or_eq_false_iff,
    Bool.and_eq_false_imp, decide_eq_true_eq, decide_eq_false_iff_not]
  omega

/-- Lower case makes no blanks, and takes none away. -/
theorem isBlank_toLower (c : Char) : isBlank c.toLower = isBlank c := by
  unfold Char.toLower
  split
  · next hupper =>
      have hlow : 65 ≤ c.toNat := UInt32.le_iff_toNat_le.mp hupper.1
      have hhigh : c.toNat ≤ 90 := UInt32.le_iff_toNat_le.mp hupper.2
      have hlower : (c.val + ('a'.val - 'A'.val)).toNat = (c.toNat + 32) % 2 ^ 32 :=
        UInt32.toNat_add c.val ('a'.val - 'A'.val)
      rw [isBlank_of_visible (c := c) (by omega)]
      refine isBlank_of_visible ?_
      rw [Char.toNat, hlower]
      omega
  · rfl

/-- A visible ASCII character that is no capital letter. -/
def IsPlain (c : Char) : Prop :=
  33 ≤ c.toNat ∧ c.toNat ≤ 64 ∨ 91 ≤ c.toNat ∧ c.toNat ≤ 126
deriving Decidable

theorem isPlain_of_all {cs : List Char} (h : cs.all (IsPlain ·)) : ∀ c ∈ cs, IsPlain c :=
  fun c hc => of_decide_eq_true (List.all_eq_true.mp h c hc)

theorem isPlain_of_isDigit {c : Char} (h : c.isDigit) : IsPlain c := by
  obtain ⟨hlow, hhigh⟩ := Char.isDigit_iff_toNat.mp h
  exact .inl ⟨Nat.le_trans (by decide) hlow, Nat.le_trans hhigh (by decide)⟩

theorem IsPlain.isBlank {c : Char} (h : IsPlain c) : isBlank c = false :=
  isBlank_of_visible (by unfold IsPlain at h; omega)

theorem IsPlain.toLower {c : Char} (h : IsPlain c) : c.toLower = c := by
  have hcapital : ¬(c.val ≥ 'A'.val ∧ c.val ≤ 'Z'.val) := by
    rintro ⟨hlow, hhigh⟩
    have hlow : 65 ≤ c.toNat := UInt32.le_iff_toNat_le.mp hlow
    have hhigh : c.toNat ≤ 90 := UInt32.le_iff_toNat_le.mp hhigh
    unfold IsPlain at h
    omega
  exact dif_neg hcapital

theorem map_toLower_of_isPlain {cs : List Char} (h : ∀ c ∈ cs, IsPlain c) :
    cs.map Char.toLower = cs :=
  (List.map_congr_left fun c hc => (h c hc).toLower).trans (List.map_id cs)

/-- The text is `core` with any blanks around it. -/
def Pads (core text : List Char) : Prop :=
  ∃ lead trail, (∀ c ∈ lead, isBlank c = true) ∧ (∀ c ∈ trail, isBlank c = true) ∧
    text = lead ++ core ++ trail

theorem pads_of_all (core : List Char) {lead trail : List Char} (hlead : lead.all isBlank)
    (htrail : trail.all isBlank) : Pads core (lead ++ core ++ trail) :=
  ⟨lead, trail, List.all_eq_true.mp hlead, List.all_eq_true.mp htrail, rfl⟩

/-- What is cut off at the two ends of a text are blanks. -/
theorem pads_trim (cs : List Char) : Pads (trim cs) cs := by
  have hlead := (List.takeWhile_append_dropWhile (p := isBlank) (l := cs)).symm
  have htrail := congrArg List.reverse (List.takeWhile_append_dropWhile (p := isBlank)
    (l := (cs.dropWhile isBlank).reverse)).symm
  rw [List.reverse_append, List.reverse_reverse] at htrail
  refine ⟨cs.takeWhile isBlank, ((cs.dropWhile isBlank).reverse.takeWhile isBlank).reverse,
    fun c => List.mem_takeWhile_imp, fun c hc => List.mem_takeWhile_imp (List.mem_reverse.mp hc),
    ?_⟩
  rw [List.append_assoc, trim, ← htrail, ← hlead]

theorem dropWhile_isBlank_of_noBlank {cs : List Char} (h : ∀ c ∈ cs, isBlank c = false) :
    cs.dropWhile isBlank = cs := by
  cases cs with
  | nil => rfl
  | cons c cs => exact List.dropWhile_cons_of_neg (by simp [h c List.mem_cons_self])

theorem trim_of_noBlank {cs : List Char} (h : ∀ c ∈ cs, isBlank c = false) : trim cs = cs := by
  have hreverse : ∀ c ∈ cs.reverse, isBlank c = false := fun c hc => h c (List.mem_reverse.mp hc)
  rw [trim, dropWhile_isBlank_of_noBlank h, dropWhile_isBlank_of_noBlank hreverse,
    List.reverse_reverse]

theorem trim_blanks_append {cs lead : List Char} (h : ∀ c ∈ lead, isBlank c = true) :
    trim (lead ++ cs) = trim cs := by
  rw [trim, List.dropWhile_append_of_pos h, trim]

theorem trim_append_blanks {cs trail : List Char} (h : ∀ c ∈ trail, isBlank c = true) :
    trim (cs ++ trail) = trim cs := by
  have hreverse : ∀ c ∈ trail.reverse, isBlank c = true :=
    fun c hc => h c (List.mem_reverse.mp hc)
  rw [trim, List.dropWhile_append, trim]
  split
  · next hblank =>
      rw [List.isEmpty_iff.mp hblank, List.dropWhile_eq_nil_iff.mpr h]
  · rw [List.reverse_append, List.dropWhile_append_of_pos hreverse]

/-- What is left of a padded text is the text without blanks in it. -/
theorem Pads.trim_eq {core text : List Char} (h : Pads core text)
    (hcore : ∀ c ∈ core, isBlank c = false) : trim text = core := by
  obtain ⟨lead, trail, hlead, htrail, rfl⟩ := h
  rw [trim_append_blanks htrail, trim_blanks_append hlead, trim_of_noBlank hcore]

/-! ## words -/

section

variable {cs : List Char}

/-- A text has the words on both sides of a blank. -/
theorem words_append_cons {b : Char} (hb : isBlank b = true) (first second : List Char) :
    words (first ++ b :: second) = words first ++ words second := by
  rw [words, splitWhere_append_cons hb, List.filter_append, words, words]

theorem words_of_blanks (h : ∀ c ∈ cs, isBlank c = true) : words cs = [] := by
  induction cs with
  | nil => rfl
  | cons b cs ih =>
      have hcs := ih fun c hc => h c (List.mem_cons_of_mem b hc)
      have hb := words_append_cons (h b List.mem_cons_self) [] cs
      rw [List.nil_append] at hb
      rw [hb, hcs]
      rfl

theorem words_append_blanks {trail : List Char} (h : ∀ c ∈ trail, isBlank c = true) :
    words (cs ++ trail) = words cs := by
  cases trail with
  | nil => rw [List.append_nil]
  | cons b trail =>
      have htrail := words_of_blanks fun c hc => h c (List.mem_cons_of_mem b hc)
      rw [words_append_cons (h b List.mem_cons_self), htrail, List.append_nil]

theorem words_blanks_append {lead : List Char} (h : ∀ c ∈ lead, isBlank c = true) :
    words (lead ++ cs) = words cs := by
  induction lead with
  | nil => rfl
  | cons b lead ih =>
      have hlead := ih fun c hc => h c (List.mem_cons_of_mem b hc)
      have hb := words_append_cons (h b List.mem_cons_self) [] (lead ++ cs)
      rw [List.nil_append] at hb
      rw [List.cons_append, hb, hlead]
      rfl

theorem words_trim (cs : List Char) : words (trim cs) = words cs := by
  obtain ⟨lead, trail, hlead, htrail, hcs⟩ := pads_trim cs
  have hwords : words (lead ++ trim cs ++ trail) = words (trim cs) := by
    rw [words_append_blanks htrail, words_blanks_append hlead]
  rw [← hwords, ← hcs]

/-- The words of a text change their case with it. -/
theorem words_map_toLower (cs : List Char) :
    words (cs.map Char.toLower) = (words cs).map (List.map Char.toLower) := by
  rw [words, splitWhere_map isBlank_toLower, List.filter_map, words]
  congr 2
  funext piece
  simp

/-- Characters without a blank begin the first word. -/
theorem words_append_of_noBlank {front : List Char} (hne : front ≠ [])
    (h : ∀ c ∈ front, isBlank c = false) (cs : List Char) :
    ∃ rest others, words (front ++ cs) = (front ++ rest) :: others := by
  obtain ⟨rest, pieces, -, hpieces⟩ := splitWhere_append_of_forall h cs
  refine ⟨rest, pieces.filter fun piece => !piece.isEmpty, ?_⟩
  rw [words, hpieces, List.filter_cons_of_pos]
  simp [hne]

/-- Not empty, and without a blank. -/
structure IsWord (word : List Char) : Prop where
  ne_nil : word ≠ []
  noBlank : ∀ c ∈ word, isBlank c = false

instance (word : List Char) : Decidable (IsWord word) :=
  decidable_of_iff (word ≠ [] ∧ word.all fun c => !isBlank c)
    ⟨fun h => ⟨h.1, by simpa using h.2⟩, fun h => ⟨h.ne_nil, by simpa using h.noBlank⟩⟩

/-- A word is its only word. -/
theorem IsWord.words_eq {word : List Char} (h : IsWord word) : words word = [word] := by
  rw [words, splitWhere_of_forall h.noBlank, List.filter_cons_of_pos (by simpa using h.ne_nil)]
  rfl

end

end FormCompiler.Text

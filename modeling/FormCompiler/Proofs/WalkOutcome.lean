import FormCompiler.Walk

/-!
# FormCompiler.Proofs.WalkOutcome

How a walk ends, read off its parts.

* A walk that ends with a value is taken apart by equations
  (`Walk.bind_eq_ok`, `Walk.mapM_eq_ok`): both parts ended with a value, and
  the journal is theirs, one after the other.
* `Walk.Ensures` says what holds of the value and of the error of a walk,
  with one rule for each way of composing walks.
-/

namespace FormCompiler

theorem except_bind_eq_ok {ε α β : Type} {result : Except ε α} {next : α → Except ε β} {b : β} :
    (result >>= next) = .ok b ↔ ∃ a, result = .ok a ∧ next a = .ok b := by
  cases result <;> simp [bind, Except.bind]

/-- Two steps fail if the first fails, or the second after it. -/
theorem except_bind_eq_error {ε α β : Type} {result : Except ε α} {next : α → Except ε β}
    {error : ε} :
    (result >>= next) = .error error ↔
      result = .error error ∨ ∃ a, result = .ok a ∧ next a = .error error := by
  cases result <;> simp [bind, Except.bind]

theorem ok_of_toOption {ε α : Type} {result : Except ε α} {a : α}
    (h : result.toOption = some a) : result = .ok a := by
  cases result <;> simp_all [Except.toOption]

namespace Walk

variable {α β : Type}

/-! ## walks that end with a value -/

theorem eq_of_outcome {walk : Walk α} {value : α} (h : walk.outcome = .ok value) :
    walk = ⟨.ok value, walk.journal⟩ := by
  rw [← h]

/-- A walk of two parts ends with a value if both do, and its journal is theirs
in order. -/
theorem bind_eq_ok {walk : Walk α} {next : α → Walk β} {value : β} {journal : Journal} :
    walk >>= next = ⟨.ok value, journal⟩ ↔
      ∃ a first second, walk = ⟨.ok a, first⟩ ∧ next a = ⟨.ok value, second⟩ ∧
        journal = first ++ second := by
  obtain ⟨outcome, first⟩ := walk
  cases outcome with
  | error error => simp [bind_error]
  | ok a =>
      rw [bind_ok, mk.injEq]
      constructor
      · rintro ⟨hvalue, rfl⟩
        exact ⟨a, first, _, rfl, by rw [← hvalue], rfl⟩
      · rintro ⟨a', first', second, hwalk, hnext, rfl⟩
        obtain ⟨ha, rfl⟩ := mk.inj hwalk
        obtain rfl := Except.ok.inj ha
        rw [hnext]
        exact ⟨rfl, rfl⟩

@[simp] theorem done_eq_ok {a value : α} {journal : Journal} :
    (done a : Walk α) = ⟨.ok value, journal⟩ ↔ a = value ∧ journal = [] := by
  simp [done, eq_comm]

@[simp] theorem fail_eq_ok {error : CompileError} {value : α} {journal : Journal} :
    (fail error : Walk α) = ⟨.ok value, journal⟩ ↔ False := by
  simp [fail]

@[simp] theorem ofExcept_eq_ok {result : Except CompileError α} {value : α} {journal : Journal} :
    (ofExcept result : Walk α) = ⟨.ok value, journal⟩ ↔ result = .ok value ∧ journal = [] := by
  simp [ofExcept, eq_comm]

@[simp] theorem write_eq_ok {entry : JournalEntry} {value : Unit} {journal : Journal} :
    write entry = ⟨.ok value, journal⟩ ↔ journal = [entry] := by
  simp [write, eq_comm]

@[simp] theorem notify_eq_ok {notices : List Notice} {value : Unit} {journal : Journal} :
    notify notices = ⟨.ok value, journal⟩ ↔ journal = notices.map .notice := by
  simp [notify, eq_comm]

/-- A walk over a list ends with a value if the walk over each item does.
Where `certify` describes the walk over an item by some record, the list of
these records describes the whole walk. -/
theorem mapM_eq_ok {ρ : Type} {f : α → Walk β} {item : ρ → α} {result : ρ → β}
    {written : ρ → Journal} {P : ρ → Prop}
    (certify : ∀ x y journal, f x = ⟨.ok y, journal⟩ →
      ∃ r, item r = x ∧ result r = y ∧ written r = journal ∧ P r)
    {xs : List α} {ys : List β} {journal : Journal} (h : xs.mapM f = ⟨.ok ys, journal⟩) :
    ∃ rs : List ρ, rs.map item = xs ∧ rs.map result = ys ∧ rs.flatMap written = journal ∧
      ∀ r ∈ rs, P r := by
  induction xs generalizing ys journal with
  | nil =>
      rw [List.mapM_nil, pure_eq, mk.injEq, Except.ok.injEq] at h
      obtain ⟨rfl, rfl⟩ := h
      exact ⟨[], rfl, rfl, rfl, by simp⟩
  | cons x xs ih =>
      rw [List.mapM_cons, bind_eq_ok] at h
      obtain ⟨y, first, second, hx, hrest, rfl⟩ := h
      rw [bind_eq_ok] at hrest
      obtain ⟨ys', middle, last, hxs, hlast, rfl⟩ := hrest
      rw [pure_eq, mk.injEq, Except.ok.injEq] at hlast
      obtain ⟨rfl, rfl⟩ := hlast
      obtain ⟨r, rfl, rfl, rfl, hr⟩ := certify x y first hx
      obtain ⟨rs, rfl, rfl, rfl, hrs⟩ := ih hxs
      exact ⟨r :: rs, rfl, rfl, by simp, List.forall_mem_cons.mpr ⟨hr, hrs⟩⟩

/-! ## what a walk ensures -/

/-- The walk ends with a value of which `value` holds or with an error of
which `error` holds. -/
def Ensures (walk : Walk α) (value : α → Prop) (error : CompileError → Prop) : Prop :=
  match walk.outcome with
  | .ok a => value a
  | .error e => error e

variable {value : α → Prop} {error : CompileError → Prop}

theorem ensures_done {a : α} (h : value a) : (done a).Ensures value error := h

theorem ensures_pure {a : α} (h : value a) : (pure a : Walk α).Ensures value error := h

theorem ensures_fail {e : CompileError} (h : error e) : (fail e).Ensures value error := h

theorem ensures_write {entry : JournalEntry} : (write entry).Ensures (fun _ => True) error :=
  trivial

theorem ensures_notify {notices : List Notice} :
    (notify notices).Ensures (fun _ => True) error := trivial

/-- A result ensures what holds of its value or of its error. -/
theorem ensures_ofExcept {result : Except CompileError α} (hok : ∀ a, result = .ok a → value a)
    (herror : ∀ e, result = .error e → error e) : (ofExcept result).Ensures value error := by
  unfold Ensures ofExcept
  cases result with
  | ok a => exact hok a rfl
  | error e => exact herror e rfl

/-- A walk ensures what its second part ensures, if the first ensures what that
needs. -/
theorem Ensures.bind {walk : Walk α} {next : α → Walk β} {after : β → Prop}
    (hwalk : walk.Ensures value error) (hnext : ∀ a, value a → (next a).Ensures after error) :
    (walk >>= next).Ensures after error := by
  obtain ⟨outcome, journal⟩ := walk
  cases outcome with
  | ok a => exact hnext a hwalk
  | error e => exact hwalk

/-- A walk over a list ensures of all results what it ensures of each. -/
theorem ensures_mapM {f : α → Walk β} {after : β → Prop} {xs : List α}
    (h : ∀ x ∈ xs, (f x).Ensures after error) :
    (xs.mapM f).Ensures (fun ys => ∀ y ∈ ys, after y) error := by
  induction xs with
  | nil => exact ensures_pure (by simp)
  | cons x xs ih =>
      rw [List.mapM_cons]
      refine (h x List.mem_cons_self).bind fun y hy => ?_
      refine (ih fun x' hx' => h x' (List.mem_cons_of_mem x hx')).bind fun ys hys => ?_
      exact ensures_pure (List.forall_mem_cons.mpr ⟨hy, hys⟩)

/-- What a walk ensures holds of the error it ends with. -/
theorem Ensures.of_error {walk : Walk α} (h : walk.Ensures value error) {e : CompileError}
    (he : walk.outcome = .error e) : error e := by
  unfold Ensures at h
  rw [he] at h
  exact h

end Walk

end FormCompiler

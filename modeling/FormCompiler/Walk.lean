import FormCompiler.CompileError
import FormCompiler.Journal

/-!
# FormCompiler.Walk

Walks over a presentation.  A walk ends with a value or with the first
error, and it keeps a journal of what it wrote down on the way, also when
it fails.  The journal does not depend on what was written before, so
walks compose by appending their journals, and they form a lawful monad.
-/

namespace FormCompiler

/-- How a walk ended and what it wrote down. -/
structure Walk (α : Type) where
  outcome : Except CompileError α
  journal : Journal

namespace Walk

variable {α β : Type}

/-- Ends with a value and writes nothing. -/
def done (value : α) : Walk α := ⟨.ok value, []⟩

def fail (error : CompileError) : Walk α := ⟨.error error, []⟩

/-- Goes on with the value of a walk, unless it failed. -/
def andThen (walk : Walk α) (next : α → Walk β) : Walk β :=
  match walk.outcome with
  | .ok value => ⟨(next value).outcome, walk.journal ++ (next value).journal⟩
  | .error error => ⟨.error error, walk.journal⟩

instance : Monad Walk where
  pure := done
  bind := andThen

def ofExcept (result : Except CompileError α) : Walk α := ⟨result, []⟩

def write (entry : JournalEntry) : Walk Unit := ⟨.ok (), [entry]⟩

/-- Writes notices, in order. -/
def notify (notices : List Notice) : Walk Unit := ⟨.ok (), notices.map .notice⟩

/-- How a walk over given tables ended, and the tables after it. -/
def runOn (walk : Walk α) (tables : SideTables) : Except CompileError α × SideTables :=
  (walk.outcome, tables.replay walk.journal)

/-! ## laws -/

@[simp] theorem pure_eq (value : α) : (pure value : Walk α) = ⟨.ok value, []⟩ := rfl

/-- A walk goes on from a value, and its journals are joined. -/
theorem bind_ok (value : α) (journal : Journal) (next : α → Walk β) :
    (Walk.mk (.ok value) journal >>= next) =
      ⟨(next value).outcome, journal ++ (next value).journal⟩ := rfl

theorem bind_error (error : CompileError) (journal : Journal) (next : α → Walk β) :
    (Walk.mk (.error error) journal >>= next) = ⟨.error error, journal⟩ := rfl

/-- Outcomes do not depend on journals. -/
theorem outcome_bind (walk : Walk α) (next : α → Walk β) :
    (walk >>= next).outcome = walk.outcome.bind fun value => (next value).outcome := by
  obtain ⟨outcome, journal⟩ := walk
  cases outcome <;> rfl

theorem id_map (walk : Walk α) : id <$> walk = walk := by
  obtain ⟨outcome, journal⟩ := walk
  cases outcome
  · rfl
  · exact congrArg (Walk.mk _) (List.append_nil journal)

/-- Walks may be grouped in any way. -/
theorem bind_assoc {γ : Type} (walk : Walk α) (next : α → Walk β) (last : β → Walk γ) :
    walk >>= next >>= last = walk >>= fun value => next value >>= last := by
  obtain ⟨outcome, journal⟩ := walk
  cases outcome with
  | error error => rfl
  | ok value =>
    simp only [bind_ok]
    cases next value with
    | mk outcome' journal' =>
      cases outcome' with
      | error error => rfl
      | ok value' => simp [bind_ok, List.append_assoc]

instance : LawfulMonad Walk := LawfulMonad.mk' Walk id_map (fun _ _ => rfl) bind_assoc

end Walk

end FormCompiler

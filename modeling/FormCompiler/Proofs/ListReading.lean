import FormCompiler.Proofs.WalkOutcome
import Mathlib.Data.List.Forall2

/-!
# FormCompiler.Proofs.ListReading

Lists that are read item by item, up to the first item that cannot be read.

* `mapM_eq_ok_iff`: what is read of a list is what is read of its items.
* `exists_mapM_iff`: a list is read if each of its items is.
* `mapM_eq_error_iff`: otherwise the error is that of the first item that is
  not read.
-/

namespace FormCompiler

variable {α β ε : Type} {f : α → Except ε β} {xs : List α} {ys : List β}

/-! ## lists that are read -/

/-- What is read of a list is what is read of its items, one by one. -/
theorem mapM_eq_ok_iff : xs.mapM f = .ok ys ↔ List.Forall₂ (fun x y => f x = .ok y) xs ys := by
  induction xs generalizing ys with
  | nil =>
      rw [List.forall₂_nil_left_iff]
      exact ⟨fun h => (Except.ok.inj h).symm, fun h => h ▸ rfl⟩
  | cons x xs ih =>
      rw [List.mapM_cons, except_bind_eq_ok, List.forall₂_cons_left_iff]
      refine exists_congr fun y => ?_
      rw [except_bind_eq_ok]
      constructor
      · rintro ⟨hx, ys', hxs, hys⟩
        exact ⟨ys', hx, ih.mp hxs, (Except.ok.inj hys).symm⟩
      · rintro ⟨ys', hx, hxs, rfl⟩
        exact ⟨hx, ys', ih.mpr hxs, rfl⟩

/-- A list is read if each of its items is. -/
theorem exists_mapM_iff : (∃ ys, xs.mapM f = .ok ys) ↔ ∀ x ∈ xs, ∃ y, f x = .ok y := by
  induction xs with
  | nil => exact ⟨by simp, fun _ => ⟨[], rfl⟩⟩
  | cons x xs ih =>
      rw [List.forall_mem_cons, ← ih]
      constructor
      · rintro ⟨ys, h⟩
        rw [List.mapM_cons] at h
        obtain ⟨y, hy, h⟩ := except_bind_eq_ok.mp h
        obtain ⟨ys', hys, -⟩ := except_bind_eq_ok.mp h
        exact ⟨⟨y, hy⟩, ys', hys⟩
      · rintro ⟨⟨y, hy⟩, ys, hys⟩
        refine ⟨y :: ys, ?_⟩
        rw [List.mapM_cons, hy, hys]
        rfl

/-- What is read of each item holds of all that is read. -/
theorem forall_of_mapM {Q : β → Prop} (h : ∀ x ∈ xs, ∀ y, f x = .ok y → Q y)
    (hread : xs.mapM f = .ok ys) : ∀ y ∈ ys, Q y := by
  rw [mapM_eq_ok_iff] at hread
  induction hread with
  | nil => simp
  | cons hy _ ih =>
      obtain ⟨hx, hrest⟩ := List.forall_mem_cons.mp h
      exact List.forall_mem_cons.mpr ⟨hx _ hy, ih hrest⟩

/-- What holds of the result of each item holds of all results. -/
theorem exists_mapM {Q : β → Prop} (h : ∀ x ∈ xs, ∃ y, f x = .ok y ∧ Q y) :
    ∃ ys, xs.mapM f = .ok ys ∧ ∀ y ∈ ys, Q y := by
  obtain ⟨ys, hys⟩ := exists_mapM_iff.mpr fun x hx => (h x hx).imp fun _ => And.left
  refine ⟨ys, hys, forall_of_mapM (fun x hx y hy => ?_) hys⟩
  obtain ⟨y', hy', hQ⟩ := h x hx
  exact Except.ok.inj (hy'.symm.trans hy) ▸ hQ

/-- Items that are read back one by one are read back together. -/
theorem mapM_map_eq_ok {g : β → α} (h : ∀ y ∈ ys, f (g y) = .ok y) :
    (ys.map g).mapM f = .ok ys := by
  rw [mapM_eq_ok_iff, List.forall₂_map_left_iff]
  exact List.forall₂_same.mpr h

/-! ## lists that are not read -/

/-- The first item with `Q` behind items with `P` is the head, or lies in the
tail behind a head with `P`. -/
theorem exists_first_cons {P Q : α → Prop} {x : α} :
    (∃ before y after, x :: xs = before ++ y :: after ∧ (∀ b ∈ before, P b) ∧ Q y) ↔
      Q x ∨ P x ∧ ∃ before y after, xs = before ++ y :: after ∧ (∀ b ∈ before, P b) ∧ Q y := by
  constructor
  · rintro ⟨before, y, after, heq, hbefore, hy⟩
    cases before with
    | nil => exact .inl ((List.cons.inj heq).1 ▸ hy)
    | cons b before =>
        obtain ⟨rfl, rfl⟩ := List.cons.inj heq
        obtain ⟨hx, hbefore⟩ := List.forall_mem_cons.mp hbefore
        exact .inr ⟨hx, before, y, after, rfl, hbefore, hy⟩
  · rintro (hx | ⟨hx, before, y, after, rfl, hbefore, hy⟩)
    · exact ⟨[], x, xs, rfl, by simp, hx⟩
    · exact ⟨x :: before, y, after, rfl, List.forall_mem_cons.mpr ⟨hx, hbefore⟩, hy⟩

/-- Reading a list ends with the error of the first item that is not read. -/
theorem mapM_eq_error_iff {error : ε} :
    xs.mapM f = .error error ↔
      ∃ before x after, xs = before ++ x :: after ∧ (∀ b ∈ before, ∃ y, f b = .ok y) ∧
        f x = .error error := by
  induction xs with
  | nil => exact ⟨fun h => (nomatch h), fun ⟨before, x, after, h, _⟩ => by simp at h⟩
  | cons x xs ih =>
      rw [List.mapM_cons, exists_first_cons, ← ih, except_bind_eq_error]
      refine or_congr_right ?_
      rw [← exists_and_right]
      refine exists_congr fun y => and_congr_right fun _ => ?_
      rw [except_bind_eq_error]
      exact or_iff_left fun ⟨_, _, h⟩ => nomatch h

end FormCompiler

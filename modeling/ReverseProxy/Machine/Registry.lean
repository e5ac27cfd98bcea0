import Mathlib.Data.Finset.Basic

/-!
# Registries of numbered objects

Objects are numbered in the order of their creation, and a log says which were created
and which are gone.  A registry that gets each new object and loses each that is gone
has exactly the objects that the log has created and not let go.  In the same way a
table of objects may have a property exactly where the log has a mark.
-/

namespace Machine

open scoped List

variable {α : Type*}

/-- The log entries for an object that is created and for one that is gone. -/
structure Marks (created gone : ℕ → α) : Prop where
  created_injective : Function.Injective created
  gone_injective : Function.Injective gone
  distinct : ∀ id id', created id ≠ gone id'

/-- The registry after `made` objects have been created. -/
structure Registered (created gone : ℕ → α) (made : ℕ) (log : List α) (ids : Finset ℕ) : Prop where
  numbered : ∀ id, created id ∈ log ↔ id < made
  bounded : ∀ id, gone id ∈ log → id < made
  members : ∀ id, id ∈ ids ↔ id < made ∧ gone id ∉ log

namespace Registered

variable {created gone : ℕ → α} {made : ℕ} {log actions : List α} {ids : Finset ℕ}

theorem nil : Registered created gone 0 [] ∅ := by
  refine ⟨?_, ?_, ?_⟩ <;> simp

theorem mem_iff (registered : Registered created gone made log ids) (id : ℕ) :
    id ∈ ids ↔ created id ∈ log ∧ gone id ∉ log := by
  rw [registered.members, registered.numbered]

theorem create (marks : Marks created gone) (registered : Registered created gone made log ids) :
    Registered created gone (made + 1) (log ++ [created made]) (insert made ids) := by
  have stays : ∀ id, gone id ∈ log ++ [created made] ↔ gone id ∈ log := by
    intro id
    rw [List.mem_append, List.mem_singleton, or_iff_left (marks.distinct made id).symm]
  refine ⟨?_, ?_, ?_⟩
  · intro id
    rw [List.mem_append, List.mem_singleton, marks.created_injective.eq_iff, registered.numbered]
    omega
  · intro id isGone
    have less := registered.bounded id ((stays id).mp isGone)
    omega
  · intro id
    rw [Finset.mem_insert, stays, registered.members]
    constructor
    · rintro (rfl | ⟨less, present⟩)
      · exact ⟨by omega, fun isGone => absurd (registered.bounded _ isGone) (lt_irrefl _)⟩
      · exact ⟨by omega, present⟩
    · rintro ⟨less, present⟩
      by_cases isNew : id = made
      · exact .inl isNew
      · exact .inr ⟨by omega, present⟩

theorem remove (marks : Marks created gone) (registered : Registered created gone made log ids)
    {id : ℕ} (less : id < made) :
    Registered created gone made (log ++ [gone id]) (ids.erase id) := by
  refine ⟨?_, ?_, ?_⟩
  · intro other
    rw [List.mem_append, List.mem_singleton, or_iff_left (marks.distinct other id)]
    exact registered.numbered other
  · intro other isGone
    rw [List.mem_append, List.mem_singleton, marks.gone_injective.eq_iff] at isGone
    rcases isGone with isGone | rfl
    · exact registered.bounded other isGone
    · exact less
  · intro other
    rw [Finset.mem_erase, List.mem_append, List.mem_singleton, marks.gone_injective.eq_iff,
      registered.members, not_or]
    tauto

/-- What is done with other objects leaves the registry alone. -/
theorem frame (registered : Registered created gone made log ids)
    (others : ∀ id, created id ∉ actions ∧ gone id ∉ actions) :
    Registered created gone made (log ++ actions) ids := by
  refine ⟨?_, ?_, ?_⟩
  · intro id
    rw [List.mem_append, or_iff_left (others id).1]
    exact registered.numbered id
  · intro id
    rw [List.mem_append, or_iff_left (others id).2]
    exact registered.bounded id
  · intro id
    rw [List.mem_append, or_iff_left (others id).2]
    exact registered.members id

end Registered

/-- One entry of a log followed by another, where the second is not among the new entries. -/
theorem pair_sublist_append_iff {first second : α} {log actions : List α}
    (absent : second ∉ actions) : [first, second] <+ log ++ actions ↔ [first, second] <+ log := by
  constructor
  · intro follows
    rcases List.sublist_append_iff.mp follows with ⟨old, new, isPair, inLog, inActions⟩
    have noNew : new = [] := by
      by_contra someNew
      have isLast := congrArg List.getLast? isPair
      rw [List.getLast?_append_of_ne_nil _ someNew] at isLast
      exact absent (inActions.subset (List.mem_of_getLast? isLast.symm))
    rwa [isPair, noNew, List.append_nil]
  · exact fun follows => follows.trans (List.sublist_append_left log actions)

/-- The entries of a table that the log has marked are those with a property. -/
def Marked {β : Type*} (mark : ℕ → α) (P : ℕ → β → Prop) (log : List α) (table : List β) : Prop :=
  ∀ id, mark id ∈ log ↔ ∃ entry, table[id]? = some entry ∧ P id entry

namespace Marked

variable {β : Type*} {mark : ℕ → α} {P : ℕ → β → Prop} {log actions : List α} {table : List β}

theorem nil : Marked mark P [] [] := by
  intro id
  simp

theorem frame (marked : Marked mark P log table) (others : ∀ id, mark id ∉ actions) :
    Marked mark P (log ++ actions) table := by
  intro id
  rw [List.mem_append, or_iff_left (others id)]
  exact marked id

/-- A new entry has the property when it is marked at once. -/
theorem concat (marked : Marked mark P log table) {entry : β}
    (isMarked : mark table.length ∈ actions ↔ P table.length entry)
    (others : ∀ id ≠ table.length, mark id ∉ actions) :
    Marked mark P (log ++ actions) (table ++ [entry]) := by
  intro id
  rw [List.mem_append, marked id]
  rcases lt_trichotomy id table.length with less | rfl | more
  · rw [List.getElem?_append_left less, or_iff_left (others id less.ne)]
  · simp [isMarked]
  · rw [List.getElem?_eq_none (by omega), List.getElem?_eq_none (by simp; omega),
      or_iff_left (others id more.ne')]

/-- An entry gets the property when it is marked. -/
theorem set (marked : Marked mark P log table) {id : ℕ} {old new : β}
    (isOld : table[id]? = some old) (isMarked : P id new ↔ P id old ∨ mark id ∈ actions)
    (others : ∀ other ≠ id, mark other ∉ actions) :
    Marked mark P (log ++ actions) (table.set id new) := by
  intro other
  rw [List.mem_append, marked other]
  by_cases same : other = id
  · subst same
    have less : other < table.length := (List.getElem?_eq_some_iff.mp isOld).1
    simp [List.getElem?_set_self less, isOld, isMarked]
  · rw [List.getElem?_set_ne (Ne.symm same), or_iff_left (others other same)]

end Marked

end Machine

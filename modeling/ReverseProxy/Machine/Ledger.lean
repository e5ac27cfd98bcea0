import Mathlib.Data.List.Count
import Mathlib.Data.List.Nodup

/-!
# Obligations

A machine takes on obligations and meets them later.  `Balanced` says that those that are
owed and those that have been met make up those that have been taken on, with
multiplicities; it is kept by every step that meets what it no longer owes, and from it
each obligation is met at most once, and exactly once when none is owed.
-/

namespace Machine

variable {κ : Type*} [DecidableEq κ] {owed owed' met met' taken : List κ} {key : κ}

/-- What is owed and what has been met make up what has been taken on. -/
def Balanced (owed met taken : List κ) : Prop :=
  ∀ key, owed.count key + met.count key = taken.count key

/-- Of what was owed, some is met now and the rest is still owed. -/
theorem Balanced.settle (balanced : Balanced owed met taken) (settled : Balanced owed' met' owed) :
    Balanced owed' (met ++ met') taken := by
  intro key
  have before := balanced key
  have after := settled key
  rw [List.count_append]
  omega

/-- An obligation is taken on, and then some are met. -/
theorem Balanced.accept (balanced : Balanced owed met taken)
    (settled : Balanced owed' met' (key :: owed)) :
    Balanced owed' (met ++ met') (taken ++ [key]) := by
  intro other
  have before := balanced other
  have after := settled other
  rw [List.count_cons] at after
  rw [List.count_append, List.count_append, List.count_cons, List.count_nil]
  omega

theorem Balanced.mem_taken (balanced : Balanced owed met taken) (isMet : key ∈ met) :
    key ∈ taken := by
  have positive := List.count_pos_iff.mpr isMet
  rw [← List.count_pos_iff, ← balanced key]
  omega

/-- What has been taken on once has been met once, or it is still owed. -/
theorem Balanced.once (balanced : Balanced owed met taken) (once : taken.Nodup)
    (isTaken : key ∈ taken) : met.count key = 1 ∨ met.count key = 0 ∧ key ∈ owed := by
  have total := balanced key
  rw [List.count_eq_one_of_mem once isTaken] at total
  rcases Nat.eq_zero_or_pos (owed.count key) with none | isOwed
  · left
    omega
  · right
    exact ⟨by omega, List.count_pos_iff.mp isOwed⟩

/-- How the owed obligations change with the holder of some of them. -/
theorem count_flatMap_set {α : Type*} {holders : List α} {position : ℕ} {holder : α}
    (isHolder : holders[position]? = some holder) (holder' : α) (owes : α → List κ) (key : κ) :
    ((holders.set position holder').flatMap owes).count key + (owes holder).count key =
      (holders.flatMap owes).count key + (owes holder').count key := by
  induction holders generalizing position with
  | nil => simp at isHolder
  | cons first later ih =>
    cases position with
    | zero =>
      simp only [List.getElem?_cons_zero, Option.some.injEq] at isHolder
      subst isHolder
      simp only [List.set_cons_zero, List.flatMap_cons, List.count_append]
      omega
    | succ position =>
      have inLater := ih (by simpa using isHolder)
      simp only [List.set_cons_succ, List.flatMap_cons, List.count_append]
      omega

end Machine

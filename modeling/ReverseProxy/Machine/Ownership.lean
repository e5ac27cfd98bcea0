import Mathlib.Logic.Relation

/-!
# Strong references

Objects hold others by strong references, and some objects are held from outside.
Reference counting destroys an object when nothing holds it any more, so that nothing
on a cycle of strong references is ever destroyed, nor anything that such a cycle holds.
-/

namespace Ownership

open Relation

variable {ι : Type*} {holds : ι → ι → Prop} {rooted : ι → Prop} {through x y : ι}

/-- The object is on a cycle through another, or is held by such a cycle. -/
def KeptByCycle (holds : ι → ι → Prop) (through x : ι) : Prop :=
  TransGen holds through through ∧ ReflTransGen holds through x

/-- The objects that reference counting destroys, each after all that hold it. -/
inductive Destroyed (holds : ι → ι → Prop) (rooted : ι → Prop) : ι → Prop where
  | release {x : ι} (unrooted : ¬rooted x) (holders : ∀ y, holds y x → Destroyed holds rooted y) :
      Destroyed holds rooted x

/-- An object that holds nothing is on no cycle. -/
theorem not_keptByCycle_of_holds_none (nothing : ∀ y, ¬holds through y) :
    ¬KeptByCycle holds through x := by
  rintro ⟨cycle, -⟩
  rcases TransGen.head'_iff.mp cycle with ⟨y, held, -⟩
  exact nothing y held

theorem Destroyed.of_reaches (destroyed : Destroyed holds rooted x)
    (reaches : ReflTransGen holds y x) : Destroyed holds rooted y := by
  induction reaches using ReflTransGen.head_induction_on with
  | refl => exact destroyed
  | head held _ ih =>
    cases ih with
    | release _ holders => exact holders _ held

theorem Destroyed.not_cycle (destroyed : Destroyed holds rooted x) : ¬TransGen holds x x := by
  induction destroyed with
  | release _ _ ih =>
    intro cycle
    rcases TransGen.tail'_iff.mp cycle with ⟨y, reaches, held⟩
    exact ih y held (TransGen.head' held reaches)

theorem KeptByCycle.not_destroyed (kept : KeptByCycle holds through x) :
    ¬Destroyed holds rooted x :=
  fun destroyed => (destroyed.of_reaches kept.2).not_cycle kept.1

end Ownership

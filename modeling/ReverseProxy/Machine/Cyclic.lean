import Mathlib.Data.Int.CardIntervalMod
import Mathlib.Data.List.Chain

/-!
# Taking turns

A sequence of turns among `m` participants, each numbered below `m`.  In a cyclic
sequence each turn is the successor of the one before; then every participant has had a
fair share of the turns.
-/

namespace Machine

/-- Each turn goes to the participant after the one before, and the first follows the last. -/
structure Cyclic (m : ℕ) (turns : List ℕ) : Prop where
  below : ∀ turn ∈ turns, turn < m
  next : turns.IsChain fun turn later => later = (turn + 1) % m

/-- Each participant has had its share of the turns, rounded down or up. -/
def FairShare (m : ℕ) (turns : List ℕ) : Prop :=
  ∀ i < m, turns.count i = turns.length / m ∨ turns.count i = (turns.length + m - 1) / m

/-- A cyclic sequence is determined by its first turn and its length. -/
theorem Cyclic.eq_map_range {m first : ℕ} {turns : List ℕ} (cyclic : Cyclic m (first :: turns)) :
    first :: turns = (List.range (turns.length + 1)).map fun j => (first + j) % m := by
  induction turns generalizing first with
  | nil => simp [Nat.mod_eq_of_lt (cyclic.below first (by simp))]
  | cons second turns ih =>
    rcases List.isChain_cons_cons.mp cyclic.next with ⟨follows, chain⟩
    have later : Cyclic m (second :: turns) :=
      ⟨fun turn turnMem => cyclic.below turn (List.mem_cons_of_mem _ turnMem), chain⟩
    have small := Nat.mod_eq_of_lt (cyclic.below first (by simp))
    have shifted : ∀ j, (second + j) % m = (first + (j + 1)) % m := by
      intro j
      rw [follows, Nat.mod_add_mod, Nat.add_assoc, Nat.add_comm 1 j]
    calc first :: second :: turns
        = first :: (List.range (turns.length + 1)).map fun j => (second + j) % m := by
          rw [← ih later]
      _ = (List.range (turns.length + 1 + 1)).map fun j => (first + j) % m := by
          rw [List.range_succ_eq_map (n := turns.length + 1), List.map_cons, List.map_map]
          simp only [Function.comp_def, shifted, Nat.succ_eq_add_one, Nat.add_zero, small]

/-- How often a turn comes in a cyclic sequence. -/
theorem Cyclic.count_eq {m first i : ℕ} {turns : List ℕ} (cyclic : Cyclic m (first :: turns))
    (inRange : i < m) :
    (first :: turns).count i =
      (turns.length + 1) / m + if (i + m - first) % m < (turns.length + 1) % m then 1 else 0 := by
  have below : first < m := cyclic.below first (by simp)
  have residue : ∀ j, (first + j) % m = i ↔ j ≡ i + m - first [MOD m] := by
    intro j
    have start : first + (i + m - first) = i + m := by omega
    have same : (first + j) % m = i ↔ first + j ≡ first + (i + m - first) [MOD m] := by
      rw [start, Nat.ModEq, Nat.add_mod_right, Nat.mod_eq_of_lt inRange]
    rw [same]
    exact ⟨Nat.ModEq.add_left_cancel' first, Nat.ModEq.add_left first⟩
  have positive : 0 < m := by omega
  rw [cyclic.eq_map_range, List.count, List.countP_map, ← Nat.count_modEq_card _ positive,
    Nat.count]
  apply List.countP_congr
  intro j _
  simp [residue]

theorem div_round_up {m k : ℕ} (positive : 0 < m) (rest : 0 < k % m) :
    (k + m - 1) / m = k / m + 1 := by
  have whole := Nat.div_add_mod k m
  have below := Nat.mod_lt k positive
  have split : k + m - 1 = (k % m - 1) + m * (k / m + 1) := by
    rw [Nat.mul_add]
    omega
  rw [split, Nat.add_mul_div_left _ _ positive, Nat.div_eq_of_lt (by omega), Nat.zero_add]

theorem Cyclic.fairShare {m : ℕ} {turns : List ℕ} (cyclic : Cyclic m turns) :
    FairShare m turns := by
  intro i inRange
  have positive : 0 < m := by omega
  cases turns with
  | nil => simp
  | cons first turns =>
    rw [cyclic.count_eq inRange, List.length_cons]
    split
    · right
      rename_i more
      exact (div_round_up positive (Nat.zero_lt_of_lt more)).symm
    · left
      rfl

end Machine

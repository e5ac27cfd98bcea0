import Mathlib.Data.List.Basic
import Mathlib.Data.List.Infix
import Mathlib.Data.Nat.Find

/-!
# Searching a text for a delimiter

Delimiter-based protocols cut a text at the first occurrence of a pattern.
`List.dropInfix?` performs that cut; this file collects the facts which make it
usable on a text that is still growing.  The central one is
`dropInfix?_append`: once a pattern has been found, no amount of further input
moves its first occurrence, so a reader which searches a growing buffer finds
the same cut as one which sees the whole text.
-/

namespace Text

universe u

variable {α : Type u}

/-- An occurrence ending inside the first part of a text is an occurrence in that part. -/
theorem split_of_append_split {text more pattern before after : List α}
    (split : text ++ more = before ++ pattern ++ after)
    (inside : (before ++ pattern).length ≤ text.length) :
    ∃ after', text = before ++ pattern ++ after' := by
  refine ⟨text.drop (before ++ pattern).length, ?_⟩
  have taken := congrArg (List.take (before ++ pattern).length) split
  rw [List.take_append_of_le_length inside, List.take_left] at taken
  conv_lhs => rw [← List.take_append_drop (before ++ pattern).length text, taken]

variable [DecidableEq α]

/-- The first occurrence of a pattern, without the `BEq` of the general library statement. -/
theorem dropInfix?_eq_some_iff {text pattern before after : List α} :
    text.dropInfix? pattern = some (before, after) ↔
      text = before ++ pattern ++ after ∧
        ∀ before' after', text = before' ++ pattern ++ after' →
          before.length ≤ before'.length := by
  rw [List.dropInfix?_eq_some_iff]
  constructor
  · rintro ⟨⟨pattern', split, same⟩, first⟩
    obtain rfl : pattern' = pattern := by simpa using same
    exact ⟨split, fun before' after' other => first before' pattern' after' other (by simp)⟩
  · rintro ⟨split, first⟩
    refine ⟨⟨pattern, split, by simp⟩, ?_⟩
    intro before' pattern' after' other same
    obtain rfl : pattern' = pattern := by simpa using same
    exact first before' after' other

/-- A cut puts the text back together. -/
theorem eq_of_dropInfix? {text pattern before after : List α}
    (found : text.dropInfix? pattern = some (before, after)) : text = before ++ pattern ++ after :=
  (dropInfix?_eq_some_iff.mp found).1

theorem dropInfix?_eq_none_iff {text pattern : List α} :
    text.dropInfix? pattern = none ↔ ¬pattern <:+: text := by
  constructor
  · rintro missing ⟨before, after, split⟩
    classical
    have occurs : ∃ n before after,
        text = before ++ pattern ++ after ∧ before.length = n :=
      ⟨before.length, before, after, split.symm, rfl⟩
    obtain ⟨first, rest, firstSplit, length⟩ := Nat.find_spec occurs
    have found : text.dropInfix? pattern = some (first, rest) := by
      refine dropInfix?_eq_some_iff.mpr ⟨firstSplit, ?_⟩
      intro before' after' other
      rw [length]
      exact Nat.find_min' occurs ⟨before', after', other, rfl⟩
    simp [missing] at found
  · intro absent
    cases found : text.dropInfix? pattern with
    | none => rfl
    | some cut =>
      obtain ⟨before, after⟩ := cut
      exact absurd ⟨before, after, (eq_of_dropInfix? found).symm⟩ absent

/-- More input does not move the first occurrence of a pattern. -/
theorem dropInfix?_append {text pattern before after : List α}
    (found : text.dropInfix? pattern = some (before, after)) (more : List α) :
    (text ++ more).dropInfix? pattern = some (before, after ++ more) := by
  obtain ⟨split, first⟩ := dropInfix?_eq_some_iff.mp found
  refine dropInfix?_eq_some_iff.mpr ⟨by simp [split], ?_⟩
  intro before' after' other
  by_contra shorter
  have inside : (before' ++ pattern).length ≤ text.length := by
    simp [split]
    omega
  obtain ⟨after'', earlier⟩ := split_of_append_split other inside
  have := first before' after'' earlier
  omega

/-- A pattern that has not occurred yet occurs later than everything read so far. -/
theorem dropInfix?_eq_none_of_append {text more pattern : List α}
    (missing : (text ++ more).dropInfix? pattern = none) : text.dropInfix? pattern = none := by
  rw [dropInfix?_eq_none_iff] at missing ⊢
  exact fun occurs => missing (occurs.trans (List.prefix_append text more).isInfix)

theorem dropInfix?_singleton_eq_some_iff {text before after : List α} {symbol : α} :
    text.dropInfix? [symbol] = some (before, after) ↔
      text = before ++ symbol :: after ∧ symbol ∉ before := by
  rw [dropInfix?_eq_some_iff]
  constructor
  · rintro ⟨split, first⟩
    refine ⟨by simpa using split, ?_⟩
    intro occurs
    rcases List.append_of_mem occurs with ⟨before', after', earlier⟩
    have shorter := first before' (after' ++ [symbol] ++ after) (by simp [split, earlier])
    rw [earlier, List.length_append, List.length_cons] at shorter
    omega
  · rintro ⟨split, fresh⟩
    refine ⟨by simp [split], ?_⟩
    intro before' after' other
    by_contra shorter
    have earlier : before' ++ [symbol] <+: before := by
      have whole : before <+: text := ⟨symbol :: after, split.symm⟩
      refine List.prefix_of_prefix_length_le ⟨after', other.symm⟩ whole ?_
      simp
      omega
    exact fresh (earlier.subset (by simp))

@[simp]
theorem dropInfix?_singleton_eq_none_iff {text : List α} {symbol : α} :
    text.dropInfix? [symbol] = none ↔ symbol ∉ text := by
  rw [dropInfix?_eq_none_iff, List.singleton_infix_iff]

theorem dropInfix?_singleton {before : List α} {symbol : α} (fresh : symbol ∉ before)
    (after : List α) : (before ++ symbol :: after).dropInfix? [symbol] = some (before, after) :=
  dropInfix?_singleton_eq_some_iff.mpr ⟨rfl, fresh⟩

end Text

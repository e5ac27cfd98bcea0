import Mathlib.Data.List.Nodup
import Mathlib.Logic.Function.Basic

/-!
# Maps to queues

A map from keys to queues whose entry is erased with the last element of its queue.  An
element may be required to belong under the key where it is filed; `Filed` is kept by the
operations that respect this.
-/

namespace Machine

/-- A queue for some keys. -/
abbrev QueueTable (κ α : Type*) := κ → Option (List α)

namespace QueueTable

variable {κ α : Type*}

/-- No queues. -/
def empty : QueueTable κ α := fun _ => none

/-- The elements under a key, the oldest first. -/
def queue (table : QueueTable κ α) (key : κ) : List α := (table key).getD []

/-- No queue is empty, and each element is found once, where it belongs. -/
structure Filed (Belongs : α → κ → Prop) (table : QueueTable κ α) : Prop where
  noEmpty : ∀ key, table key ≠ some []
  nodup : ∀ key, (table.queue key).Nodup
  belongs : ∀ key, ∀ x ∈ table.queue key, Belongs x key

variable {Belongs Belongs' : α → κ → Prop}

theorem filed_empty : Filed Belongs (empty : QueueTable κ α) := by
  refine ⟨?_, ?_, ?_⟩
  · intro key isEmpty
    cases isEmpty
  · intro key
    exact List.nodup_nil
  · intro key x filed
    cases filed

/-- What the elements of the table belong to may change for the others. -/
theorem Filed.mono {table : QueueTable κ α} (filed : Filed Belongs table)
    (same : ∀ key, ∀ x ∈ table.queue key, Belongs x key → Belongs' x key) :
    Filed Belongs' table := by
  refine ⟨filed.noEmpty, filed.nodup, ?_⟩
  intro key x isFiled
  exact same key x isFiled (filed.belongs key x isFiled)

variable [DecidableEq κ]

/-- Replaces a queue, and erases the key for an empty one. -/
def put (table : QueueTable κ α) (key : κ) (queue : List α) : QueueTable κ α :=
  Function.update table key (if queue.isEmpty then none else some queue)

/-- Takes the first element. -/
def popFront (table : QueueTable κ α) (key : κ) : Option (α × QueueTable κ α) :=
  match table key with
  | some (first :: rest) => some (first, table.put key rest)
  | some [] | none => none

/-- Appends an element. -/
def pushBack (table : QueueTable κ α) (key : κ) (x : α) : QueueTable κ α :=
  Function.update table key (some (table.queue key ++ [x]))

/-- Removes the first occurrence of an element. -/
def remove [DecidableEq α] (table : QueueTable κ α) (key : κ) (x : α) : QueueTable κ α :=
  match table key with
  | some queue => table.put key (queue.erase x)
  | none => table

theorem queue_put (table : QueueTable κ α) (key : κ) (queue : List α) :
    (table.put key queue).queue = Function.update table.queue key queue := by
  funext other
  rcases eq_or_ne other key with rfl | ne
  · cases queue with
    | nil => simp [put, QueueTable.queue]
    | cons x later => simp [put, QueueTable.queue]
  · simp [put, QueueTable.queue, ne]

theorem queue_pushBack (table : QueueTable κ α) (key : κ) (x : α) :
    (table.pushBack key x).queue = Function.update table.queue key (table.queue key ++ [x]) := by
  funext other
  rcases eq_or_ne other key with rfl | ne
  · simp [pushBack, QueueTable.queue]
  · simp [pushBack, QueueTable.queue, ne]

theorem queue_remove [DecidableEq α] (table : QueueTable κ α) (key : κ) (x : α) :
    (table.remove key x).queue = Function.update table.queue key ((table.queue key).erase x) := by
  cases found : table key with
  | none =>
    have isEmpty : table.queue key = [] := by rw [queue, found, Option.getD_none]
    rw [remove, found, isEmpty, List.erase_nil, ← isEmpty, Function.update_eq_self]
  | some queue =>
    have isQueue : table.queue key = queue := by rw [QueueTable.queue, found, Option.getD_some]
    rw [remove, found, isQueue]
    exact queue_put table key (queue.erase x)

theorem popFront_eq_none_iff {table : QueueTable κ α} {key : κ} :
    table.popFront key = none ↔ table.queue key = [] := by
  unfold popFront queue
  split
  · rename_i found
    simp [found]
  · rename_i found
    simp [found]
  · rename_i found
    simp [found]

theorem queue_of_popFront {table next : QueueTable κ α} {key : κ} {first : α}
    (popped : table.popFront key = some (first, next)) :
    ∃ rest, table.queue key = first :: rest ∧ next = table.put key rest := by
  unfold popFront at popped
  split at popped
  · rename_i isFirst rest found
    cases popped
    exact ⟨rest, by rw [queue, found, Option.getD_some], rfl⟩
  · cases popped
  · cases popped

variable {table next : QueueTable κ α} {key : κ} {x : α}

theorem noEmpty_put (noEmpty : ∀ key, table key ≠ some []) (key : κ) (queue : List α) :
    ∀ other, table.put key queue other ≠ some [] := by
  intro other
  rcases eq_or_ne other key with rfl | ne
  · cases queue with
    | nil => simp [put]
    | cons x later => simp [put]
  · simpa [put, ne] using noEmpty other

theorem Filed.put (filed : Filed Belongs table) {queue : List α}
    (fewer : queue.Sublist (table.queue key)) : Filed Belongs (table.put key queue) := by
  refine ⟨noEmpty_put filed.noEmpty key queue, ?_, ?_⟩
  · intro other
    rw [queue_put]
    rcases eq_or_ne other key with rfl | ne
    · rw [Function.update_self]
      exact (filed.nodup other).sublist fewer
    · rw [Function.update_of_ne ne]
      exact filed.nodup other
  · intro other x isFiled
    rw [queue_put] at isFiled
    rcases eq_or_ne other key with rfl | ne
    · rw [Function.update_self] at isFiled
      exact filed.belongs other x (fewer.subset isFiled)
    · rw [Function.update_of_ne ne] at isFiled
      exact filed.belongs other x isFiled

theorem Filed.remove [DecidableEq α] (filed : Filed Belongs table) (key : κ) (x : α) :
    Filed Belongs (table.remove key x) := by
  unfold QueueTable.remove
  split
  · rename_i queue found
    apply filed.put
    rw [QueueTable.queue, found]
    exact List.erase_sublist
  · exact filed

theorem Filed.pushBack (filed : Filed Belongs table) (fresh : x ∉ table.queue key)
    (belongs : Belongs x key) : Filed Belongs (table.pushBack key x) := by
  refine ⟨?_, ?_, ?_⟩
  · intro other
    rcases eq_or_ne other key with rfl | ne
    · simp [QueueTable.pushBack]
    · simpa [QueueTable.pushBack, ne] using filed.noEmpty other
  · intro other
    rw [queue_pushBack]
    rcases eq_or_ne other key with rfl | ne
    · rw [Function.update_self, ← List.concat_eq_append]
      exact List.Nodup.concat fresh (filed.nodup other)
    · rw [Function.update_of_ne ne]
      exact filed.nodup other
  · intro other y isFiled
    rw [queue_pushBack] at isFiled
    rcases eq_or_ne other key with rfl | ne
    · rw [Function.update_self, List.mem_append, List.mem_singleton] at isFiled
      rcases isFiled with old | rfl
      · exact filed.belongs other y old
      · exact belongs
    · rw [Function.update_of_ne ne] at isFiled
      exact filed.belongs other y isFiled

theorem Filed.popFront (filed : Filed Belongs table) (popped : table.popFront key = some (x, next)) :
    Filed Belongs next ∧ Belongs x key ∧ x ∉ next.queue key := by
  rcases queue_of_popFront popped with ⟨rest, isQueue, rfl⟩
  refine ⟨?_, ?_, ?_⟩
  · apply filed.put
    rw [isQueue]
    exact List.sublist_cons_self x rest
  · apply filed.belongs key x
    rw [isQueue]
    exact List.mem_cons_self
  · rw [queue_put, Function.update_self]
    have nodup := filed.nodup key
    rw [isQueue, List.nodup_cons] at nodup
    exact nodup.1

theorem Filed.not_mem_remove [DecidableEq α] (filed : Filed Belongs table) :
    x ∉ (table.remove key x).queue key := by
  rw [queue_remove, Function.update_self]
  exact (filed.nodup key).not_mem_erase

end QueueTable

end Machine

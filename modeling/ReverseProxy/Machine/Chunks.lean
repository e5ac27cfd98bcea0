import Mathlib.Data.List.Basic

/-!
# Chunks sent piece by piece

A sender works through a list of chunks in order and may send any part of the next one at a
time.  `Transferred` says how far it has come.
-/

namespace Machine

variable {α : Type*}

/-- The first chunks have been sent whole, and so many elements of the next one. -/
structure Transferred (done rest : List (List α)) (offset : ℕ) (sent : List α) : Prop where
  isSent : sent = done.flatten ++ (rest.headD []).take offset
  inside : ∀ chunk ∈ rest.head?, offset < chunk.length
  atEnd : rest = [] → offset = 0

variable {done rest : List (List α)} {chunk sent : List α} {offset : ℕ}

theorem Transferred.start : Transferred ([] : List (List α)) [] 0 [] :=
  ⟨rfl, by simp, fun _ => rfl⟩

theorem Transferred.submit (transferred : Transferred done rest offset sent)
    (nonempty : chunk ≠ []) : Transferred done (rest ++ [chunk]) offset sent := by
  rcases transferred with ⟨rfl, inside, atEnd⟩
  cases rest with
  | nil =>
    refine ⟨by simp [atEnd rfl], ?_, by simp⟩
    simpa [atEnd rfl] using List.length_pos_of_ne_nil nonempty
  | cons next rest => exact ⟨rfl, inside, by simp⟩

/-- Some more of the next chunk is sent, but not all that is left of it. -/
theorem Transferred.advance (transferred : Transferred done (chunk :: rest) offset sent) {n : ℕ}
    (short : offset + n < chunk.length) :
    Transferred done (chunk :: rest) (offset + n) (sent ++ (chunk.drop offset).take n) := by
  rcases transferred with ⟨rfl, -, -⟩
  refine ⟨?_, by simpa using short, by simp⟩
  simp [List.take_add]

/-- All that is left of the next chunk is sent. -/
theorem Transferred.complete (transferred : Transferred done (chunk :: rest) offset sent) {n : ℕ}
    (all : offset + n = chunk.length) (nonempty : ∀ chunk ∈ rest, chunk ≠ []) :
    Transferred (done ++ [chunk]) rest 0 (sent ++ (chunk.drop offset).take n) := by
  rcases transferred with ⟨rfl, -, -⟩
  refine ⟨?_, ?_, fun _ => rfl⟩
  · simp [← List.take_add, all]
  · intro next isNext
    exact List.length_pos_of_ne_nil (nonempty next (List.mem_of_mem_head? isNext))

theorem Transferred.isPrefix (transferred : Transferred done rest offset sent) :
    sent <+: (done ++ rest).flatten := by
  rw [transferred.isSent, List.flatten_append]
  cases rest with
  | nil => simp
  | cons next rest =>
    rw [List.headD_cons, List.flatten_cons, List.prefix_append_right_inj]
    exact (List.take_prefix offset next).trans (List.prefix_append _ _)

theorem Transferred.length_eq (transferred : Transferred done rest offset sent) :
    sent.length = done.flatten.length + offset := by
  rcases transferred with ⟨rfl, inside, atEnd⟩
  cases rest with
  | nil => simp [atEnd rfl]
  | cons next rest =>
    have short : offset < next.length := inside next rfl
    rw [List.length_append, List.headD_cons, List.length_take]
    omega

/-- The chunks that are through are those whose last element has been sent. -/
theorem Transferred.le_done_iff (transferred : Transferred done rest offset sent) {k : ℕ}
    (among : k ≤ (done ++ rest).length) :
    k ≤ done.length ↔ ((done ++ rest).take k).flatten.length ≤ sent.length := by
  have total := transferred.length_eq
  constructor
  · intro through
    rw [List.take_append_of_le_length through]
    have parts := congrArg (fun chunks => chunks.flatten.length) (List.take_append_drop k done)
    simp only [List.flatten_append, List.length_append] at parts
    omega
  · intro isSent
    by_contra beyond
    rw [Nat.not_le] at beyond
    cases rest with
    | nil =>
      rw [List.append_nil] at among
      omega
    | cons next rest =>
      have short : offset < next.length := transferred.inside next rfl
      rcases Nat.exists_eq_add_of_lt beyond with ⟨more, rfl⟩
      have all : (done ++ next :: rest).take (done.length + more + 1) =
          done ++ next :: rest.take more := by
        rw [Nat.add_assoc, List.take_length_add_append]
        rfl
      rw [all, List.flatten_append, List.length_append, List.flatten_cons,
        List.length_append] at isSent
      omega

end Machine

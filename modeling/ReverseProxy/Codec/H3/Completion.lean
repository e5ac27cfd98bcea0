import ReverseProxy.Codec.H3.Calls
import ReverseProxy.Machine.Monitor

/-!
# Ending an HTTP/3 message

The closure `finish` drops the error that it is passed: it shuts the stream down whatever
has happened, and the caller's callback is passed what `async_shutdown` reports.
-/

namespace ReverseProxy

open Machine Text

namespace H3Codec

/-- The error that the completion of an operation before the shutdown reports. -/
def WriteEntry.failure : WriteEntry → Option ErrorCode
  | .headersSent ec => ec
  | .bodyRead (.error ec) => some ec
  | .bodyRead (.ok _) => none
  | .pieceWritten _ ec => ec
  | .fin | .callback _ => none

/-- The bytes that the body source has delivered. -/
def bytesRead (trace : List WriteEntry) : Bytes :=
  trace.flatMap fun
    | .bodyRead (.ok data) => data
    | _ => []

/-- The bytes that the transport has accepted. -/
def bytesAccepted (trace : List WriteEntry) : Bytes :=
  trace.flatMap fun
    | .pieceWritten data none => data
    | _ => []

/-- The headers and the body up to the clean end of its source have been accepted. -/
structure SentWhole (hasBody : Bool) (before : List WriteEntry) : Prop where
  headers : .headersSent none ∈ before
  ended : hasBody = true → .bodyRead (.ok []) ∈ before
  accepted : bytesAccepted before = bytesRead before

/-- The entries that make a message one that is complete: its FIN and a reported success. -/
def WriteEntry.concludes : WriteEntry → Bool
  | .fin | .callback (.called none) => true
  | _ => false

/-- Every conclusion in the trace is of a whole message. -/
def ConcludesWhole (hasBody : Bool) (trace : List WriteEntry) : Prop :=
  ∀ before entry after, trace = before ++ entry :: after → entry.concludes = true →
    SentWhole hasBody before

/-- Only whole messages are concluded, and a failure is what the caller is told. -/
structure EndsHonestly (hasBody : Bool) (trace : List WriteEntry) : Prop where
  whole : ConcludesWhole hasBody trace
  reported : ∀ entry ∈ trace, ∀ ec ∈ entry.failure, ∀ result,
    .callback (.called result) ∈ trace → result = some ec

section Steps

variable {hasBody : Bool} {trace : List WriteEntry} {entry : WriteEntry}

theorem concludesWhole_append_iff :
    ConcludesWhole hasBody (trace ++ [entry]) ↔
      ConcludesWhole hasBody trace ∧ (entry.concludes = true → SentWhole hasBody trace) := by
  rw [ConcludesWhole, forall_split_append_iff, forall_split_cons_iff,
    List.append_nil]
  exact and_congr_right (fun _ => and_iff_left forall_split_nil)

theorem bytesRead_append (first second : List WriteEntry) :
    bytesRead (first ++ second) = bytesRead first ++ bytesRead second :=
  List.flatMap_append

theorem bytesAccepted_append (first second : List WriteEntry) :
    bytesAccepted (first ++ second) = bytesAccepted first ++ bytesAccepted second :=
  List.flatMap_append

theorem SentWhole.append (whole : SentWhole hasBody trace) (noneRead : bytesRead [entry] = [])
    (noneAccepted : bytesAccepted [entry] = []) : SentWhole hasBody (trace ++ [entry]) := by
  refine ⟨List.mem_append_left _ whole.headers, ?_, ?_⟩
  · intro isBody
    exact List.mem_append_left _ (whole.ended isBody)
  · rw [bytesRead_append, bytesAccepted_append, noneRead, noneAccepted, whole.accepted]

/-- Nothing has failed, and nothing has been concluded. -/
structure Quiet (trace : List WriteEntry) : Prop where
  clean : ∀ entry ∈ trace, entry.failure = none
  unconcluded : ∀ entry ∈ trace, entry.concludes = false

theorem Quiet.append (quiet : Quiet trace) (clean : entry.failure = none)
    (unconcluded : entry.concludes = false) : Quiet (trace ++ [entry]) := by
  constructor
  · intro other isOther
    rcases List.mem_append.mp isOther with old | new
    · exact quiet.clean other old
    · rw [List.mem_singleton.mp new, clean]
  · intro other isOther
    rcases List.mem_append.mp isOther with old | new
    · exact quiet.unconcluded other old
    · rw [List.mem_singleton.mp new, unconcluded]

theorem Quiet.concludesWhole (quiet : Quiet trace) : ConcludesWhole hasBody trace := by
  rintro before entry after rfl concludes
  rw [quiet.unconcluded entry (by simp)] at concludes
  cases concludes

/-- A message that has been ended is whole, or something has failed and it was ended all the same. -/
inductive Ended (hasBody : Bool) (trace : List WriteEntry) : Prop where
  | whole : (∀ entry ∈ trace, entry.failure = none) → SentWhole hasBody trace →
      ConcludesWhole hasBody trace → Ended hasBody trace
  | failed : (∃ entry ∈ trace, entry.failure ≠ none) → ¬ConcludesWhole hasBody trace →
      Ended hasBody trace

theorem Ended.append (ended : Ended hasBody trace) (clean : entry.failure = none)
    (noneRead : bytesRead [entry] = []) (noneAccepted : bytesAccepted [entry] = []) :
    Ended hasBody (trace ++ [entry]) := by
  cases ended with
  | whole allClean whole concludes =>
    refine .whole ?_ (whole.append noneRead noneAccepted) ?_
    · intro other isOther
      rcases List.mem_append.mp isOther with old | new
      · exact allClean other old
      · rw [List.mem_singleton.mp new, clean]
    · exact concludesWhole_append_iff.mpr ⟨concludes, fun _ => whole⟩
  | failed someFailed notWhole =>
    refine .failed ?_ ?_
    · rcases someFailed with ⟨other, isOther, failed⟩
      exact ⟨other, List.mem_append_left _ isOther, failed⟩
    · intro concludes
      exact notWhole (concludesWhole_append_iff.mp concludes).1

theorem ended_whole (quiet : Quiet trace) (whole : SentWhole hasBody trace) :
    Ended hasBody (trace ++ [.fin]) := by
  refine .whole ?_ (whole.append rfl rfl) ?_
  · intro other isOther
    rcases List.mem_append.mp isOther with old | new
    · exact quiet.clean other old
    · rw [List.mem_singleton.mp new]
      rfl
  · exact concludesWhole_append_iff.mpr ⟨quiet.concludesWhole, fun _ => whole⟩

theorem ended_failed (failed : ∃ entry ∈ trace, entry.failure ≠ none)
    (notWhole : ¬SentWhole hasBody trace) : Ended hasBody (trace ++ [.fin]) := by
  refine .failed ?_ ?_
  · rcases failed with ⟨other, isOther, failed⟩
    exact ⟨other, List.mem_append_left _ isOther, failed⟩
  · intro concludes
    exact notWhole ((concludesWhole_append_iff.mp concludes).2 rfl)

/-- What is known of the trace while a message is written. -/
structure Sending (hasBody : Bool) (trace : List WriteEntry) : Prop where
  quiet : Quiet trace
  isBody : hasBody = true
  headers : .headersSent none ∈ trace
  notEnded : .bodyRead (.ok []) ∉ trace

/-- What has happened in each phase. -/
def Underway (hasBody : Bool) (trace : List WriteEntry) : WritePhase → Prop
  | .sending =>
    Quiet trace ∧ .headersSent none ∉ trace ∧ .bodyRead (.ok []) ∉ trace ∧
      bytesAccepted trace = bytesRead trace
  | .reading => Sending hasBody trace ∧ bytesAccepted trace = bytesRead trace
  | .writing data =>
    Sending hasBody trace ∧ bytesAccepted trace ++ data = bytesRead trace ∧ data ≠ []
  | .shutting | .done => Ended hasBody trace

theorem Sending.append (sending : Sending hasBody trace) (clean : entry.failure = none)
    (unconcluded : entry.concludes = false) (notEnd : entry ≠ .bodyRead (.ok [])) :
    Sending hasBody (trace ++ [entry]) := by
  refine ⟨sending.quiet.append clean unconcluded, sending.isBody,
    List.mem_append_left _ sending.headers, ?_⟩
  intro isEnd
  rcases List.mem_append.mp isEnd with old | new
  · exact sending.notEnded old
  · exact notEnd (List.mem_singleton.mp new).symm

variable {call : WriteCall}

theorem underway_headersSent (underway : Underway call.hasBody trace .sending)
    (ec : Option ErrorCode) :
    Underway call.hasBody (trace ++ [.headersSent ec] ++ (onHeadersSent call ec).2)
      (onHeadersSent call ec).1.phase := by
  rcases underway with ⟨quiet, notSent, notEnded, same⟩
  cases ec with
  | some ec =>
    refine ended_failed ⟨.headersSent (some ec), by simp, nofun⟩ ?_
    intro whole
    rcases List.mem_append.mp whole.headers with old | new
    · exact notSent old
    · cases List.mem_singleton.mp new
  | none =>
    have sent : WriteEntry.headersSent none ∈ trace ++ [.headersSent none] := by simp
    have sameBytes : bytesAccepted (trace ++ [.headersSent none]) =
        bytesRead (trace ++ [.headersSent none]) := by
      rw [bytesAccepted_append, bytesRead_append, same]
      rfl
    have isQuiet : Quiet (trace ++ [.headersSent none]) := quiet.append rfl rfl
    unfold onHeadersSent
    by_cases isBody : call.hasBody = true
    · rw [if_neg (by simp [isBody]), List.append_nil]
      refine ⟨⟨isQuiet, isBody, sent, ?_⟩, sameBytes⟩
      intro isEnd
      rcases List.mem_append.mp isEnd with old | new
      · exact notEnded old
      · cases List.mem_singleton.mp new
    · rw [if_pos (Or.inr (Bool.eq_false_of_not_eq_true isBody))]
      exact ended_whole isQuiet ⟨sent, fun body => absurd body isBody, sameBytes⟩

theorem underway_bodyRead (underway : Underway call.hasBody trace .reading) (result : ReadResult) :
    Underway call.hasBody (trace ++ [.bodyRead result] ++ (onBodyRead call result).2)
      (onBodyRead call result).1.phase := by
  rcases underway with ⟨sending, same⟩
  cases result with
  | error ec =>
    refine ended_failed ⟨.bodyRead (.error ec), by simp, nofun⟩ ?_
    intro whole
    rcases List.mem_append.mp (whole.ended sending.isBody) with old | new
    · exact sending.notEnded old
    · cases List.mem_singleton.mp new
  | ok data =>
    cases data with
    | nil =>
      apply ended_whole (sending.quiet.append rfl rfl)
      refine ⟨List.mem_append_left _ sending.headers, fun _ => by simp, ?_⟩
      rw [bytesAccepted_append, bytesRead_append, same]
      rfl
    | cons byte data =>
      have isPiece : onBodyRead call (.ok (byte :: data)) =
          ({ call with phase := .writing (byte :: data) }, []) := rfl
      rw [isPiece, List.append_nil]
      refine ⟨sending.append rfl rfl nofun, ?_, List.cons_ne_nil byte data⟩
      rw [bytesAccepted_append, bytesRead_append, same]
      simp [bytesAccepted, bytesRead]

theorem underway_pieceWritten {data : Bytes} (underway : Underway call.hasBody trace (.writing data))
    (ec : Option ErrorCode) :
    Underway call.hasBody (trace ++ [.pieceWritten data ec] ++ (onPieceWritten call ec).2)
      (onPieceWritten call ec).1.phase := by
  rcases underway with ⟨sending, behind, nonempty⟩
  cases ec with
  | none =>
    rw [onPieceWritten, List.append_nil]
    refine ⟨sending.append rfl rfl nofun, ?_⟩
    rw [bytesAccepted_append, bytesRead_append, ← behind]
    simp [bytesAccepted, bytesRead]
  | some ec =>
    refine ended_failed ⟨.pieceWritten data (some ec), by simp, nofun⟩ ?_
    intro whole
    have same := whole.accepted
    rw [bytesAccepted_append, bytesRead_append, ← behind] at same
    simp [bytesAccepted, bytesRead, nonempty] at same

/-- The call of an empty callback changes nothing. -/
theorem Underway.moved {phase : WritePhase} (underway : Underway hasBody trace phase)
    (ec : ErrorCode) : Underway hasBody (trace ++ [.callback (.calledMoved ec)]) phase := by
  have accepted : bytesAccepted (trace ++ [.callback (.calledMoved ec)]) = bytesAccepted trace := by
    rw [bytesAccepted_append]
    exact List.append_nil _
  have read : bytesRead (trace ++ [.callback (.calledMoved ec)]) = bytesRead trace := by
    rw [bytesRead_append]
    exact List.append_nil _
  cases phase with
  | sending =>
    rcases underway with ⟨quiet, notSent, notEnded, same⟩
    refine ⟨quiet.append rfl rfl, ?_, ?_, by rw [accepted, read, same]⟩
    · simpa using notSent
    · simpa using notEnded
  | reading => exact ⟨underway.1.append rfl rfl nofun, by rw [accepted, read, underway.2]⟩
  | writing data =>
    rcases underway with ⟨sending, behind, nonempty⟩
    exact ⟨sending.append rfl rfl nofun, by rw [accepted, read, behind], nonempty⟩
  | shutting => exact Ended.append underway rfl rfl rfl
  | done => exact Ended.append underway rfl rfl rfl

theorem hasBody_onHeadersSent (ec : Option ErrorCode) :
    (onHeadersSent call ec).1.hasBody = call.hasBody := by
  unfold onHeadersSent
  split <;> rfl

theorem hasBody_onBodyRead (result : ReadResult) :
    (onBodyRead call result).1.hasBody = call.hasBody := by
  unfold onBodyRead
  split <;> rfl

theorem hasBody_onPieceWritten (ec : Option ErrorCode) :
    (onPieceWritten call ec).1.hasBody = call.hasBody := by
  cases ec <;> rfl

theorem Underway.step (underway : Underway call.hasBody trace call.phase) {input : WriteInput}
    {result : WriteCall × List WriteEntry} (taken : writeStep call input = some result) :
    result.1.hasBody = call.hasBody ∧
      Underway call.hasBody (trace ++ result.2) result.1.phase := by
  rcases writeStep_cases taken with ⟨ec, phase, -, rfl⟩ | ⟨read, phase, rfl⟩ |
    ⟨data, ec, phase, rfl⟩ | ⟨ec, phase, rfl⟩ | ⟨ok, -, rfl⟩
  · rw [phase] at underway
    refine ⟨hasBody_onHeadersSent ec, ?_⟩
    rw [completing, ← List.singleton_append, ← List.append_assoc]
    exact underway_headersSent underway ec
  · rw [phase] at underway
    refine ⟨hasBody_onBodyRead read, ?_⟩
    rw [completing, ← List.singleton_append, ← List.append_assoc]
    exact underway_bodyRead underway read
  · rw [phase] at underway
    refine ⟨hasBody_onPieceWritten ec, ?_⟩
    rw [completing, ← List.singleton_append, ← List.append_assoc]
    exact underway_pieceWritten underway ec
  · rw [phase] at underway
    exact ⟨rfl, Ended.append underway rfl rfl rfl⟩
  · refine ⟨rfl, ?_⟩
    cases ok with
    | true =>
      rw [if_pos rfl, List.append_nil]
      exact underway
    | false => exact underway.moved _

theorem underway_of_runs {start : WriteCall} (sending : start.phase = .sending)
    (runs : Runs writeStep anyInput start trace call) :
    call.hasBody = start.hasBody ∧ Underway start.hasBody trace call.phase := by
  apply Runs.invariant ?_ ?_ runs
  · rw [sending]
    refine ⟨rfl, ⟨nofun, nofun⟩, ?_, ?_, rfl⟩
    · exact List.not_mem_nil
    · exact List.not_mem_nil
  · rintro trace call input next entries ⟨sameBody, underway⟩ _ taken
    rw [← sameBody] at underway
    rcases underway.step taken with ⟨sameBody', underway⟩
    rw [sameBody] at underway
    exact ⟨sameBody'.trans sameBody, underway⟩

/-- While nothing has been concluded, nothing has failed. -/
theorem Quiet.endsHonestly_iff (quiet : Quiet trace) :
    EndsHonestly hasBody trace ↔ ∀ entry ∈ trace, entry.failure = none := by
  refine iff_of_true ⟨quiet.concludesWhole, ?_⟩ quiet.clean
  intro entry isEntry ec isFailure
  rw [quiet.clean entry isEntry] at isFailure
  cases isFailure

theorem Ended.endsHonestly_iff (ended : Ended hasBody trace) :
    EndsHonestly hasBody trace ↔ ∀ entry ∈ trace, entry.failure = none := by
  cases ended with
  | whole clean _ concludes =>
    refine iff_of_true ⟨concludes, ?_⟩ clean
    intro entry isEntry ec isFailure
    rw [clean entry isEntry] at isFailure
    cases isFailure
  | failed someFailed notWhole =>
    apply iff_of_false
    · intro honest
      exact notWhole honest.whole
    · intro clean
      rcases someFailed with ⟨entry, isEntry, failed⟩
      exact failed (clean entry isEntry)

theorem Underway.endsHonestly_iff {phase : WritePhase} (underway : Underway hasBody trace phase) :
    EndsHonestly hasBody trace ↔ ∀ entry ∈ trace, entry.failure = none := by
  cases phase with
  | sending => exact underway.1.endsHonestly_iff
  | reading => exact underway.1.quiet.endsHonestly_iff
  | writing data => exact underway.1.quiet.endsHonestly_iff
  | shutting => exact Ended.endsHonestly_iff underway
  | done => exact Ended.endsHonestly_iff underway

end Steps

/--
At any time in a call of one of the writers, FIN and success stand only for whole messages
and failures have been reported exactly if there has not been a failure.
-/
theorem ends_honestly_iff (head : HttpRequestHead) (response : HttpResponseHead)
    {body : Option BodySource} {trace : List WriteEntry} {call : WriteCall}
    (runs : Runs writeStep anyInput (asyncWriteRequest head body) trace call ∨
      Runs writeStep anyInput (asyncWriteResponse response body) trace call) :
    EndsHonestly body.isSome trace ↔ ∀ entry ∈ trace, entry.failure = none := by
  rcases runs with runs | runs
  · exact (underway_of_runs rfl runs).2.endsHonestly_iff
  · exact (underway_of_runs rfl runs).2.endsHonestly_iff

/-- A request whose body is written in one piece. -/
theorem ends_honestly_written :
    ∃ trace call,
      Runs writeStep anyInput (asyncWriteRequest {} (some .streamEof)) trace call ∧
        .callback (.called none) ∈ trace ∧ EndsHonestly true trace := by
  have reached : (run writeStep (fun _ _ => true) (asyncWriteRequest {} (some .streamEof))
      [.headersSent none, .returns true, .bodyRead (.ok (ascii "hi")), .pieceWritten none,
        .bodyRead (.ok []), .shut none]).any (fun last =>
          decide (.callback (.called none) ∈ last.2 ∧ ∀ entry ∈ last.2, entry.failure = none)) =
            true := by
    decide +kernel
  rcases exists_runs_any reached with ⟨trace, call, runs, reported, clean⟩
  exact ⟨trace, call, runs, reported, (ends_honestly_iff {} {} (Or.inl runs)).mpr clean⟩

/-- The body of a response breaks off, and the response is ended as if it were whole. -/
theorem brokenBody_not_endsHonestly :
    ∃ trace call,
      Runs writeStep anyInput (asyncWriteResponse {} (some .streamEof)) trace
          call ∧
        .bodyRead (.error .connectionReset) ∈ trace ∧ .callback (.called none) ∈ trace ∧
        ¬EndsHonestly true trace := by
  have reached : (run writeStep (fun _ _ => true)
      (asyncWriteResponse {} (some .streamEof))
      [.headersSent none, .returns true, .bodyRead (.error .connectionReset), .shut none]).any
        (fun last => decide (.bodyRead (.error .connectionReset) ∈ last.2 ∧
          .callback (.called none) ∈ last.2)) = true := by
    decide +kernel
  rcases exists_runs_any reached with ⟨trace, call, runs, failed, reported⟩
  refine ⟨trace, call, runs, failed, reported, ?_⟩
  intro honest
  cases honest.reported _ failed _ rfl _ reported

end H3Codec

end ReverseProxy

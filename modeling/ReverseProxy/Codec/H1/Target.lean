import ReverseProxy.Codec.H1.Message
import ReverseProxy.Http1.Uri

/-!
# Classification of request targets

`parse_header_block` takes a target for an absolute URL when `://` occurs in it
anywhere behind its first byte, and ends the authority at the next slash.  RFC 9112
§3.2 tells the forms apart by how the target begins, and RFC 3986 §3.2 ends the
authority at a question mark as well.
-/

namespace Text

variable {α : Type} [DecidableEq α]

/-- A pattern is first found where it stands when its first symbol does not occur before. -/
theorem dropInfix?_of_fresh {before pattern : List α} {symbol : α} (fresh : symbol ∉ before)
    (after : List α) :
    (before ++ symbol :: pattern ++ after).dropInfix? (symbol :: pattern) =
      some (before, after) := by
  refine dropInfix?_eq_some_iff.mpr ⟨rfl, ?_⟩
  intro before' after' split
  have first := dropInfix?_singleton fresh (pattern ++ after)
  refine (dropInfix?_eq_some_iff.mp first).2 before' (pattern ++ after') ?_
  simpa using split

end Text

namespace ReverseProxy

open Text Rfc3986

namespace H1Codec

/-- The request-target of a block: the second word of its first line. -/
def requestTarget (raw : Bytes) : Bytes :=
  (extractWord (extractWord (stripCr ((getlines LF raw).headD []))).2).1

/-- The head tells the target's form and parts as the target itself does. -/
structure Classified (target : Bytes) (head : HttpRequestHead) : Prop where
  origin : target.head? = some SLASH → head.path = target ∧ head.absoluteTarget = false
  absolute : ∀ scheme authority rest, AbsoluteForm target scheme authority rest →
    head.absoluteTarget = true ∧ head.scheme = lower scheme ∧ head.authority = authority ∧
      head.path = originForm rest

/-! ## Absolute form -/

/-- Authority and path of what follows `://`. -/
def authorityAndPath (rest : Bytes) : Bytes × Bytes :=
  match rest.dropInfix? [SLASH] with
  | none => (rest, [SLASH])
  | some (authority, path) => (authority, SLASH :: path)

theorem absoluteForm?_of_found {target scheme rest : Bytes}
    (found : target.dropInfix? (ascii "://") = some (scheme, rest)) (named : scheme ≠ []) :
    absoluteForm? target = some (lower scheme, authorityAndPath rest) := by
  unfold absoluteForm? authorityAndPath
  rw [found]
  cases scheme with
  | nil => exact absurd rfl named
  | cons byte scheme =>
    simp only
    cases rest.dropInfix? [SLASH] with
    | none => rfl
    | some cut => rfl

theorem absoluteForm?_of_missing {target : Bytes} (missing : ¬ascii "://" <:+: target) :
    absoluteForm? target = none := by
  rw [← dropInfix?_eq_none_iff] at missing
  rw [absoluteForm?, missing]

/-- A target that begins with a slash is taken for an absolute URL when `://` is in it. -/
theorem absoluteForm?_eq_none_iff_of_slash {target : Bytes} (origin : target.head? = some SLASH) :
    absoluteForm? target = none ↔ ¬ascii "://" <:+: target := by
  refine ⟨?_, absoluteForm?_of_missing⟩
  intro notTaken occurs
  cases found : target.dropInfix? (ascii "://") with
  | none => exact dropInfix?_eq_none_iff.mp found occurs
  | some cut =>
    rcases cut with ⟨scheme, rest⟩
    have named : scheme ≠ [] := by
      rintro rfl
      rw [eq_of_dropInfix? found] at origin
      exact absurd origin (by simp [ascii, SLASH])
    rw [absoluteForm?_of_found found named] at notTaken
    exact absurd notTaken (by simp)

theorem absoluteForm?_of_absoluteForm {target scheme authority rest : Bytes}
    (form : AbsoluteForm target scheme authority rest) :
    absoluteForm? target = some (lower scheme, authorityAndPath (authority ++ rest)) := by
  have separator : ascii "://" = COLON :: ascii "//" := by decide
  have found : target.dropInfix? (ascii "://") = some (scheme, authority ++ rest) := by
    rw [form.parts, separator, List.append_assoc]
    exact dropInfix?_of_fresh (colon_not_mem_of_isScheme form.scheme) _
  refine absoluteForm?_of_found found ?_
  rintro rfl
  exact absurd form.scheme (by decide)

/-- The authority ends where it should unless a query follows it at once. -/
theorem authorityAndPath_eq_iff {target scheme authority rest : Bytes}
    (form : AbsoluteForm target scheme authority rest) :
    authorityAndPath (authority ++ rest) = (authority, originForm rest) ↔
      rest.head? ≠ some QUESTION := by
  unfold authorityAndPath
  cases rest with
  | nil =>
    have whole : authority.dropInfix? [SLASH] = none :=
      dropInfix?_singleton_eq_none_iff.mpr form.authority.1
    simp [whole, originForm]
  | cons byte rest =>
    rcases form.rest byte (by simp) with rfl | rfl
    · rw [dropInfix?_singleton form.authority.1]
      simp [originForm, SLASH, QUESTION]
    · -- The question mark is taken into the authority, whatever ends it.
      simp only [List.head?_cons, ne_eq, not_true_eq_false, iff_false]
      intro same
      cases found : (authority ++ QUESTION :: rest).dropInfix? [SLASH] with
      | none =>
        rw [found] at same
        have shorter := congrArg List.length (Prod.mk.inj same).1
        simp at shorter
      | some cut =>
        rcases cut with ⟨taken, path⟩
        rw [found] at same
        obtain rfl : taken = authority := (Prod.mk.inj same).1
        have split := (dropInfix?_singleton_eq_some_iff.mp found).1
        rw [List.append_cancel_left_eq, List.cons.injEq] at split
        exact absurd split.1 (by decide)

/-! ## The head -/

theorem requestHead_of_absoluteForm? {target scheme authority path : Bytes}
    (form : absoluteForm? target = some (scheme, authority, path)) (method version : Bytes)
    (headers : HeaderMap) :
    (requestHead method target version headers).absoluteTarget = true ∧
      (requestHead method target version headers).scheme = scheme ∧
      (requestHead method target version headers).authority = authority ∧
      (requestHead method target version headers).path = path := by
  rw [requestHead, form]
  exact ⟨rfl, rfl, rfl, rfl⟩

theorem requestHead_of_none {target : Bytes} (form : absoluteForm? target = none)
    (method version : Bytes) (headers : HeaderMap) :
    (requestHead method target version headers).absoluteTarget = false ∧
      (requestHead method target version headers).path = target := by
  rw [requestHead, form]
  exact ⟨rfl, rfl⟩

theorem exists_requestHead_of_parse {raw : Bytes} {head : HttpRequestHead}
    (parse : parseHeaderBlock raw = .ok head) :
    ∃ method version headers, head = requestHead method (requestTarget raw) version headers := by
  rcases parseHeaderBlock_eq_ok parse with
    ⟨line, lines, split, method, target, version, rfl, rfl, rfl, -, -, rfl⟩
  have second : requestTarget raw = (extractWord (extractWord (stripCr line)).2).1 := by
    rw [requestTarget, split, List.headD_cons]
  rw [second]
  exact ⟨_, _, _, rfl⟩

/--
The target of every accepted request line is classified as its form says exactly
when an origin-form target has no `://` in it and an absolute-form target has a path,
or nothing, behind its authority.
-/
theorem classified_iff {raw : Bytes} {head : HttpRequestHead}
    (parse : parseHeaderBlock raw = .ok head) :
    Classified (requestTarget raw) head ↔
      ((requestTarget raw).head? = some SLASH → ¬ascii "://" <:+: requestTarget raw) ∧
      ∀ scheme authority rest, AbsoluteForm (requestTarget raw) scheme authority rest →
        rest.head? ≠ some QUESTION := by
  rcases exists_requestHead_of_parse parse with ⟨method, version, headers, rfl⟩
  generalize requestTarget raw = target
  constructor
  · intro classified
    refine ⟨?_, ?_⟩
    · intro origin
      rw [← absoluteForm?_eq_none_iff_of_slash origin]
      cases form : absoluteForm? target with
      | none => rfl
      | some parts =>
        have absolute := (requestHead_of_absoluteForm? form method version headers).1
        rw [(classified.origin origin).2] at absolute
        exact absurd absolute (by decide)
    · intro scheme authority rest form
      rcases classified.absolute scheme authority rest form with ⟨-, -, isAuthority, isPath⟩
      have parts := requestHead_of_absoluteForm? (absoluteForm?_of_absoluteForm form) method
        version headers
      rw [← authorityAndPath_eq_iff form]
      exact Prod.ext (parts.2.2.1.symm.trans isAuthority) (parts.2.2.2.symm.trans isPath)
  · rintro ⟨noMark, noQuery⟩
    refine ⟨?_, ?_⟩
    · intro origin
      have form := (absoluteForm?_eq_none_iff_of_slash origin).mpr (noMark origin)
      exact (requestHead_of_none form method version headers).symm
    · intro scheme authority rest form
      have taken := absoluteForm?_of_absoluteForm form
      rw [(authorityAndPath_eq_iff form).mpr (noQuery scheme authority rest form)] at taken
      exact requestHead_of_absoluteForm? taken method version headers

/-- A target in origin-form. -/
def originBlock : Bytes :=
  ascii "GET /a?b HTTP/1.1\r\nHost: h\r\n\r\n"

theorem originBlock_classified :
    ∃ head, parseHeaderBlock originBlock = .ok head ∧
      Classified (requestTarget originBlock) head := by
  have target : requestTarget originBlock = SLASH :: ascii "a?b" := by decide
  refine ⟨_, rfl, (classified_iff rfl).mpr ⟨?_, ?_⟩⟩
  · intro _
    rw [← dropInfix?_eq_none_iff]
    decide
  · intro scheme authority rest form
    have parts := form.parts
    cases scheme with
    | nil => exact absurd form.scheme (by decide)
    | cons first scheme =>
      rw [target] at parts
      obtain rfl : SLASH = first := (List.cons.inj parts).1
      exact absurd (isAlpha_of_isScheme form.scheme) (by decide)

/-- An origin-form target with a URL in its query, and an absolute one without a path. -/
def nestedBlock : Bytes :=
  ascii "GET /login?next=http://evil/x HTTP/1.1\r\nHost: h\r\n\r\n"

/-- A target with no path. -/
def queryBlock : Bytes :=
  ascii "GET http://h?q HTTP/1.1\r\n\r\n"

theorem targets_not_classified :
    (∃ head, parseHeaderBlock nestedBlock = .ok head ∧ head.absoluteTarget = true ∧
      head.authority = ascii "evil" ∧ head.path = ascii "/x" ∧
      ¬Classified (requestTarget nestedBlock) head) ∧
    ∃ head, parseHeaderBlock queryBlock = .ok head ∧ head.authority = ascii "h?q" ∧
      head.path = ascii "/" ∧ ¬Classified (requestTarget queryBlock) head := by
  have nested : ∃ head, parseHeaderBlock nestedBlock = .ok head ∧ head.absoluteTarget = true ∧
      head.authority = ascii "evil" ∧ head.path = ascii "/x" :=
    ⟨_, rfl, by decide, by decide, by decide⟩
  have query : ∃ head, parseHeaderBlock queryBlock = .ok head ∧ head.authority = ascii "h?q" ∧
      head.path = ascii "/" := ⟨_, rfl, by decide, by decide⟩
  rcases nested with ⟨head, parse, absolute, isAuthority, isPath⟩
  rcases query with ⟨head', parse', isAuthority', isPath'⟩
  refine ⟨⟨head, parse, absolute, isAuthority, isPath, ?_⟩,
    head', parse', isAuthority', isPath', ?_⟩
  · intro classified
    have relative := (classified.origin (by decide)).2
    rw [absolute] at relative
    cases relative
  · intro classified
    have begins : (ascii "?q").head? = some QUESTION := by decide
    have form : AbsoluteForm (requestTarget queryBlock) (ascii "http") (ascii "h")
        (ascii "?q") := ⟨by decide, by decide, by decide, by simp [begins]⟩
    have same := (classified.absolute _ _ _ form).2.2.1
    rw [isAuthority'] at same
    exact absurd same (by decide)

end H1Codec

end ReverseProxy

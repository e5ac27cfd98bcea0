import ReverseProxy.Text.Search

/-!
# Lines of a text

Two ways of cutting a text into lines meet in a proxy.  A text stream is read
with `getline`, which ends a line at every newline symbol (`getlines`).  A
protocol grammar ends a line only at a two-symbol terminator and a section at
the first empty line (`takeSection?`).  The lemmas describe both on a text which has
been assembled line by line.
-/

namespace Text

universe u

variable {α : Type u} [DecidableEq α]

/-- The lines which repeated reads up to a newline symbol return, until nothing is left. -/
def getlines (newline : α) : List α → List (List α)
  | [] => []
  | symbol :: rest =>
    if symbol = newline then [] :: getlines newline rest
    else
      match getlines newline rest with
      | [] => [[symbol]]
      | line :: lines => (symbol :: line) :: lines

theorem getlines_append {newline : α} {line : List α} (fresh : newline ∉ line) (rest : List α) :
    getlines newline (line ++ newline :: rest) = line :: getlines newline rest := by
  induction line with
  | nil => simp [getlines]
  | cons symbol line ih =>
    simp only [List.mem_cons, not_or] at fresh
    simp [getlines, Ne.symm fresh.1, ih fresh.2]

theorem getlines_eq_nil_iff {newline : α} {text : List α} :
    getlines newline text = [] ↔ text = [] := by
  cases text with
  | nil => simp [getlines]
  | cons symbol rest =>
    simp only [getlines, reduceCtorEq, iff_false]
    split
    · simp
    · split <;> simp

theorem getlines_append_newline (newline : α) (before after : List α) :
    getlines newline (before ++ newline :: after) =
      getlines newline (before ++ [newline]) ++ getlines newline after := by
  induction before with
  | nil => simp [getlines]
  | cons symbol before ih =>
    by_cases isNewline : symbol = newline
    · simp [getlines, isNewline, ih]
    · have nonempty : getlines newline (before ++ [newline]) ≠ [] := by
        simp [getlines_eq_nil_iff]
      obtain ⟨line, lines, split⟩ := List.exists_cons_of_ne_nil nonempty
      simp [getlines, isNewline, ih, split]

theorem newline_not_mem_of_mem_getlines {newline : α} {text line : List α}
    (lineMem : line ∈ getlines newline text) : newline ∉ line := by
  induction text generalizing line with
  | nil => simp [getlines] at lineMem
  | cons symbol rest ih =>
    by_cases isNewline : symbol = newline
    · simp only [getlines, isNewline, if_true, List.mem_cons] at lineMem
      rcases lineMem with rfl | later
      · simp
      · exact ih later
    · cases lines : getlines newline rest with
      | nil =>
        simp only [getlines, isNewline, if_false, lines, List.mem_singleton] at lineMem
        subst line
        simpa using Ne.symm isNewline
      | cons first later =>
        simp only [getlines, isNewline, if_false, lines, List.mem_cons] at lineMem
        rcases lineMem with rfl | lineMem
        · have fresh : newline ∉ first := ih (by simp [lines])
          simp [fresh, Ne.symm isNewline]
        · exact ih (by simp [lines, lineMem])

/-- Appending the terminator to every line. -/
def unlines (terminator : List α) (lines : List (List α)) : List α :=
  lines.flatMap (· ++ terminator)

omit [DecidableEq α] in
@[simp]
theorem unlines_nil (terminator : List α) : unlines terminator [] = [] := rfl

omit [DecidableEq α] in
@[simp]
theorem unlines_cons (terminator line : List α) (lines : List (List α)) :
    unlines terminator (line :: lines) = line ++ terminator ++ unlines terminator lines := by
  simp [unlines]

omit [DecidableEq α] in
@[simp]
theorem unlines_append (terminator : List α) (first second : List (List α)) :
    unlines terminator (first ++ second) =
      unlines terminator first ++ unlines terminator second := by
  simp [unlines]

variable {lines : List (List α)}

/-- The lines of an assembled text keep the first symbol of their terminator. -/
theorem getlines_unlines {cr lf : α} (distinct : cr ≠ lf) (unbroken : ∀ line ∈ lines, lf ∉ line)
    (rest : List α) :
    getlines lf (unlines [cr, lf] lines ++ rest) =
      lines.map (· ++ [cr]) ++ getlines lf rest := by
  induction lines with
  | nil => simp
  | cons line lines ih =>
    have fresh : lf ∉ line ++ [cr] := by
      simp [unbroken line (by simp), distinct.symm]
    have first := getlines_append fresh (unlines [cr, lf] lines ++ rest)
    rw [ih fun later laterMem => unbroken later (by simp [laterMem])] at first
    simpa using first

/-- The first empty line of an assembled text is the one that ends it. -/
theorem dropInfix?_unlines {cr lf : α} (distinct : cr ≠ lf) (some : lines ≠ [])
    (unbroken : ∀ line ∈ lines, lf ∉ line) (nonempty : [] ∉ lines) :
    ∃ block, (unlines [cr, lf] lines ++ [cr, lf]).dropInfix? [cr, lf, cr, lf] =
      .some (block, []) := by
  have occurs : [cr, lf, cr, lf] <:+: unlines [cr, lf] lines ++ [cr, lf] := by
    obtain ⟨init, last, rfl⟩ := (List.eq_nil_or_concat lines).resolve_left some
    exact ⟨unlines [cr, lf] init ++ last, [], by simp⟩
  cases found : (unlines [cr, lf] lines ++ [cr, lf]).dropInfix? [cr, lf, cr, lf] with
  | none => exact absurd occurs (dropInfix?_eq_none_iff.mp found)
  | some cut =>
    obtain ⟨block, after⟩ := cut
    have split : unlines [cr, lf] lines ++ [cr, lf] =
        (block ++ [cr]) ++ lf :: ([cr] ++ lf :: after) := by
      simpa using eq_of_dropInfix? found
    have alone : lf ∉ [cr] := by simpa using distinct.symm
    have written := getlines_unlines distinct unbroken [cr, lf]
    have ending : getlines lf [cr, lf] = [[cr]] := by
      simpa [getlines] using getlines_append alone []
    rw [split, getlines_append_newline, getlines_append alone, ending] at written
    have last : after = [] := by
      by_contra more
      have nonnil : getlines lf after ≠ [] := fun empty =>
        more (getlines_eq_nil_iff.mp empty)
      obtain ⟨init, last, lines'⟩ := (List.eq_nil_or_concat _).resolve_left nonnil
      rw [lines', List.concat_eq_append, ← List.cons_append, ← List.append_assoc] at written
      have inside := (List.append_inj' written rfl).1
      have blank : [cr] ∈ lines.map (· ++ [cr]) := by
        rw [← inside]
        simp
      obtain ⟨line, lineMem, isBlank⟩ := List.mem_map.mp blank
      obtain rfl : line = [] := by simpa using isBlank
      exact nonempty lineMem
    exact ⟨block, by rw [last]⟩

section Terminated

variable (cr lf : α)

/--
Reads lines ended by the two symbols `cr lf` up to the first empty line, and
returns them with the text after it.  `line` holds the part of the current line
that has been read.
-/
def takeSection? (line : List α) : List α → Option (List (List α) × List α)
  | [] => none
  | [_] => none
  | first :: second :: rest =>
    if first = cr ∧ second = lf then
      if line = [] then some ([], rest)
      else (takeSection? [] rest).map fun parsed => (line :: parsed.1, parsed.2)
    else takeSection? (line ++ [first]) (second :: rest)

/-- The lines of a text without its final terminator. -/
def splitLines : List α → List (List α)
  | [] => [[]]
  | [symbol] => [[symbol]]
  | first :: second :: rest =>
    if first = cr ∧ second = lf then [] :: splitLines rest
    else
      match splitLines (second :: rest) with
      | [] => [[first]]
      | line :: lines => (first :: line) :: lines

/--
What `takeSection?` finds in a text given by its lines: the lines before the first
empty one, and everything after that.
-/
def sectionOf : List (List α) → List α → List (List α) × List α
  | [], body => ([], body)
  | [] :: lines, body => ([], unlines [cr, lf] lines ++ cr :: lf :: body)
  | line :: lines, body => (line :: (sectionOf lines body).1, (sectionOf lines body).2)

variable {cr lf}

theorem takeSection?_append_line (distinct : cr ≠ lf) {line : List α}
    (unbroken : ¬[cr, lf] <:+: line) (start rest : List α) :
    takeSection? cr lf start (line ++ cr :: lf :: rest) =
      if start ++ line = [] then some ([], rest)
      else (takeSection? cr lf [] rest).map fun parsed =>
        ((start ++ line) :: parsed.1, parsed.2) := by
  induction line generalizing start with
  | nil => simp [takeSection?]
  | cons symbol line ih =>
    have unbrokenTail : ¬[cr, lf] <:+: line := fun occurs =>
      unbroken (occurs.trans (List.suffix_cons symbol line).isInfix)
    have step : takeSection? cr lf start ((symbol :: line) ++ cr :: lf :: rest) =
        takeSection? cr lf (start ++ [symbol]) (line ++ cr :: lf :: rest) := by
      cases line with
      | nil =>
        have : ¬(symbol = cr ∧ cr = lf) := fun both => distinct both.2
        simp [takeSection?, this]
      | cons next line =>
        have : ¬(symbol = cr ∧ next = lf) := by
          rintro ⟨rfl, rfl⟩
          exact unbroken ⟨[], line, rfl⟩
        simp [takeSection?, this]
    rw [step, ih unbrokenTail]
    simp

/-- Reading back the lines of a text that ends in an empty line. -/
theorem takeSection?_unlines (distinct : cr ≠ lf) (unbroken : ∀ line ∈ lines, ¬[cr, lf] <:+: line)
    (body : List α) :
    takeSection? cr lf [] (unlines [cr, lf] lines ++ cr :: lf :: body) =
      some (sectionOf cr lf lines body) := by
  induction lines with
  | nil => simp [takeSection?, sectionOf]
  | cons line lines ih =>
    have tail := ih fun later laterMem => unbroken later (by simp [laterMem])
    have head := takeSection?_append_line distinct (unbroken line (by simp)) []
      (unlines [cr, lf] lines ++ cr :: lf :: body)
    simp only [List.nil_append, tail] at head
    cases line with
    | nil => simpa [sectionOf] using head
    | cons symbol line => simpa [sectionOf] using head

omit [DecidableEq α] in
theorem sectionOf_of_ne_nil (nonempty : [] ∉ lines) (body : List α) :
    sectionOf cr lf lines body = (lines, body) := by
  induction lines with
  | nil => rfl
  | cons line lines ih =>
    simp only [List.mem_cons, not_or] at nonempty
    cases line with
    | nil => exact absurd rfl nonempty.1
    | cons symbol line => simp [sectionOf, ih nonempty.2]

theorem splitLines_ne_nil (text : List α) : splitLines cr lf text ≠ [] := by
  induction text using splitLines.induct cr lf with
  | case1 => simp [splitLines]
  | case2 symbol => simp [splitLines]
  | case3 first second rest isTerminator ih => simp [splitLines, isTerminator]
  | case4 first second rest notTerminator empty ih => exact absurd empty ih
  | case5 first second rest notTerminator line lines split ih =>
    simp [splitLines, notTerminator, split]

omit [DecidableEq α] in
/-- A symbol that is no part of a line end does not complete one. -/
theorem unbroken_append_cons {symbol : α} (notCr : symbol ≠ cr) (notLf : symbol ≠ lf)
    {first second : List α} (left : ¬[cr, lf] <:+: first) (right : ¬[cr, lf] <:+: second) :
    ¬[cr, lf] <:+: first ++ symbol :: second := by
  induction first with
  | nil =>
    rw [List.nil_append, List.infix_cons_iff, List.cons_prefix_cons]
    rintro (⟨isCr, -⟩ | inside)
    · exact notCr isCr.symm
    · exact right inside
  | cons head first ih =>
    rw [List.infix_cons_iff, not_or] at left
    rw [List.cons_append, List.infix_cons_iff, List.cons_prefix_cons]
    rintro (⟨isCr, follows⟩ | inside)
    · cases first with
      | nil => exact notLf (List.cons_prefix_cons.mp follows).1.symm
      | cons next first =>
        have isLf := (List.cons_prefix_cons.mp follows).1
        exact left.1 (by simp [isCr, isLf])
    · exact ih left.2 inside

theorem splitLines_of_unbroken {text : List α} (unbroken : ¬[cr, lf] <:+: text) :
    splitLines cr lf text = [text] := by
  induction text using splitLines.induct cr lf with
  | case1 => rfl
  | case2 symbol => rfl
  | case3 first second rest isTerminator ih =>
    obtain ⟨rfl, rfl⟩ := isTerminator
    exact absurd ⟨[], rest, rfl⟩ unbroken
  | case4 first second rest notTerminator empty ih => exact absurd empty (splitLines_ne_nil _)
  | case5 first second rest notTerminator line lines split ih =>
    have tail := ih fun occurs =>
      unbroken (occurs.trans (List.suffix_cons first (second :: rest)).isInfix)
    simp [splitLines, notTerminator, tail]

theorem head_eq_of_splitLines {symbol head : α} {rest line : List α}
    (split : splitLines cr lf (symbol :: rest) = (head :: line) :: lines) : head = symbol := by
  cases rest with
  | nil =>
    simp only [splitLines, List.cons.injEq] at split
    exact split.1.1.symm
  | cons next rest =>
    simp only [splitLines] at split
    split at split
    · simp at split
    · split at split
      · simp only [List.cons.injEq] at split
        exact split.1.1.symm
      · simp only [List.cons.injEq] at split
        exact split.1.1.symm

theorem unbroken_of_mem_splitLines {text line : List α}
    (lineMem : line ∈ splitLines cr lf text) : ¬[cr, lf] <:+: line := by
  induction text using splitLines.induct cr lf generalizing line with
  | case1 =>
    simp only [splitLines, List.mem_singleton] at lineMem
    subst line
    simp
  | case2 symbol =>
    simp only [splitLines, List.mem_singleton] at lineMem
    subst line
    intro occurs
    simpa using occurs.length_le
  | case3 first second rest isTerminator ih =>
    simp only [splitLines, isTerminator, and_self, if_true, List.mem_cons] at lineMem
    rcases lineMem with rfl | later
    · simp
    · exact ih later
  | case4 first second rest notTerminator empty ih => exact absurd empty (splitLines_ne_nil _)
  | case5 first second rest notTerminator line' lines split ih =>
    simp only [splitLines, notTerminator, if_false, split, List.mem_cons] at lineMem
    rcases lineMem with rfl | later
    · rw [List.infix_cons_iff]
      rintro (starts | occurs)
      · obtain ⟨rest', same⟩ := starts
        simp only [List.cons_append, List.nil_append, List.cons.injEq] at same
        obtain ⟨rfl, rfl⟩ := same
        exact notTerminator ⟨rfl, (head_eq_of_splitLines split).symm⟩
      · exact ih (by simp [split]) occurs
    · exact ih (by simp [split, later])

theorem unlines_splitLines (text : List α) :
    unlines [cr, lf] (splitLines cr lf text) = text ++ [cr, lf] := by
  induction text using splitLines.induct cr lf with
  | case1 => simp [splitLines]
  | case2 symbol => simp [splitLines]
  | case3 first second rest isTerminator ih =>
    obtain ⟨rfl, rfl⟩ := isTerminator
    simp [splitLines, ih]
  | case4 first second rest notTerminator empty ih => exact absurd empty (splitLines_ne_nil _)
  | case5 first second rest notTerminator line lines split ih =>
    rw [split] at ih
    simp only [splitLines, notTerminator, if_false, split]
    simpa using ih

/-- Reading back a text assembled from parts, each of which may itself span several lines. -/
theorem takeSection?_unlines_parts (distinct : cr ≠ lf) (parts : List (List α)) (body : List α) :
    takeSection? cr lf [] (unlines [cr, lf] parts ++ cr :: lf :: body) =
      some (sectionOf cr lf (parts.flatMap (splitLines cr lf)) body) := by
  have flat : unlines [cr, lf] parts =
      unlines [cr, lf] (parts.flatMap (splitLines cr lf)) := by
    induction parts with
    | nil => rfl
    | cons text parts ih => simp [ih, unlines_splitLines]
  rw [flat]
  apply takeSection?_unlines distinct
  intro line lineMem
  obtain ⟨text, -, fromText⟩ := List.mem_flatMap.mp lineMem
  exact unbroken_of_mem_splitLines fromText

/-- The section is a part of the text; what follows it does not matter. -/
theorem takeSection?_eq_some {start text rest : List α}
    (taken : takeSection? cr lf start text = some (lines, rest)) :
    ∃ used, text = used ++ rest ∧
      ∀ other, takeSection? cr lf start (used ++ other) = some (lines, other) := by
  induction start, text using takeSection?.induct cr lf generalizing lines with
  | case1 start => simp [takeSection?] at taken
  | case2 start symbol => simp [takeSection?] at taken
  | case3 first second rest' isTerminator =>
    simp only [takeSection?, isTerminator, and_self, if_true, Option.some.injEq,
      Prod.mk.injEq] at taken
    rcases taken with ⟨rfl, rfl⟩
    rcases isTerminator with ⟨rfl, rfl⟩
    exact ⟨[first, second], rfl, by simp [takeSection?]⟩
  | case4 start first second rest' isTerminator nonempty ih =>
    simp only [takeSection?, isTerminator, and_self, if_true, nonempty, if_false,
      Option.map_eq_some_iff, Prod.mk.injEq] at taken
    rcases taken with ⟨⟨later, after⟩, takenLater, rfl, rfl⟩
    rcases ih takenLater with ⟨used, rfl, anyOther⟩
    rcases isTerminator with ⟨rfl, rfl⟩
    exact ⟨first :: second :: used, rfl, by simp [takeSection?, nonempty, anyOther]⟩
  | case5 start first second rest' notTerminator ih =>
    simp only [takeSection?, notTerminator, if_false] at taken
    rcases ih taken with ⟨used, same, anyOther⟩
    cases used with
    | nil =>
      have nothing := anyOther []
      simp [takeSection?] at nothing
    | cons symbol used =>
      simp only [List.cons_append, List.cons.injEq] at same
      rcases same with ⟨rfl, rfl⟩
      refine ⟨first :: second :: used, rfl, ?_⟩
      intro other
      simpa [takeSection?, notTerminator] using anyOther other

theorem takeSection?_append {start text rest : List α}
    (taken : takeSection? cr lf start text = some (lines, rest)) (more : List α) :
    takeSection? cr lf start (text ++ more) = some (lines, rest ++ more) := by
  rcases takeSection?_eq_some taken with ⟨used, rfl, anyOther⟩
  rw [List.append_assoc]
  exact anyOther _

/-- An empty line is at the start of the text or right behind another line. -/
theorem empty_of_mem_splitLines {text : List α} (empty : [] ∈ splitLines cr lf text) :
    [cr, lf] <+: text ++ [cr, lf] ∨ [cr, lf, cr, lf] <:+: text ++ [cr, lf] := by
  rw [← unlines_splitLines]
  rcases List.append_of_mem empty with ⟨before, after, split⟩
  rw [split]
  rcases List.eq_nil_or_concat before with rfl | ⟨init, last, rfl⟩
  · exact .inl ⟨unlines [cr, lf] after, by simp⟩
  · exact .inr ⟨unlines [cr, lf] init ++ last, unlines [cr, lf] after, by simp⟩

/-- The first double terminator of a text ends its section, unless the text starts with one. -/
theorem takeSection?_of_dropInfix? (distinct : cr ≠ lf) {text block after : List α}
    (found : text.dropInfix? [cr, lf, cr, lf] = some (block, after)) (begins : ¬[cr, lf] <+: text) :
    takeSection? cr lf [] text = some (splitLines cr lf block, after) := by
  rcases dropInfix?_eq_some_iff.mp found with ⟨split, first⟩
  have assembled : text = unlines [cr, lf] (splitLines cr lf block) ++ cr :: lf :: after := by
    rw [split, unlines_splitLines]
    simp
  have nonempty : [] ∉ splitLines cr lf block := by
    intro empty
    rcases empty_of_mem_splitLines empty with atStart | ⟨before, between, earlier⟩
    · apply begins
      rw [split]
      exact atStart.trans ⟨cr :: lf :: after, by simp⟩
    · have earlierInText : text = before ++ [cr, lf, cr, lf] ++ (between ++ cr :: lf :: after) := by
        rw [assembled, unlines_splitLines, ← earlier]
        simp
      have notLater := first _ _ earlierInText
      have lengths := congrArg List.length earlier
      simp only [List.length_append, List.length_cons, List.length_nil] at lengths
      omega
  rw [assembled, takeSection?_unlines distinct fun line => unbroken_of_mem_splitLines,
    sectionOf_of_ne_nil nonempty]

end Terminated

end Text

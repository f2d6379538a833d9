import ExprLang.Token.Scan

set_option autoImplicit false

/-!
What one step of a scan passes over and what it takes. Nothing is lost: the trivia, what stands
before the text that is taken, that text and the rest make up the text that was there.
-/

namespace ExprLang

/-- The text of a string literal, up to some place inside: no quote ends it, and every backslash
begins a known escape. -/
inductive StringLiteral.Opened : List Char → Prop where
  | nil : Opened []
  | plain {c : Char} {cs : List Char} (quote : c ≠ '"') (slash : c ≠ '\\') (more : Opened cs) :
    Opened (c :: cs)
  | escape {letter : Char} {cs : List Char} (known : (escaped? letter).isSome = true)
    (more : Opened cs) : Opened ('\\' :: letter :: cs)

namespace Scan

open Text

/-- White space and comments in front of `rest`. A comment ends with its line, and the last one may
run to the end of the source. -/
inductive Trivia : List Char → List Char → Prop where
  | nil {rest : List Char} : Trivia [] rest
  | blank {c : Char} {gap rest : List Char} (white : isBlank c = true) (more : Trivia gap rest) :
    Trivia (c :: gap) rest
  | comment (body : List Char) {gap rest : List Char} (line : '\n' ∉ body)
    (more : Trivia gap rest) : Trivia ('/' :: '/' :: (body ++ '\n' :: gap)) rest
  | last {body : List Char} (line : '\n' ∉ body) : Trivia ('/' :: '/' :: body) []

/-- A comment may be longer. -/
theorem Trivia.lengthen {c : Char} {gap rest : List Char} (other : c ≠ '\n')
    (h : Trivia ('/' :: '/' :: gap) rest) : Trivia ('/' :: '/' :: c :: gap) rest := by
  cases h with
  | blank white => exact absurd white (by rw [isBlank_slash]; exact Bool.false_ne_true)
  | comment body line more =>
    refine .comment (c :: body) ?_ more
    simp only [List.mem_cons, not_or]
    exact ⟨fun eq => other eq.symm, line⟩
  | last line =>
    refine .last ?_
    simp only [List.mem_cons, not_or]
    exact ⟨fun eq => other eq.symm, line⟩

/-- Skipping has come from `cs` at `offset` to the cursor by passing over `gap`. -/
structure Passed (cs : List Char) (offset : Nat) (gap : List Char) (after : Cursor) : Prop where
  whole : cs = gap ++ after.rest
  offset : after.offset = offset + byteSize gap

theorem Passed.cons {cs gap : List Char} {offset : Nat} {after : Cursor} (c : Char)
    (h : Passed cs (offset + c.utf8Size) gap after) : Passed (c :: cs) offset (c :: gap) after := by
  refine ⟨congrArg (c :: ·) h.whole, ?_⟩
  rw [h.offset, byteSize_cons, Nat.add_assoc]

/-- What is skipped is trivia; in a comment, it is the rest of the comment and the trivia after. -/
theorem skip_passes :
    (∀ offset cs, ∃ gap, Passed cs offset gap (skipTrivia offset cs) ∧
        Trivia gap (skipTrivia offset cs).rest) ∧
      ∀ offset cs, ∃ gap, Passed cs offset gap (skipComment offset cs) ∧
        Trivia ('/' :: '/' :: gap) (skipComment offset cs).rest := by
  apply skipTrivia.mutual_induct
  case case1 =>
    rintro offset cs ⟨gap, passed, trivia⟩
    rw [skipTrivia]
    exact ⟨'/' :: '/' :: gap, (passed.cons '/').cons '/', trivia⟩
  case case2 =>
    rintro offset c cs other white ⟨gap, passed, trivia⟩
    rw [skipTrivia, if_pos white]
    · exact ⟨c :: gap, passed.cons c, .blank white trivia⟩
    · exact other
  case case3 =>
    intro offset c cs other solid
    rw [skipTrivia, if_neg solid]
    · exact ⟨[], ⟨rfl, rfl⟩, .nil⟩
    · exact other
  case case4 =>
    intro offset
    rw [skipTrivia]
    exact ⟨[], ⟨rfl, rfl⟩, .nil⟩
  case case5 =>
    rintro offset cs ⟨gap, passed, trivia⟩
    rw [skipComment]
    exact ⟨'\n' :: gap, passed.cons '\n', .comment [] List.not_mem_nil trivia⟩
  case case6 =>
    rintro offset c cs other ⟨gap, passed, trivia⟩
    rw [skipComment]
    · exact ⟨c :: gap, passed.cons c, trivia.lengthen other⟩
    · exact other
  case case7 =>
    intro offset
    rw [skipComment]
    exact ⟨[], ⟨rfl, rfl⟩, .last List.not_mem_nil⟩

/-- A cut accounts for the whole text, and takes some of it. Only an unknown escape has text before
it, which is the string literal it breaks. -/
structure Cut.Covers (k : Cut) (cs : List Char) : Prop where
  whole : cs = k.before ++ k.taken ++ k.rest
  nonempty : k.taken ≠ []
  before : match k.found with
    | .error (.unknownEscape _) => ∃ body, k.before = '"' :: body ∧ StringLiteral.Opened body
    | _ => k.before = []

/-- How the text after an opening quote goes on, as far as it is looked at. -/
def StringEnd.Covers (cs : List Char) : StringEnd → Prop
  | closed body rest => cs = body ++ '"' :: rest ∧ StringLiteral.Opened body
  | unclosed => True
  | unknownEscape before letter rest =>
    cs = before ++ '\\' :: letter :: rest ∧ StringLiteral.Opened before

theorem StringEnd.Covers.plain {c : Char} {cs : List Char} {e : StringEnd} (quote : c ≠ '"')
    (slash : c ≠ '\\') (h : e.Covers cs) : (e.after [c]).Covers (c :: cs) := by
  cases e with
  | closed body rest => exact ⟨congrArg (c :: ·) h.1, .plain quote slash h.2⟩
  | unclosed => trivial
  | unknownEscape before letter rest => exact ⟨congrArg (c :: ·) h.1, .plain quote slash h.2⟩

theorem StringEnd.Covers.escape {letter : Char} {cs : List Char} {e : StringEnd}
    (known : (StringLiteral.escaped? letter).isSome = true) (h : e.Covers cs) :
    (e.after ['\\', letter]).Covers ('\\' :: letter :: cs) := by
  cases e with
  | closed body rest => exact ⟨congrArg ('\\' :: letter :: ·) h.1, .escape known h.2⟩
  | unclosed => trivial
  | unknownEscape before other rest =>
    exact ⟨congrArg ('\\' :: letter :: ·) h.1, .escape known h.2⟩

theorem findStringEnd_covers (cs : List Char) : (findStringEnd cs).Covers cs := by
  fun_induction findStringEnd cs with
  | case1 => trivial
  | case2 cs => exact ⟨rfl, .nil⟩
  | case3 => trivial
  | case4 letter cs known ih => exact ih.escape known
  | case5 letter cs _ => exact ⟨rfl, .nil⟩
  | case6 c cs quote lastSlash escape ih =>
    have slash : c ≠ '\\' := by
      cases cs with
      | nil => exact fun eq => lastSlash eq rfl
      | cons letter cs => exact fun eq => escape letter cs eq rfl
    exact ih.plain quote slash

theorem cutString_covers (cs : List Char) : (cutString cs).Covers ('"' :: cs) := by
  have ending := findStringEnd_covers cs
  unfold cutString
  split
  next body rest eq =>
    rw [eq] at ending
    refine ⟨?_, List.cons_ne_nil _ _, rfl⟩
    rw [ending.1]
    simp
  next => exact ⟨by simp, List.cons_ne_nil _ _, rfl⟩
  next before letter rest eq =>
    rw [eq] at ending
    refine ⟨?_, List.cons_ne_nil _ _, before, rfl, ending.2⟩
    rw [ending.1]
    simp

theorem takeWhile_ne_nil {p : Char → Bool} {c : Char} (h : p c = true) (cs : List Char) :
    (c :: cs).takeWhile p ≠ [] := by
  rw [List.takeWhile_cons_of_pos h]
  exact List.cons_ne_nil _ _

theorem cutNumber_covers {c : Char} (digit : c.isDigit = true) (cs : List Char) :
    (cutNumber (c :: cs)).Covers (c :: cs) := by
  have nonempty := takeWhile_ne_nil digit cs
  have whole : (c :: cs).takeWhile Char.isDigit ++ (c :: cs).dropWhile Char.isDigit = c :: cs :=
    List.takeWhile_append_dropWhile
  unfold cutNumber
  split
  next d rest point =>
    rw [point] at whole
    split
    · refine ⟨?_, ?_, rfl⟩
      · have fraction : (d :: rest).takeWhile Char.isDigit ++ (d :: rest).dropWhile Char.isDigit =
            d :: rest := List.takeWhile_append_dropWhile
        simp only [List.nil_append, List.append_assoc, List.cons_append, fraction, whole]
      · exact List.append_ne_nil_of_left_ne_nil nonempty _
    · exact ⟨whole.symm, nonempty, rfl⟩
  next => exact ⟨whole.symm, nonempty, rfl⟩

theorem cutWord_covers {c : Char} (alpha : c.isAlpha = true) (cs : List Char) :
    (cutWord (c :: cs)).Covers (c :: cs) := by
  refine ⟨?_, takeWhile_ne_nil alpha cs, rfl⟩
  simp only [cutWord, List.nil_append, List.takeWhile_append_dropWhile]

theorem cut_covers (c : Char) (cs : List Char) : (cut c cs).Covers (c :: cs) := by
  unfold cut
  split
  next s found =>
    have spelled : s.spelling.toList.isPrefixOf (c :: cs) = true :=
      List.find?_some (p := fun s : Symbol => s.spelling.toList.isPrefixOf (c :: cs)) found
    obtain ⟨rest, eq⟩ := List.isPrefixOf_iff_prefix.1 spelled
    refine ⟨?_, ?_, rfl⟩
    · rw [← eq, List.nil_append, List.drop_left]
    · exact List.ne_nil_of_length_pos s.spelling_length_pos
  next =>
    split
    next quote =>
      rw [quote]
      exact cutString_covers cs
    next =>
      split
      next digit => exact cutNumber_covers digit cs
      next =>
        split
        next alpha => exact cutWord_covers alpha cs
        next => exact ⟨rfl, List.cons_ne_nil _ _, rfl⟩

end Scan

end ExprLang

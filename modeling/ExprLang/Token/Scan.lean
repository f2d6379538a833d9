import ExprLang.Text.Blank
import ExprLang.Token.Basic

set_option autoImplicit false

/-!
Cutting a source into tokens. One step skips white space and comments and takes the longest token
that starts there; where none does, it reports the trouble and goes on right after it. Each step
leaves a shorter text, which is why a scan ends.
-/

namespace ExprLang

/-- Where reading stands in a source: the text that is left, and the offset at which it starts. -/
structure Cursor where
  rest : List Char
  offset : Nat

namespace Scan

open Text

mutual

/-- Passes over white space and comments at the front of a text. -/
def skipTrivia (offset : Nat) : List Char → Cursor
  | '/' :: '/' :: cs => skipComment (offset + 2) cs
  | c :: cs => if isBlank c then skipTrivia (offset + c.utf8Size) cs else ⟨c :: cs, offset⟩
  | [] => ⟨[], offset⟩

/-- Passes over the rest of a comment, which a newline ends, and over the trivia after it. -/
def skipComment (offset : Nat) : List Char → Cursor
  | '\n' :: cs => skipTrivia (offset + 1) cs
  | c :: cs => skipComment (offset + c.utf8Size) cs
  | [] => ⟨[], offset⟩

end

/-- What stands at the front of a text: `before` is passed over, `taken` is the text of the token
or of the trouble, and reading resumes at `rest`. -/
structure Cut where
  found : Except LexicalError TokenKind
  before : List Char
  taken : List Char
  rest : List Char

/-- How the text after an opening quote goes on. -/
inductive StringEnd where
  | closed (body rest : List Char)
  | unclosed
  | unknownEscape (before : List Char) (letter : Char) (rest : List Char)

/-- The same ending, seen from some characters further ahead. -/
def StringEnd.after (front : List Char) : StringEnd → StringEnd
  | closed body rest => closed (front ++ body) rest
  | unclosed => unclosed
  | unknownEscape before letter rest => unknownEscape (front ++ before) letter rest

/-- Looks for the quote that closes a string literal. -/
def findStringEnd : List Char → StringEnd
  | [] => .unclosed
  | '"' :: cs => .closed [] cs
  | '\\' :: [] => .unclosed
  | '\\' :: letter :: cs =>
    if (StringLiteral.escaped? letter).isSome then (findStringEnd cs).after ['\\', letter]
    else .unknownEscape [] letter cs
  | c :: cs => (findStringEnd cs).after [c]

/-- The string literal whose opening quote stands before `cs`. -/
def cutString (cs : List Char) : Cut :=
  match findStringEnd cs with
  | .closed body rest => ⟨.ok .string, [], '"' :: body ++ ['"'], rest⟩
  | .unclosed => ⟨.error .unclosedString, [], '"' :: cs, []⟩
  | .unknownEscape before letter rest =>
    ⟨.error (.unknownEscape letter), '"' :: before, ['\\', letter], rest⟩

/-- The number at the front of a text that starts with a digit. A point belongs to it only if a
digit follows. -/
def cutNumber (cs : List Char) : Cut :=
  let whole := cs.takeWhile Char.isDigit
  match cs.dropWhile Char.isDigit with
  | '.' :: d :: rest =>
    if d.isDigit then
      let fraction := (d :: rest).takeWhile Char.isDigit
      ⟨.ok .dec, [], whole ++ '.' :: fraction, (d :: rest).dropWhile Char.isDigit⟩
    else
      ⟨.ok .int, [], whole, '.' :: d :: rest⟩
  | rest => ⟨.ok .int, [], whole, rest⟩

/-- The keyword or identifier at the front of a text that starts with a letter. -/
def cutWord (cs : List Char) : Cut :=
  let word := cs.takeWhile Char.isAlpha
  let kind := match Keyword.ofWord? (String.ofList word) with
    | some k => TokenKind.keyword k
    | none => TokenKind.ident
  ⟨.ok kind, [], word, cs.dropWhile Char.isAlpha⟩

/-- The longest symbol at the front of a text. -/
def symbol? (cs : List Char) : Option Symbol :=
  Symbol.all.find? (·.spelling.toList.isPrefixOf cs)

/-- What stands at the front of a text that starts with neither white space nor a comment. -/
def cut (c : Char) (cs : List Char) : Cut :=
  match symbol? (c :: cs) with
  | some s =>
    ⟨.ok (.symbol s), [], s.spelling.toList, (c :: cs).drop s.spelling.toList.length⟩
  | none =>
    if c = '"' then cutString cs
    else if c.isDigit then cutNumber (c :: cs)
    else if c.isAlpha then cutWord (c :: cs)
    else ⟨.error (.unrecognized c), [], [c], cs⟩

/-- Skipping never adds text. -/
theorem skip_length_le :
    (∀ offset cs, (skipTrivia offset cs).rest.length ≤ cs.length) ∧
      ∀ offset cs, (skipComment offset cs).rest.length ≤ cs.length := by
  apply skipTrivia.mutual_induct <;> intros <;> grind [skipTrivia, skipComment]

/-- The rest of a string literal is no longer than the text that was looked through. -/
def StringEnd.Within (n : Nat) : StringEnd → Prop
  | closed _ rest => rest.length ≤ n
  | unclosed => True
  | unknownEscape _ _ rest => rest.length ≤ n

theorem StringEnd.Within.after {n m : Nat} {e : StringEnd} (front : List Char)
    (h : e.Within n) (le : n ≤ m) : (e.after front).Within m := by
  cases e <;> simp_all only [StringEnd.after, StringEnd.Within] <;> omega

theorem findStringEnd_within (cs : List Char) : (findStringEnd cs).Within cs.length := by
  fun_induction findStringEnd cs with
  | case1 => trivial
  | case2 cs => exact Nat.le_succ _
  | case3 => trivial
  | case4 letter cs _ ih => exact ih.after _ (by simp; omega)
  | case5 letter cs _ => simp only [StringEnd.Within, List.length_cons]; omega
  | case6 c cs _ _ _ ih => exact ih.after _ (by simp)

theorem dropWhile_length_lt {p : Char → Bool} {c : Char} (h : p c = true) (cs : List Char) :
    ((c :: cs).dropWhile p).length < (c :: cs).length := by
  have := (List.dropWhile_suffix (l := cs) p).length_le
  simp only [List.dropWhile_cons, h, ↓reduceIte, List.length_cons]
  omega

theorem cutNumber_rest {c : Char} (h : c.isDigit = true) (cs : List Char) :
    (cutNumber (c :: cs)).rest.length < (c :: cs).length := by
  have shorter := dropWhile_length_lt h cs
  unfold cutNumber
  split
  next d rest eq =>
    rw [eq] at shorter
    split
    · have := (List.dropWhile_suffix (l := d :: rest) Char.isDigit).length_le
      simp only [List.length_cons] at *
      omega
    · exact shorter
  next => exact shorter

theorem cut_rest_length_lt (c : Char) (cs : List Char) :
    (cut c cs).rest.length < (c :: cs).length := by
  unfold cut
  split
  next s _ =>
    have := s.spelling_length_pos
    simp only [List.length_drop, List.length_cons]
    omega
  next =>
    split
    · have within := findStringEnd_within cs
      unfold cutString
      split
      next eq => rw [eq] at within; exact Nat.lt_succ_of_le within
      next => exact Nat.succ_pos _
      next eq => rw [eq] at within; exact Nat.lt_succ_of_le within
    · split
      next digit => exact cutNumber_rest digit cs
      next =>
        split
        next alpha => exact dropWhile_length_lt alpha cs
        next => exact Nat.lt_succ_self _

end Scan

namespace Cursor

open Scan

def ofSource (source : String) : Cursor :=
  ⟨source.toList, 0⟩

/-- The next item and where to go on after it; nothing if only trivia is left. -/
def next? (c : Cursor) : Option (Item × Cursor) :=
  match skipTrivia c.offset c.rest with
  | ⟨[], _⟩ => none
  | ⟨d :: ds, offset⟩ =>
    let front := cut d ds
    let start := offset + Text.byteSize front.before
    let stop := start + Text.byteSize front.taken
    let span := Span.ofRange start stop
    let item := match front.found with
      | .ok kind => .ok ⟨kind, span⟩
      | .error cause => .error ⟨cause, span⟩
    some (item, ⟨front.rest, stop⟩)

/-- Reads one item; at the end of the text this is the end mark, over and over. -/
def next (c : Cursor) : Item × Cursor :=
  match c.next? with
  | some step => step
  | none =>
    let stop := (skipTrivia c.offset c.rest).offset
    (.ok (.endOfText stop), ⟨[], stop⟩)

theorem next?_shorter {c c' : Cursor} {item : Item} (h : c.next? = some (item, c')) :
    c'.rest.length < c.rest.length := by
  have skipped := skip_length_le.1 c.offset c.rest
  unfold next? at h
  split at h
  next => simp at h
  next d ds offset eq =>
    rw [eq] at skipped
    have := cut_rest_length_lt d ds
    simp only [Option.some.injEq, Prod.mk.injEq] at h
    rw [← h.2]
    exact Nat.lt_of_lt_of_le this skipped

/-- Everything there is to read, without the end mark. -/
def items (c : Cursor) : List Item :=
  match _h : c.next? with
  | none => []
  | some (item, c') => item :: items c'
termination_by c.rest.length
decreasing_by exact next?_shorter _h

end Cursor

/-- What scanning a source yields, and the mark that ends it. -/
structure Stream where
  items : List Item
  eof : Token

def Stream.ofSource (source : String) : Stream :=
  ⟨(Cursor.ofSource source).items, .endOfText source.utf8ByteSize⟩

end ExprLang

import ExprLang.Proofs.Lexemes
import ExprLang.Proofs.NestingLimit
import ExprLang.Proofs.Spans.Geometry

set_option autoImplicit false

/-!
Sources that are too long for their offsets. After so many blanks that offsets start over, the
tokens of a text have the spans that they have without the blanks. What stands there in the source
are blanks, and so the parser reads blanks for every name and every literal.
-/

namespace ExprLang

open Text

/-- The text, after so many blanks. -/
def afterBlanks (n : Nat) (text : String) : String :=
  String.ofList (List.replicate n ' ' ++ text.toList)

/-- As many blanks as the text has bytes. -/
def blotted (text : String) : String :=
  String.ofList (List.replicate text.utf8ByteSize ' ')

/-! ### Offsets start over -/

namespace Scan

/-- Where trivia end does not depend on where the text starts. -/
theorem skipTrivia_shift (k : Nat) :
    (∀ offset cs, skipTrivia (k + offset) cs =
      ⟨(skipTrivia offset cs).rest, k + (skipTrivia offset cs).offset⟩) ∧
    ∀ offset cs, skipComment (k + offset) cs =
      ⟨(skipComment offset cs).rest, k + (skipComment offset cs).offset⟩ := by
  apply skipTrivia.mutual_induct <;> intros <;> grind [skipTrivia, skipComment]

end Scan

namespace Cursor

/-- Further on by as much as makes offsets start over, a cursor reads the same item. -/
theorem next?_wraps {n : Nat} (full : n = UInt32.size) (cs : List Char) (offset : Nat) :
    (mk cs (n + offset)).next? =
      (mk cs offset).next?.map fun step => (step.1, ⟨step.2.rest, n + step.2.offset⟩) := by
  have shift := (Scan.skipTrivia_shift n).1 offset cs
  unfold next?
  dsimp only
  rw [shift]
  obtain ⟨rest, start⟩ := Scan.skipTrivia offset cs
  cases rest with
  | nil => rfl
  | cons d ds =>
    dsimp only [Option.map_some]
    rw [Nat.add_assoc n, Nat.add_assoc n, Span.ofRange_wraps full]

theorem items_wraps {n : Nat} (full : n = UInt32.size) (c : Cursor) :
    (mk c.rest (n + c.offset)).items = c.items := by
  fun_induction items c with
  | case1 c none =>
    apply items_of_none
    rw [next?_wraps full, show (mk c.rest c.offset).next? = _ from none]
    rfl
  | case2 c item c' found ih =>
    have step := next?_wraps full c.rest c.offset
    rw [show (mk c.rest c.offset).next? = _ from found] at step
    rw [items_of_some step, ih]

end Cursor

/-- The tokens and the end mark are where they would be without the blanks. -/
theorem Stream.ofSource_afterBlanks {n : Nat} (full : n = UInt32.size) (text : String) :
    Stream.ofSource (afterBlanks n text) = Stream.ofSource text := by
  have whole : (afterBlanks n text).toList = List.replicate n ' ' ++ text.toList :=
    String.toList_ofList
  have size : (afterBlanks n text).utf8ByteSize = n + text.utf8ByteSize := by
    rw [← byteSize_toList, whole, byteSize_append, byteSize_replicate, byteSize_toList]
  have items : (Cursor.ofSource (afterBlanks n text)).items = (Cursor.ofSource text).items := by
    rw [Cursor.ofSource, whole, (Spacing.replicate _).items, byteSize_replicate, Nat.zero_add]
    exact Cursor.items_wraps full (Cursor.ofSource text)
  have eof : Token.endOfText (n + text.utf8ByteSize) = Token.endOfText text.utf8ByteSize :=
    congrArg (Token.mk .eof) (Span.ofRange_wraps full _ _)
  rw [Stream.ofSource, Stream.ofSource, items, size, eof]

/-! ### Blanks are found there -/

/-- Among blanks at the front of a source, a span covers blanks. -/
theorem Span.text?_replicate {s : Span} (ordered : s.start.toNat ≤ s.stop.toNat) {n : Nat}
    (inside : s.stop.toNat ≤ n) (rest : List Char) :
    s.text? (String.ofList (List.replicate n ' ' ++ rest)) =
      some (String.ofList (List.replicate (s.stop.toNat - s.start.toNat) ' ')) := by
  obtain ⟨more, rfl⟩ := Nat.exists_eq_add_of_le inside
  obtain ⟨length, stop⟩ := Nat.exists_eq_add_of_le ordered
  have covered : s.stop.toNat - s.start.toNat = length := by omega
  have whole : (String.ofList (List.replicate (s.stop.toNat + more) ' ' ++ rest)).toList =
      List.replicate s.start.toNat ' ' ++ List.replicate length ' ' ++
        (List.replicate more ' ' ++ rest) := by
    rw [String.toList_ofList, stop, List.replicate_add, List.replicate_add]
    simp only [List.append_assoc]
  rw [covered]
  apply text?_of_parts whole
  · rw [byteSize_replicate]
  · rw [byteSize_append, byteSize_replicate, byteSize_replicate, stop]

/-- In the source with the blanks in front, tokens have the lexemes that they have in nothing but
blanks. -/
theorem Token.lexeme_afterBlanks {n : Nat} (full : n = UInt32.size) {text : String}
    (small : text.utf8ByteSize < UInt32.size) {token : Token}
    (inside : .ok token ∈ (Stream.ofSource text).items) :
    token.lexeme (afterBlanks n text) = token.lexeme (blotted text) := by
  have solid := ((Cursor.solid_items small (Cursor.stands_ofSource text)).1 _ inside).1
  have ordered : token.span.start.toNat ≤ token.span.stop.toNat := solid.inside.ordered
  have within : token.span.stop.toNat ≤ text.utf8ByteSize := by
    obtain ⟨before, after, whole, size⟩ := solid.inside.stop
    rw [← byteSize_toList, whole, byteSize_append]
    exact Nat.le_trans (Nat.le_of_eq size.symm) (Nat.le_add_right ..)
  have room : token.span.stop.toNat ≤ n := by omega
  have far := Span.text?_replicate ordered room text.toList
  have near := Span.text?_replicate ordered within []
  rw [List.append_nil] at near
  rw [Token.lexeme, Token.lexeme, afterBlanks, far, blotted, near]

/-! ### What is read -/

namespace Parser

/-- Before the tokens of a text, with a source in which nothing but blanks is found. -/
def ofBlotted (text : String) : Parser :=
  { ofSource text with source := blotted text }

theorem near_afterBlanks {n : Nat} (full : n = UInt32.size) {text : String}
    (small : text.utf8ByteSize < UInt32.size) :
    (ofSource (afterBlanks n text)).Near (.inPlace (afterBlanks n text) (blotted text))
      (ofBlotted text) := by
  have stream := Stream.ofSource_afterBlanks full text
  refine ⟨rfl, rfl, ?_, ?_, ?_, .inr ⟨rfl, Nat.le_refl _⟩⟩
  · show List.Forall₂ _ (Stream.ofSource (afterBlanks n text)).items (Stream.ofSource text).items
    rw [stream, List.forall₂_same]
    intro item inside
    cases item with
    | ok token => exact .ok ⟨rfl, rfl, (Token.lexeme_afterBlanks full small inside).symm⟩
    | error => exact .error rfl rfl
  · rfl
  · exact congrArg (·.eof.span) stream.symm

end Parser

open ExprLang.Parser in
/-- After so many blanks that offsets start over, a text is read as if there were blanks in the
place of its tokens, unless the nesting is too deep. -/
theorem Program.parse_afterBlanks {n : Nat} (full : n = UInt32.size) {text : String}
    (small : text.utf8ByteSize < UInt32.size)
    (shallow : gaveUp (ofBlotted text).program = false) :
    Program.parse (afterBlanks n text) = result (ofBlotted text).program := by
  have read := (program_parallel (near_afterBlanks full small)).mono fun r s same => by
    rwa [Comparison.inPlace, Program.respan, Program.respan, Expr.respanAll_id, Expr.respanAll_id,
      eq_comm] at same
  rw [← (ReadsNear.agree read shallow).1]
  unfold Program.parse
  cases (ofSource (afterBlanks n text)).program <;> rfl

/-- A literal that is too far behind for its offset is looked for among the blanks. -/
theorem Program.parse_distantLiteral {n : Nat} (full : n = UInt32.size) :
    Program.parse (afterBlanks n "1;") = .error ⟨.invalidLiteral " ", ⟨0, 1⟩⟩ := by
  rw [Program.parse_afterBlanks full (by decide +kernel) (by decide +kernel)]
  with_unfolding_all rfl

end ExprLang

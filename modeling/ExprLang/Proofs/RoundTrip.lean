import ExprLang.Proofs.LongSources
import ExprLang.Proofs.RoundTrip.Grammar
import ExprLang.Proofs.RoundTrip.Reading
import ExprLang.Proofs.RoundTrip.Rendered

set_option autoImplicit false

/-!
Writing a program and reading it again gives the program, up to places. This holds of everything
that can be read, as long as its literals can be written and no operand needs brackets that are not
written; the brackets that are written can make the nesting too deep. Both texts have to be short
enough for their offsets, since names and literals are read through their spans.
-/

namespace ExprLang

theorem Parser.legal_ofSource {text : String} (small : text.utf8ByteSize < UInt32.size) :
    (Parser.ofSource text).Legal := by
  intro token inside kind
  have lexeme := Cursor.lexeme_of_mem_items small (Cursor.stands_ofSource text) inside
  rw [kind] at lexeme
  generalize spelled : (token.lexeme text).toList = cs at lexeme
  cases lexeme with
  | name proper =>
    obtain rfl := String.toList_inj.1 spelled
    exact proper

/-- Every statement that is read is regular. -/
theorem Program.regular_of_parse {text : String} (small : text.utf8ByteSize < UInt32.size)
    {p : Program} (parsed : Program.parse text = .ok p) : ∀ s ∈ p, s.Everywhere Expr.Regular := by
  obtain ⟨q, reaches⟩ := Program.reaches_of_parse parsed
  exact (reaches.regular (Parser.legal_ofSource small)).1

theorem Parser.holds_ofSource {text : String} {words : List Word} (h : Lexes text.toList words)
    (small : text.utf8ByteSize < UInt32.size) : (Parser.ofSource text).Holds words :=
  ⟨h.words_ofSource small, rfl⟩

/-- The text that is written for a program is read as the same program up to places, unless its
nesting is too deep. -/
theorem Program.reads_source {text : String} (small : text.utf8ByteSize < UInt32.size)
    {p : Program} (parsed : Program.parse text = .ok p) (plain : ∀ s ∈ p, s.Everywhere Expr.Plain)
    (small' : p.source.utf8ByteSize < UInt32.size) :
    Parser.Reads (Parser.ofSource p.source).program (fun q => q.bare = p.bare) [] := by
  have regular := Program.regular_of_parse small parsed
  apply Parser.program_reads
  · intro s inside
    exact Parser.readBack (regular s inside) (plain s inside)
  · exact Parser.holds_ofSource (Program.lexes_source regular plain) small'

/-- A program that was read from a source is read again from the source that is written for it. -/
theorem parse_source_of_parse {text : String} (small : text.utf8ByteSize < UInt32.size)
    {p : Program} (parsed : Program.parse text = .ok p) (plain : ∀ s ∈ p, s.Everywhere Expr.Plain)
    (small' : p.source.utf8ByteSize < UInt32.size) :
    (∃ q, Program.parse p.source = .ok q ∧ q.bare = p.bare) ∨
      ∃ error, Program.parse p.source = .error error ∧ error.cause = .tooDeep := by
  have reads := Program.reads_source small parsed plain small'
  unfold Program.parse
  cases read : (Parser.ofSource p.source).program with
  | ok found =>
    rw [read] at reads
    exact .inl ⟨found.value, rfl, reads.1⟩
  | error failure =>
    rw [read] at reads
    exact .inr ⟨failure.error, rfl, reads⟩

section Lowered

/-- A name lowered by a decimal below zero, and an escape in a string. -/
def lowered : Program :=
  [.assign ⟨"x", ⟨4, 1⟩⟩
    (.binary .subtract (.name ⟨"x", ⟨4, 1⟩⟩ ⟨4, 1⟩)
      (.unary .minus (.literal (.dec ⟨5, 2⟩) ⟨10, 4⟩) ⟨9, 5⟩) ⟨4, 10⟩) ⟨0, 14⟩,
   .exit .return_ (some (.call ⟨"f", ⟨23, 1⟩⟩ [.literal (.str "\n") ⟨25, 4⟩] ⟨23, 7⟩)) ⟨16, 14⟩]

theorem parse_source_of_lowered :
    Program.parse "set x -= -0.05; return f(\"\\n\");" = .ok lowered ∧
      ((∃ q, Program.parse lowered.source = .ok q ∧ q.bare = lowered.bare) ∨
        ∃ error, Program.parse lowered.source = .error error ∧ error.cause = .tooDeep) := by
  have parsed : Program.parse "set x -= -0.05; return f(\"\\n\");" = .ok lowered := by
    with_unfolding_all rfl
  exact ⟨parsed,
    parse_source_of_parse (by decide +kernel) parsed (by decide +kernel) (by decide +kernel)⟩

end Lowered

section Lost

/-- A blank for a name, as it is read where the offset of the name has started over. -/
def lostName : Program :=
  [.name ⟨" ", ⟨0, 1⟩⟩ ⟨0, 1⟩]

/-- Too far behind for its offset, a name is read as a blank. Written, it is no statement. -/
theorem distant_name_is_lost :
    Program.parse (afterBlanks UInt32.size "x;") = .ok lostName ∧
      (∀ s ∈ lostName, s.Everywhere Expr.Plain) ∧
      lostName.source.utf8ByteSize < UInt32.size ∧
      Program.parse lostName.source = .ok [] ∧
      ¬ ((∃ q, Program.parse lostName.source = .ok q ∧ q.bare = lostName.bare) ∨
        ∃ error, Program.parse lostName.source = .error error ∧ error.cause = .tooDeep) := by
  have empty : Program.parse lostName.source = .ok [] := by
    with_unfolding_all rfl
  refine ⟨?_, by decide +kernel, by decide +kernel, empty, ?_⟩
  · rw [Program.parse_afterBlanks rfl (by decide +kernel) (by decide +kernel)]
    with_unfolding_all rfl
  · rw [empty]
    rintro (⟨q, parsed, same⟩ | ⟨error, failed, -⟩)
    · cases parsed
      cases same
    · cases failed

end Lost

end ExprLang

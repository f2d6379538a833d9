import ExprLang.Proofs.Grammar.Completeness
import ExprLang.Proofs.Grammar.Soundness
import ExprLang.Proofs.LongSources

set_option autoImplicit false

/-!
The parser reads exactly what the grammar allows, as far as nesting goes and as long as offsets tell
where the literals stand.
-/

namespace ExprLang

theorem Parser.unended_ofSource (source : String) : (Parser.ofSource source).Unended := by
  intro token inside
  exact of_decide_eq_false (Cursor.isEnd_of_mem_items inside)

theorem Parser.offers_ofSource {source : String} (small : source.utf8ByteSize < UInt32.size)
    {tokens : List Token} (scanned : (Stream.ofSource source).items = tokens.map .ok) :
    (Parser.ofSource source).Offers (tokens.map (·.kind)) := by
  refine ⟨tokens.map (Token.word source), ⟨⟨tokens, scanned, rfl⟩, rfl⟩, ?_, ?_⟩
  · rw [List.map_map]
    rfl
  · intro word inside
    obtain ⟨token, among, rfl⟩ := List.mem_map.1 inside
    have item : .ok token ∈ (Stream.ofSource source).items := by
      rw [scanned]
      exact List.mem_map_of_mem among
    have lexeme := Cursor.lexeme_of_mem_items small (Cursor.stands_ofSource source) item
    have denotes := lexeme.denotes
    rwa [String.ofList_toList] at denotes

/-- The source has no lexical error, and its tokens are a program of the grammar. -/
def Derivable (source : String) : Prop :=
  ∃ tokens : List Token, (Stream.ofSource source).items = tokens.map .ok ∧
    Derives .program (tokens.map (·.kind))

/-- A source that is read as a program is one of the grammar. -/
theorem Derivable.of_parse {source : String} {p : Program} (parsed : Program.parse source = .ok p) :
    Derivable source := by
  obtain ⟨q, reaches⟩ := Program.reaches_of_parse parsed
  obtain ⟨⟨_, ⟨tokens, used, rfl⟩, program⟩, last⟩ :=
    reaches.program_takes (Parser.unended_ofSource source)
  rw [last, List.append_nil] at used
  exact ⟨tokens, used, program⟩

/-- The grammar allows exactly the sources that are read as programs, unless the nesting is too deep
or a source that it allows is too long for its offsets. -/
theorem parse_ok_iff_derives {source : String}
    (shallow : ∀ error, Program.parse source = .error error → error.cause ≠ .tooDeep) :
    ((∃ p, Program.parse source = .ok p) → Derivable source) ∧
      (source.utf8ByteSize < UInt32.size →
        Derivable source → ∃ p, Program.parse source = .ok p) := by
  constructor
  · rintro ⟨p, parsed⟩
    exact .of_parse parsed
  · rintro small ⟨tokens, scanned, program⟩
    unfold Program.parse at shallow ⊢
    have leads := Parser.program_leads program (Parser.offers_ofSource small scanned)
    cases read : (Parser.ofSource source).program with
    | error failure =>
      rw [read] at leads shallow
      exact absurd leads (shallow _ rfl)
    | ok r => exact ⟨r.value, rfl⟩

section Countdown

/-- A loop with spare semicolons and commas, and a last statement that has no semicolon. -/
def countdownText : String :=
  "for var i int is 3, const k int is -1 \x7b; set i += k;; print([i,],);
    if not -i < 0 then \x7bbreak i\x7d else if true then \x7b;\x7d\x7d;"

theorem countdown_derives :
    countdownText.utf8ByteSize < UInt32.size ∧ Derivable countdownText ∧
      ∃ p, Program.parse countdownText = .ok p := by
  have read : (Program.parse countdownText).toOption.isSome = true := by
    decide +kernel
  have parsed : ∃ p, Program.parse countdownText = .ok p := by
    cases eq : Program.parse countdownText with
    | ok p => exact ⟨p, rfl⟩
    | error =>
      rw [eq] at read
      cases read
  have small : countdownText.utf8ByteSize < UInt32.size := by decide +kernel
  have both := @parse_ok_iff_derives countdownText fun error refused => by
    obtain ⟨p, accepted⟩ := parsed
    rw [accepted] at refused
    cases refused
  exact ⟨small, both.1 parsed, both.2 small (both.1 parsed)⟩

end Countdown

/-- Too far behind for its offset, a literal is looked for among the blanks before it, and a source
of the grammar is refused. -/
theorem distant_literal_is_refused :
    Derivable (afterBlanks UInt32.size "1;") ∧
      Program.parse (afterBlanks UInt32.size "1;") = .error ⟨.invalidLiteral " ", ⟨0, 1⟩⟩ := by
  constructor
  · have parsed : Program.parse "1;" = .ok [.literal (.int 1) ⟨0, 1⟩] := by
      with_unfolding_all rfl
    have near := Derivable.of_parse parsed
    rwa [Derivable, ← Stream.ofSource_afterBlanks rfl] at near
  · exact Program.parse_distantLiteral rfl

end ExprLang

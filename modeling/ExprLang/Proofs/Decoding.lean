import ExprLang.Proofs.Complaints
import ExprLang.Proofs.LongSources

set_option autoImplicit false

/-!
Scanning and decoding agree. What the scan takes for a literal always has a value, so that the
parser never meets one without; and what has a value as a string literal is a single token, unless a
quote inside ends it too early.
-/

namespace ExprLang

/-! ### Escaped places -/

namespace StringLiteral

/-- The number of backslashes at the end of a text. -/
def slashesAtEnd (before : List Char) : Nat :=
  (before.reverse.takeWhile (· = '\\')).length

/-- Whether the character after the text is escaped: in a row of backslashes, each escapes the next
one, and the last of an odd number escapes what follows. -/
def Escapes (before : List Char) : Prop :=
  slashesAtEnd before % 2 = 1

theorem slashesAtEnd_slash (before : List Char) :
    slashesAtEnd (before ++ ['\\']) = slashesAtEnd before + 1 := by
  simp [slashesAtEnd]

theorem slashesAtEnd_other (before : List Char) {c : Char} (other : c ≠ '\\') :
    slashesAtEnd (before ++ [c]) = 0 := by
  simp [slashesAtEnd, other]

theorem escapes_slash {before : List Char} : Escapes (before ++ ['\\']) ↔ ¬ Escapes before := by
  unfold Escapes
  rw [slashesAtEnd_slash]
  omega

theorem not_escapes_other (before : List Char) {c : Char} (other : c ≠ '\\') :
    ¬ Escapes (before ++ [c]) := by
  unfold Escapes
  rw [slashesAtEnd_other before other]
  omega

/-- After an escape nothing is escaped. -/
theorem not_escapes_escape {before : List Char} (free : ¬ Escapes before) (letter : Char) :
    ¬ Escapes (before ++ ['\\', letter]) := by
  have split : before ++ ['\\', letter] = before ++ ['\\'] ++ [letter] := by simp
  rw [split]
  by_cases slash : letter = '\\'
  · rw [slash, escapes_slash, escapes_slash]
    exact not_not_intro free
  · exact not_escapes_other _ slash

/-- Every quote in the second text is escaped, where the first one stands before it. -/
def QuotesEscaped (before cs : List Char) : Prop :=
  ∀ front rest, cs = front ++ '"' :: rest → Escapes (before ++ front)

theorem QuotesEscaped.drop {before front cs : List Char}
    (h : QuotesEscaped before (front ++ cs)) : QuotesEscaped (before ++ front) cs := by
  intro more rest eq
  rw [List.append_assoc]
  apply h (front ++ more) rest
  rw [eq, List.append_assoc]

theorem Opened.quotesEscaped {before cs : List Char} (opened : Opened cs)
    (free : ¬ Escapes before) : QuotesEscaped before cs := by
  induction opened generalizing before with
  | nil =>
    intro front rest eq
    simp at eq
  | @plain c cs quote slash more ih =>
    intro front rest eq
    cases front with
    | nil =>
      cases eq
      exact absurd rfl quote
    | cons d front =>
      cases eq
      have inside := ih (not_escapes_other before slash) front rest rfl
      simpa using inside
  | @escape letter cs known more ih =>
    intro front rest eq
    cases front with
    | nil => cases eq
    | cons d front =>
      cases front with
      | nil =>
        cases eq
        exact escapes_slash.2 free
      | cons d front =>
        cases eq
        have inside := ih (not_escapes_escape free letter) front rest rfl
        simpa using inside

/-- A text that can be resolved and has no other quotes than escaped ones has none that ends it. -/
theorem opened_of_resolve {before cs text : List Char} (resolved : resolve cs = .ok text)
    (free : ¬ Escapes before) (quotes : QuotesEscaped before cs) : Opened cs := by
  fun_induction resolve cs generalizing before text with
  | case1 => exact .nil
  | case2 => cases resolved
  | case3 letter cs c known ih =>
    have more : QuotesEscaped (before ++ ['\\', letter]) cs := quotes.drop
    cases eq : resolve cs with
    | error e =>
      rw [eq] at resolved
      cases resolved
    | ok rest =>
      exact .escape (Option.isSome_of_eq_some known) (ih eq (not_escapes_escape free letter) more)
  | case4 => cases resolved
  | case5 c cs lastSlash escape ih =>
    have slash : c ≠ '\\' := by
      cases cs with
      | nil => exact fun eq => lastSlash eq rfl
      | cons letter cs => exact fun eq => escape letter cs eq rfl
    -- Resolving alone would pass over a quote; here it would be one that is not escaped.
    have quote : c ≠ '"' := by
      rintro rfl
      have here := quotes [] cs rfl
      rw [List.append_nil] at here
      exact free here
    have more : QuotesEscaped (before ++ [c]) cs := quotes.drop
    cases eq : resolve cs with
    | error e =>
      rw [eq] at resolved
      cases resolved
    | ok rest => exact .plain quote slash (ih eq (not_escapes_other before slash) more)

theorem quoted_of_inner? {cs body : List Char} (h : inner? cs = some body) :
    cs = '"' :: body ++ ['"'] := by
  unfold inner? at h
  split at h
  next rest =>
    split at h
    next last =>
      obtain ⟨front, rfl⟩ := List.getLast?_eq_some_iff.1 last
      rw [List.dropLast_concat] at h
      cases h
      rfl
    next => cases h
  next => cases h

theorem of_value {lexeme s : String} (h : value lexeme = .ok s) :
    ∃ body text, lexeme.toList = '"' :: body ++ ['"'] ∧ resolve body = .ok text := by
  unfold value at h
  split at h
  next body inside =>
    cases eq : resolve body with
    | error e =>
      rw [eq] at h
      cases h
    | ok text => exact ⟨body, text, quoted_of_inner? inside, eq⟩
  next => cases h

/-- Every quote strictly between the first and the last character is escaped. -/
def InnerQuotesEscaped (literal : String) : Prop :=
  ∀ before after, literal.toList = before ++ '"' :: after → before ≠ [] → after ≠ [] →
    Escapes before

theorem innerQuotesEscaped_iff {literal : String} {body : List Char}
    (quoted : literal.toList = '"' :: body ++ ['"']) :
    InnerQuotesEscaped literal ↔ QuotesEscaped ['"'] body := by
  constructor
  · intro h front rest eq
    apply h ('"' :: front) (rest ++ ['"'])
    · rw [quoted, eq]
      simp
    · exact List.cons_ne_nil _ _
    · simp
  · intro h before after eq nonempty nonempty'
    rw [quoted, List.cons_append] at eq
    cases before with
    | nil => exact absurd rfl nonempty
    | cons c front =>
      rw [List.cons_append] at eq
      obtain ⟨rfl, inside⟩ := List.cons.inj eq
      apply h front after.dropLast
      have last := List.dropLast_concat_getLast nonempty'
      rw [← last, ← List.cons_append, ← List.append_assoc] at inside
      exact List.append_inj_left' inside rfl

end StringLiteral

/-! ### Tokens -/

/-- The value that a literal has, told from its text. -/
def TokenKind.Decodes (kind : TokenKind) (lexeme : String) : Prop :=
  match kind with
  | .string => ∃ body text, lexeme.toList = '"' :: body ++ ['"'] ∧
      StringLiteral.Denotes body text ∧ StringLiteral.value lexeme = .ok (String.ofList text)
  | .int => lexeme.toList.all Char.isDigit = true ∧
      Literal.int? lexeme = some (Nat.ofDigitChars 10 lexeme.toList 0 : Int)
  | .dec => ∃ whole fraction, lexeme.toList = whole ++ '.' :: fraction ∧
      (whole ++ fraction).all Char.isDigit = true ∧ 1 ≤ fraction.length ∧
      Literal.dec? lexeme = some ⟨Nat.ofDigitChars 10 (whole ++ fraction) 0, fraction.length⟩
  | _ => True

theorem Lexeme.decodes {kind : TokenKind} {lexeme : String} (h : Lexeme kind lexeme.toList) :
    kind.Decodes lexeme := by
  obtain ⟨cs, rfl⟩ : ∃ cs, lexeme = String.ofList cs := ⟨_, String.ofList_toList.symm⟩
  rw [String.toList_ofList] at h
  cases h with
  | symbol => trivial
  | keyword => trivial
  | name => trivial
  | int nonempty all =>
    refine ⟨?_, ?_⟩
    · rw [String.toList_ofList]
      exact List.all_eq_true.2 all
    · rw [String.toList_ofList, ← Literal.digitsValue_eq]
      exact Literal.int?_of_digits nonempty all
  | @dec whole fraction nonempty follows before after =>
    refine ⟨whole, fraction, String.toList_ofList, ?_, List.length_pos_iff.2 follows, ?_⟩
    · rw [List.all_append, List.all_eq_true.2 before, List.all_eq_true.2 after]
      rfl
    · rw [← Literal.digitsValue_eq]
      exact Literal.dec?_of_digits nonempty follows before after
  | string opened =>
    obtain ⟨text, denotes⟩ := opened.denotes
    exact ⟨_, text, String.toList_ofList, denotes, denotes.value⟩

/-- A call gives an item of the scan, or else the end mark. -/
theorem Cursor.mem_items_or_eof {source : String} {n : Nat} {item : Item}
    (h : (ofSource source).call n = item) :
    item ∈ (ofSource source).items ∨ item = .ok (.endOfText source.utf8ByteSize) := by
  have size : (ofSource source).offset + Text.byteSize (ofSource source).rest =
      source.utf8ByteSize := (Nat.zero_add _).trans (Text.byteSize_toList source)
  rw [call_eq, size] at h
  cases found : (ofSource source).items[n]? with
  | none =>
    rw [found] at h
    exact .inr h.symm
  | some first =>
    rw [found] at h
    cases h
    exact .inl (List.mem_of_getElem? found)

theorem Cursor.decodes_of_call {source : String} (small : source.utf8ByteSize < UInt32.size)
    {n : Nat} {t : Token} (h : (ofSource source).call n = .ok t) :
    t.kind.Decodes (t.lexeme source) := by
  rcases mem_items_or_eof h with inside | eof
  · exact (lexeme_of_mem_items small (stands_ofSource source) inside).decodes
  · cases eof
    trivial

namespace StringLiteral

/-- The scan of a text is a single string literal. -/
def IsToken (text : String) : Prop :=
  (Cursor.ofSource text).items = [.ok ⟨.string, .ofRange 0 text.utf8ByteSize⟩]

theorem isToken_of_opened {text : String} {body : List Char}
    (quoted : text.toList = '"' :: body ++ ['"']) (opened : Opened body) : IsToken text := by
  have valid : Lexeme .string text.toList := by
    rw [quoted]
    exact .string opened
  have apart : ∀ p ∈ [Stretch.mk _ _ [] valid (.inl rfl)].dropLast, p.gap ≠ [] :=
    fun p inside => absurd inside List.not_mem_nil
  have items := Stretch.items_join apart 0
  rw [Stretch.join, List.flatMap_singleton, Stretch.text, List.append_nil] at items
  rw [IsToken, Cursor.ofSource, items, Stretch.tokens, Nat.zero_add, Text.byteSize_toList]
  rfl

theorem opened_of_isToken {text : String} (small : text.utf8ByteSize < UInt32.size)
    (h : IsToken text) : ∃ body, text.toList = '"' :: body ++ ['"'] ∧ Opened body := by
  let token : Token := ⟨.string, .ofRange 0 text.utf8ByteSize⟩
  have inside : .ok token ∈ (Cursor.ofSource text).items := by
    rw [h]
    exact List.mem_cons_self ..
  have lexeme : Lexeme .string (token.lexeme text).toList :=
    Cursor.lexeme_of_mem_items small (Cursor.stands_ofSource text) inside
  rw [Token.lexeme, Span.text?_whole small, Option.getD_some] at lexeme
  generalize eq : text.toList = cs at lexeme
  cases lexeme with
  | string opened => exact ⟨_, rfl, opened⟩

theorem isToken_iff {text : String} (small : text.utf8ByteSize < UInt32.size) :
    IsToken text ↔ (∃ s, value text = .ok s) ∧ InnerQuotesEscaped text := by
  have free : ¬ Escapes ['"'] := not_escapes_other [] (by decide)
  constructor
  · intro h
    obtain ⟨body, quoted, opened⟩ := opened_of_isToken small h
    obtain ⟨s, denotes⟩ := opened.denotes
    have value := denotes.value
    rw [← quoted, String.ofList_toList] at value
    exact ⟨⟨_, value⟩, (innerQuotesEscaped_iff quoted).2 (opened.quotesEscaped free)⟩
  · rintro ⟨⟨s, value⟩, quotes⟩
    obtain ⟨body, resolved, quoted, eq⟩ := of_value value
    have inner := (innerQuotesEscaped_iff quoted).1 quotes
    exact isToken_of_opened quoted (opened_of_resolve eq free inner)

end StringLiteral

/-! ### The parser -/

/-- The error is not laid to what a literal denotes: no literal is invalid, and trouble with a
lexeme is the trouble that the scan has found there. -/
structure SyntaxError.SparesLiterals (source : String) (e : Located SyntaxError) : Prop where
  valid : ∀ text, e.cause ≠ .invalidLiteral text
  scanned : ∀ trouble, e.cause = .lexical trouble →
    .error ⟨trouble, e.span⟩ ∈ (Stream.ofSource source).items

theorem SyntaxError.Laid.sparesLiterals {source : String} {e : Located SyntaxError}
    (h : Laid source e) (small : source.utf8ByteSize < UInt32.size) : SparesLiterals source e := by
  cases h with
  | scan inside =>
    constructor
    · intro text eq
      cases eq
    · intro trouble eq
      cases eq
      exact inside
  | @token t cause known structural =>
    constructor
    · intro text eq
      cases (show cause = .invalidLiteral text from eq)
      cases structural
    · intro trouble eq
      cases (show cause = .lexical trouble from eq)
      cases structural
  | literal inside empty =>
    have lexeme := Cursor.lexeme_of_mem_items small (Cursor.stands_ofSource source) inside
    have denotes := lexeme.denotes
    rw [String.ofList_toList] at denotes
    exact absurd denotes empty

/-- In a source that is short enough for its offsets, every token decodes to the value that its text
tells, and so no error of the parser is laid to the value of a literal, be it that a program is read
or one expression after the other. Conversely, such a text that decodes as a string literal is
scanned as one, if no quote ends it before. -/
theorem literals_decode (source : String) (small : source.utf8ByteSize < UInt32.size) :
    (∀ n t, (Cursor.ofSource source).call n = .ok t → t.kind.Decodes (t.lexeme source)) ∧
    (∀ e, Program.parse source = .error e → SyntaxError.SparesLiterals source e) ∧
    (∀ limit calls e,
      Parser.result ((Parser.ofSourceWith limit source).afterCalls calls).expression = .error e →
        SyntaxError.SparesLiterals source e) ∧
    (StringLiteral.IsToken source ↔
      (∃ s, StringLiteral.value source = .ok s) ∧ StringLiteral.InnerQuotesEscaped source) := by
  refine ⟨?_, ?_, ?_, StringLiteral.isToken_iff small⟩
  · intro n t read
    exact Cursor.decodes_of_call small read
  · intro e failed
    exact (Program.laid_of_parse failed).sparesLiterals small
  · intro limit calls e failed
    have within := Parser.within_afterCalls (Parser.within_ofSourceWith limit source) calls
    have laid := within.laid_of_result (fun rules => Parser.expression_obeys rules _) failed
    exact laid.sparesLiterals small

section Examples

/-- A string literal with a quote in it, and a decimal that may not follow it. -/
theorem quoted_decimal_decodes :
    TokenKind.Decodes .string "\"\\\"\"" ∧ TokenKind.Decodes .dec "0.50" ∧
      ∃ e, Program.parse "\"\\\"\" 0.50" = .error e ∧
        SyntaxError.SparesLiterals "\"\\\"\" 0.50" e := by
  obtain ⟨decodes, spares, -⟩ := literals_decode "\"\\\"\" 0.50" (by decide +kernel)
  refine ⟨?_, ?_, ?_⟩
  · exact decodes 0 ⟨.string, ⟨0, 4⟩⟩ (by with_unfolding_all rfl)
  · exact decodes 1 ⟨.dec, ⟨5, 4⟩⟩ (by with_unfolding_all rfl)
  · have refused : (Program.parse "\"\\\"\" 0.50").toOption.isSome = false := by
      decide +kernel
    cases parsed : Program.parse "\"\\\"\" 0.50" with
    | ok =>
      rw [parsed] at refused
      cases refused
    | error e => exact ⟨e, rfl, spares e parsed⟩

/-- Too far behind for its offset, a number has a blank for its text, which has no value. -/
theorem distant_literal_has_no_value :
    (Cursor.ofSource (afterBlanks UInt32.size "1;")).call 0 = .ok ⟨.int, ⟨0, 1⟩⟩ ∧
      Token.lexeme ⟨.int, ⟨0, 1⟩⟩ (afterBlanks UInt32.size "1;") = " " ∧
      ¬ TokenKind.Decodes .int " " ∧
      Program.parse (afterBlanks UInt32.size "1;") = .error ⟨.invalidLiteral " ", ⟨0, 1⟩⟩ := by
  have items : (Stream.ofSource "1;").items =
      [.ok ⟨.int, ⟨0, 1⟩⟩, .ok ⟨.symbol .semicolon, ⟨1, 1⟩⟩] := by
    with_unfolding_all rfl
  have scanned : (Cursor.ofSource (afterBlanks UInt32.size "1;")).items =
      [.ok ⟨.int, ⟨0, 1⟩⟩, .ok ⟨.symbol .semicolon, ⟨1, 1⟩⟩] := by
    rw [← items, ← Stream.ofSource_afterBlanks rfl, Stream.ofSource]
  refine ⟨?_, ?_, ?_, Program.parse_distantLiteral rfl⟩
  · rw [Cursor.call_eq, scanned]
    rfl
  · rw [Token.lexeme_afterBlanks rfl (by decide +kernel) (items ▸ List.mem_cons_self ..)]
    with_unfolding_all rfl
  · rintro ⟨digits, -⟩
    exact absurd digits (by decide)

end Examples

end ExprLang

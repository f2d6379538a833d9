import ExprLang.Proofs.Assignments.Following
import ExprLang.Proofs.EvalRun
import ExprLang.Proofs.ParallelReading
import ExprLang.Proofs.ParserRules
import ExprLang.Proofs.RoundTrip.Reading

set_option autoImplicit false

/-!
Assignments with an operator. They are read as if the operation were written out, with brackets
around the operand: whatever the operand is, it is one operand, and the variable is read before it.
-/

namespace ExprLang

/-- The symbol of an assignment that does the operation on the old value. -/
def BinaryOp.compound? : BinaryOp → Option Symbol
  | add => some .plusEqual
  | subtract => some .minusEqual
  | multiply => some .starEqual
  | divide => some .slashEqual
  | modulo => some .percentEqual
  | _ => none

/-- The words of an assignment with an operator. -/
def compoundWords (x : String) (sign : Symbol) (operand : List Word) : List Word :=
  Keyword.set.word :: (.ident, x) :: sign.word :: operand

/-- The words of an assignment with the operation written out, and the operand in brackets. -/
def spelledOutWords (x : String) (op : BinaryOp) (operand : List Word) : List Word :=
  Keyword.set.word :: (.ident, x) :: Keyword.is.word :: (.ident, x) :: op.word ::
    Symbol.leftParen.word :: (operand ++ [Symbol.rightParen.word])

/-- An operation on a variable that is assigned to the variable, without places. -/
def Expr.updating (x : String) (op : BinaryOp) (operand : Expr) : Expr :=
  .assign ⟨x, default⟩ (.binary op (.name ⟨x, default⟩ default) operand default) default

namespace Parser

variable {u p q : Parser} {after after' : List Item}

theorem Yields.imp {α : Type} {bad : Failure → Prop} {a : Attempt α} {good good' : α → Prop}
    (h : Yields bad a good) (weaker : ∀ x, good x → good' x) : Yields bad a good' := by
  cases a with
  | ok x => exact weaker x h
  | error failure => exact h

theorem Yields.exists_ok {α : Type} {a : Attempt α} {good : α → Prop}
    (h : Yields (fun _ => False) a good) : ∃ x, a = .ok x ∧ good x := by
  cases a with
  | ok x => exact ⟨x, rfl, h⟩
  | error failure => exact h.elim

/-! ### One expression at two places -/

/-- An expression that makes up a whole text is read as well where something ends it. -/
theorem expression_followed {r : Parsed u.size Expr} (read : u.expression = .ok r)
    (whole : r.parser.rest = []) (beside : Beside after after' u p q) :
    Yields TooDeep p.expression fun found =>
      found.value = r.value ∧ found.parser.rest = after ∧
      ∃ found', q.expression = .ok found' ∧ found'.value = r.value ∧
        found'.parser.rest = after' := by
  have together := expression_together beside
  rw [read] at together
  generalize p.expression = a at together
  generalize q.expression = b at together
  cases together with
  | tooDeep cause => exact cause
  | @ok _ y z same =>
    have first := same.parser.first
    have second := same.parser.second
    rw [whole, List.nil_append] at first second
    exact ⟨same.first, first, z, rfl, same.second, second⟩

/-- It can be made up of other tokens with the same words, in another source. -/
theorem expression_respelled {words : List Word} (holds : u.Holds words) {r : Parsed u.size Expr}
    (read : u.expression = .ok r) (whole : r.parser.rest = []) {source : String}
    {tokens : List Token} (spelled : tokens.map (Token.word source) = words) :
    ∃ s, expression { u with source, rest := tokens.map .ok } = .ok s ∧
      s.value.bare = r.value.bare ∧ s.parser.rest = [] := by
  have there : Holds { u with source, rest := tokens.map .ok } words :=
    ⟨⟨tokens, rfl, spelled⟩, holds.eof⟩
  obtain ⟨s, read, value, left⟩ :=
    expression_of_holds there holds (.inr ⟨rfl, Nat.le_refl _⟩) read
  exact ⟨s, read, value, left whole⟩

/-- The words of an expression, at two places with as much room at the second one. -/
theorem expression_of_words {words : List Word} (holds : u.Holds words) {r : Parsed u.size Expr}
    (read : u.expression = .ok r) (whole : r.parser.rest = []) {tokens tokens' : List Token}
    (spelled : tokens.map (Token.word p.source) = words)
    (spelled' : tokens'.map (Token.word q.source) = words)
    (sealed : Sealed after) (sealed' : Sealed after') (here : p.rest = tokens.map .ok ++ after)
    (there : q.rest = tokens'.map .ok ++ after') (limit : q.limit = p.limit)
    (depth : q.depth ≤ p.depth) :
    Yields TooDeep p.expression fun found =>
      found.value.bare = r.value.bare ∧ found.parser.rest = after ∧
      ∃ found', q.expression = .ok found' ∧ found'.value.bare = r.value.bare ∧
        found'.parser.rest = after' := by
  obtain ⟨s, readFirst, valueFirst, wholeFirst⟩ := expression_respelled holds read whole spelled
  obtain ⟨t, readSecond, valueSecond, wholeSecond⟩ :=
    expression_respelled holds read whole spelled'
  -- Between the two stands the same expression with nothing but a semicolon after it.
  let semi : Token := ⟨.symbol .semicolon, .ofRange 0 0⟩
  have stop : Sealed [.ok semi] := ⟨semi, [], rfl, .head _⟩
  let p₀ : Parser := ⟨p.source, tokens.map .ok ++ [.ok semi], u.eof, p.depth, p.limit⟩
  let q₀ : Parser := ⟨q.source, tokens'.map .ok ++ [.ok semi], u.eof, p.depth, p.limit⟩
  have ending (source : String) (ts : List Token) (same : ts.map (Token.word source) = words) :
      Holds ⟨source, ts.map .ok ++ [.ok semi], u.eof, p.depth, p.limit⟩
        (words ++ [(.symbol .semicolon, "")]) := by
    have parts : source.toList = [] ++ [] ++ source.toList := rfl
    have empty : semi.span.text? source = some "" := Span.text?_of_parts parts rfl rfl
    refine ⟨⟨ts ++ [semi], ?_, ?_⟩, holds.eof⟩
    · rw [List.map_append]
      rfl
    · rw [List.map_append, same, List.map_singleton, Token.word, Token.lexeme, empty]
      rfl
  have first : Beside after [.ok semi] ⟨p.source, tokens.map .ok, u.eof, u.depth, u.limit⟩ p p₀ :=
    ⟨rfl, rfl, sealed, stop, here, rfl, rfl, Nat.le_refl _⟩
  have second : Beside [.ok semi] after' ⟨q.source, tokens'.map .ok, u.eof, u.depth, u.limit⟩
      q₀ q :=
    ⟨rfl, rfl, stop, sealed', rfl, there, limit, depth⟩
  refine (expression_followed readFirst wholeFirst first).imp fun found => ?_
  rintro ⟨value, left, found₀, read₀, -, -⟩
  refine ⟨by rw [value, valueFirst], left, ?_⟩
  obtain ⟨found₁, read₁, -⟩ := expression_of_holds (p := q₀) (q := p₀) (ending _ tokens' spelled')
    (ending _ tokens spelled) (.inr ⟨rfl, Nat.le_refl _⟩) read₀
  have followed := expression_followed readSecond wholeSecond second
  rw [read₁] at followed
  obtain ⟨-, -, found', read', value', left'⟩ := followed
  exact ⟨found', read', by rw [value', valueSecond], left'⟩

/-! ### The steps to the operand -/

/-- The same parser before other items. -/
def before (p : Parser) (rest : List Item) : Parser :=
  { p with rest }

section Steps

variable {token : Token} {rest : List Item} {bad : Failure → Prop}

theorem yields_peek {β : Type} (here : p.rest = .ok token :: rest) {f : Token → Attempt β}
    {good : β → Prop} (further : Yields bad (f token) good) : Yields bad (p.peek >>= f) good := by
  rw [peek_of_rest here]
  exact further

theorem yields_next {β : Type} (here : p.rest = .ok token :: rest) {atEnd : SyntaxError}
    {f : Parsed p.size Token → Attempt β} {good : β → Prop}
    (further : Yields bad (f ⟨token, { p with rest }, size_lt_of_rest here⟩) good) :
    Yields bad (p.next atEnd >>= f) good := by
  rw [next_of_rest here]
  exact further

theorem yields_expect {β : Type} (here : p.rest = .ok token :: rest) {kind : TokenKind}
    (known : token.kind = kind) {f : Parsed p.size Token → Attempt β} {good : β → Prop}
    (further : Yields bad (f ⟨token, { p with rest }, size_lt_of_rest here⟩) good) :
    Yields bad (p.expect kind >>= f) good := by
  rw [expect, bind_assoc]
  refine yields_next here ?_
  dsimp only
  rw [if_pos known]
  exact further

theorem yields_expectIdent {β : Type} (here : p.rest = .ok token :: rest)
    (known : token.kind = .ident) {f : Parsed p.size Ident → Attempt β} {good : β → Prop}
    (further : Yields bad
      (f ⟨⟨p.lexeme token, token.span⟩, { p with rest }, size_lt_of_rest here⟩) good) :
    Yields bad (p.expectIdent >>= f) good := by
  rw [expectIdent, bind_assoc]
  exact yields_expect here known further

theorem yields_takeIf {α β : Type} (here : p.rest = .ok token :: rest) {accept : Token → Option α}
    {found : Option α} (known : accept token = found) {f : Option (Parsed p.size α) → Attempt β}
    {good : β → Prop}
    (further : Yields bad
      (f (found.map fun value => ⟨value, { p with rest }, size_lt_of_rest here⟩)) good) :
    Yields bad (p.takeIf? accept >>= f) good := by
  rw [takeIf_of_rest here, known]
  exact further

theorem yields_expression (here : p.rest = .ok token :: rest)
    (outward : ∀ failure, bad failure → bad { failure with parser := failure.parser.ascend })
    (deep : p.descend.isTooDeep = true → ∀ failure, TooDeep failure → bad failure)
    {good : Parsed p.size Expr → Prop}
    (inner : p.descend.isTooDeep = false → Yields bad (p.descend.expressionFrom token.kind) fun r =>
      good ⟨r.value, r.parser.ascend, r.shorter⟩) :
    Yields bad p.expression good := by
  rw [expression]
  refine yields_peek here ?_
  cases fits : p.descend.isTooDeep with
  | true => exact deep fits _ rfl
  | false =>
    have inner := inner fits
    rw [if_neg Bool.false_ne_true]
    cases read : p.descend.expressionFrom token.kind with
    | ok r =>
      rw [read] at inner
      exact inner
    | error failure =>
      rw [read] at inner
      exact outward failure inner

theorem yields_operation (here : p.rest = .ok token :: rest) {power : Nat}
    {good : Parsed p.size Expr → Prop}
    (inner : Yields TooDeep p.descend.operand fun r =>
      Yields TooDeep (r.parser.operationRest power r.value) fun s =>
        ∀ h, good ⟨s.value, s.parser.ascend, h⟩) :
    Yields TooDeep (p.operation power) good := by
  rw [operation]
  refine yields_peek here ?_
  cases fits : p.descend.isTooDeep with
  | true => exact rfl
  | false =>
    rw [if_neg Bool.false_ne_true]
    refine Yields.bind inner fun r joined => ?_
    exact Yields.bind joined fun s fine => fine _

/-- Nothing is joined to an operand where the expression ends. -/
theorem operationRest_of_sealed (sealed : Sealed p.rest) (power : Nat) (lhs : Expr) :
    p.operationRest power lhs = .ok ⟨lhs, p, Nat.lt_succ_self _⟩ := by
  obtain ⟨token, rest, here, ends⟩ := sealed
  rw [operationRest, takeOperator?, takeIf_of_rest here, filter_binaryOp?_of_closers ends]
  rfl

/-- An assignment is a statement whose value is read one level further in. -/
theorem yields_assignment {keyword name operator : Token}
    (here : p.rest = .ok keyword :: .ok name :: .ok operator :: rest)
    (set : keyword.kind = .keyword .set) (ident : name.kind = .ident) {op : Option BinaryOp}
    (known : assignmentOp? operator.kind = some op)
    (outward : ∀ failure, bad failure → bad { failure with parser := failure.parser.ascend })
    (deep : p.descend.isTooDeep = true → ∀ failure, TooDeep failure → bad failure)
    {good : Parsed p.size Expr → Prop}
    (inner : p.descend.isTooDeep = false →
      Yields bad (p.descend.before rest).expression fun r => ∀ h,
        good ⟨.assign ⟨p.lexeme name, name.span⟩
          (assignedValue ⟨p.lexeme name, name.span⟩ op r.value) (keyword.span.merge r.value.span),
          r.parser.ascend, h⟩) :
    Yields bad p.statement good := by
  have plain : p.statement = p.expression := by
    rw [statement, takeIf_of_rest here, set]
    rfl
  rw [plain]
  refine yields_expression here outward deep fun fits => ?_
  rw [set, expressionFrom, assignment]
  refine yields_expect (p := p.descend) here set ?_
  refine yields_expectIdent rfl ident ?_
  refine yields_next rfl ?_
  dsimp only
  rw [known]
  exact Yields.bind (inner fits) fun r fine => fine _

/-- A name, an operator and a bracket: what stands in the brackets is read three levels further in,
and is the second operand of the operator. -/
theorem yields_bracketed {name sign opening : Token}
    (here : p.rest = .ok name :: .ok sign :: .ok opening :: rest) (ident : name.kind = .ident)
    {op : BinaryOp} (known : binaryOp? sign.kind = some op)
    (paren : opening.kind = .symbol .leftParen) {good : Parsed p.size Expr → Prop}
    (inner : Yields TooDeep (p.descend.descend.descend.before rest).expression fun r =>
      ∃ closing after, r.parser.rest = .ok closing :: after ∧
        closing.kind = .symbol .rightParen ∧ Sealed after ∧
        ∀ span span' q h, q.rest = after → good ⟨.binary op
          (.name ⟨p.lexeme name, name.span⟩ name.span) (r.value.withSpan span) span', q, h⟩) :
    Yields TooDeep p.expression good := by
  have joins : sign.kind ≠ .symbol .leftParen := by
    intro eq
    rw [eq] at known
    cases known
  -- The second operand: nothing is joined to the closing bracket.
  have right : Yields TooDeep
      ((p.descend.descend.before (.ok opening :: rest)).operation op.rightPower) fun s =>
      Sealed s.parser.rest ∧ ∀ span q h, q.rest = s.parser.rest →
        good ⟨.binary op (.name ⟨p.lexeme name, name.span⟩ name.span) s.value span, q, h⟩ := by
    refine yields_operation rfl ?_
    rw [operand]
    refine yields_next rfl ?_
    dsimp only
    rw [paren]
    refine Yields.bind inner fun r found => ?_
    obtain ⟨closing, after, left, close, sealed, fine⟩ := found
    refine yields_expect left close ?_
    show Yields TooDeep (operationRest _ _ _) _
    rw [operationRest_of_sealed sealed]
    exact fun _ => ⟨sealed, fun span q h left => fine _ span q h left⟩
  refine yields_expression here (fun _ deep => deep) (fun _ _ deep => deep) fun _ => ?_
  rw [ident, expressionFrom.eq_def]
  refine yields_operation (p := p.descend) here ?_
  rw [operand]
  refine yields_next (p := p.descend.descend) here ?_
  dsimp only
  rw [ident]
  refine yields_takeIf rfl (if_neg joins) ?_
  show Yields TooDeep (operationRest _ _ _) _
  rw [operationRest, takeOperator?]
  refine yields_takeIf rfl (show _ = some op by rw [known]; rfl) ?_
  refine Yields.bind right fun s found => ?_
  obtain ⟨sealed, fine⟩ := found
  dsimp only
  rw [operationRest_of_sealed sealed]
  exact fun _ => fine _ s.parser.ascend.ascend _ rfl

end Steps

/-! ### Statements -/

/-- First come tokens with the given words, and then what is given. -/
def Begins (p : Parser) (words : List Word) (after : List Item) : Prop :=
  ∃ tokens : List Token, p.rest = tokens.map .ok ++ after ∧ tokens.map (Token.word p.source) = words

theorem Begins.first {word : Word} {words : List Word} (h : p.Begins (word :: words) after) :
    ∃ token rest, p.rest = .ok token :: rest ∧ token.word p.source = word ∧
      (p.before rest).Begins words after := by
  obtain ⟨tokens, here, spelled⟩ := h
  cases tokens with
  | nil => cases spelled
  | cons token tokens =>
    obtain ⟨word, others⟩ := List.cons.inj spelled
    exact ⟨token, _, here, word, tokens, rfl, others⟩

theorem Begins.three {a b c : Word} {words : List Word}
    (h : p.Begins (a :: b :: c :: words) after) :
    ∃ s t u rest, p.rest = .ok s :: .ok t :: .ok u :: rest ∧
      s.word p.source = a ∧ t.word p.source = b ∧ u.word p.source = c ∧
      (p.before rest).Begins words after := by
  obtain ⟨s, rest, here, first, h⟩ := h.first
  obtain ⟨t, rest', next, second, h⟩ := h.first
  obtain rfl : rest = _ := next
  obtain ⟨u, rest'', next, third, h⟩ := h.first
  obtain rfl : rest' = _ := next
  exact ⟨s, t, u, rest'', here, first, second, third, h⟩

/-- The last of the words can be left to what comes after. -/
theorem Begins.last {word : Word} {words : List Word} (h : p.Begins (words ++ [word]) after) :
    ∃ (tokens : List Token) (token : Token), p.rest = tokens.map .ok ++ .ok token :: after ∧
      tokens.map (Token.word p.source) = words ∧ token.word p.source = word := by
  obtain ⟨tokens, here, spelled⟩ := h
  obtain ⟨front, back, rfl, others, last⟩ := List.map_eq_append_iff.1 spelled
  obtain ⟨token, rfl, rfl⟩ := List.map_eq_singleton_iff.1 last
  refine ⟨front, token, ?_, others, rfl⟩
  rw [here, List.map_append, List.append_assoc]
  rfl

theorem assignmentOp?_of_compound {op : BinaryOp} {sign : Symbol}
    (compound : op.compound? = some sign) : assignmentOp? sign.word.1 = some (some op) := by
  cases op <;> cases compound <;> rfl

section Statement

variable {x : String} {op : BinaryOp} {sign : Symbol} {words : List Word}

/-- With an operator, the operand is read one level further in. -/
theorem statement_short (compound : op.compound? = some sign)
    (begins : q.Begins (compoundWords x sign words) after) :
    ∃ rest, (q.before rest).Begins words after ∧
      (q.descend.isTooDeep = false → ∀ found, (q.descend.before rest).expression = .ok found →
        ∃ t, q.statement = .ok t ∧ t.value.bare = .updating x op found.value.bare ∧
          t.parser.rest = found.parser.rest) := by
  obtain ⟨keyword, target, operator, rest, here, set, named, writes, operand⟩ := begins.three
  refine ⟨rest, operand, fun fits found read => Yields.exists_ok ?_⟩
  have kind : operator.kind = sign.word.1 := congrArg Prod.fst writes
  have lexeme : q.lexeme target = x := congrArg Prod.snd named
  have known : assignmentOp? operator.kind = some (some op) := by
    rw [kind]
    exact assignmentOp?_of_compound compound
  refine yields_assignment here (congrArg Prod.fst set) (congrArg Prod.fst named) known
    (fun _ no => no) (fun deep => ?_) fun _ => ?_
  · rw [fits] at deep
    cases deep
  · rw [read]
    refine fun _ => ⟨?_, rfl⟩
    simp only [Expr.respan, assignedValue, Ident.respan, lexeme, Expr.updating]

/-- With the operation written out, the operand is read four levels further in. -/
theorem statement_long (begins : p.Begins (spelledOutWords x op words) after) :
    ∃ rest, (p.before rest).Begins (words ++ [Symbol.rightParen.word]) after ∧
      ∀ good : Parsed p.size Expr → Prop,
        (p.descend.isTooDeep = false →
          Yields TooDeep (p.descend.descend.descend.descend.before rest).expression fun r =>
            ∃ closing, r.parser.rest = .ok closing :: after ∧
              closing.kind = .symbol .rightParen ∧ Sealed after ∧
              ∀ s, s.value.bare = .updating x op r.value.bare → s.parser.rest = after → good s) →
        Yields TooDeep p.statement good := by
  obtain ⟨keyword, target, is, rest, here, set, named, writes, begins⟩ := begins.three
  obtain ⟨name, operator, opening, rest', next, reads, joins, opens, operand⟩ := begins.three
  obtain rfl : rest = _ := next
  refine ⟨rest', operand, fun good inner => ?_⟩
  have lexeme : p.lexeme target = x := congrArg Prod.snd named
  have lexeme' : (p.descend.before (.ok name :: .ok operator :: .ok opening :: rest')).lexeme name =
      x := congrArg Prod.snd reads
  have kind : is.kind = .keyword .is := congrArg Prod.fst writes
  have kind' : operator.kind = op.word.1 := congrArg Prod.fst joins
  have known : assignmentOp? is.kind = some none := by
    rw [kind]
    rfl
  have known' : binaryOp? operator.kind = some op := by
    rw [kind']
    exact binaryOp?_word op
  refine yields_assignment here (congrArg Prod.fst set) (congrArg Prod.fst named) known
    (fun _ deep => deep) (fun _ _ deep => deep) fun fits => ?_
  refine yields_bracketed (p := p.descend.before _) rfl (congrArg Prod.fst reads) known'
    (congrArg Prod.fst opens) ?_
  refine (inner fits).imp fun r found => ?_
  obtain ⟨closing, left, closes, sealed, fine⟩ := found
  refine ⟨closing, after, left, closes, sealed, fun span span' q _ left _ => ?_⟩
  refine fine _ ?_ left
  simp only [Expr.respan, assignedValue, Ident.respan, Expr.bare_withSpan, lexeme, lexeme',
    Expr.updating]

/-- Both forms of the statement, in places with as much room for the shorter one. -/
theorem statement_compound (compound : op.compound? = some sign) (holds : u.Holds words)
    {r : Parsed u.size Expr} (read : u.expression = .ok r) (whole : r.parser.rest = [])
    {semi semi' : Token} (ends : semi.kind = .symbol .semicolon)
    (ends' : semi'.kind = .symbol .semicolon)
    (long : p.Begins (spelledOutWords x op words) (.ok semi :: after))
    (short : q.Begins (compoundWords x sign words) (.ok semi' :: after'))
    (limit : q.limit = p.limit) (depth : q.depth ≤ p.depth) :
    Yields TooDeep p.statement fun s =>
      s.value.bare = .updating x op r.value.bare ∧ s.parser.rest = .ok semi :: after ∧
      ∃ t, q.statement = .ok t ∧ t.value.bare = .updating x op r.value.bare ∧
        t.parser.rest = .ok semi' :: after' := by
  obtain ⟨rest, begins, step⟩ := statement_long long
  obtain ⟨tokens, closing, here, spelled, closes⟩ := begins.last
  obtain ⟨rest', ⟨tokens', there, spelled'⟩, step'⟩ := statement_short compound short
  have close : closing.kind = .symbol .rightParen := congrArg Prod.fst closes
  have semicolon (t : Token) (items : List Item) (kind : t.kind = .symbol .semicolon) :
      Sealed (.ok t :: items) := ⟨t, items, rfl, by rw [kind]; decide⟩
  have sealed : Sealed (.ok closing :: .ok semi :: after) :=
    ⟨closing, _, rfl, by rw [close]; decide⟩
  refine step _ fun fits => ?_
  have fits' :=
    isTooDeep_of_le (p := q.descend) (q := p.descend) limit (Nat.succ_le_succ depth) fits
  have inner := expression_of_words (p := p.descend.descend.descend.descend.before rest)
    (q := q.descend.before rest') holds read whole spelled spelled' sealed
    (semicolon semi' after' ends') here there limit
    (Nat.le_trans (Nat.succ_le_succ depth) (Nat.le_add_right _ 3))
  refine inner.imp fun found => ?_
  rintro ⟨value, left, found', read', value', left'⟩
  refine ⟨closing, left, close, semicolon semi after ends, fun s bare rest => ⟨?_, rest, ?_⟩⟩
  · rw [bare, value]
  · obtain ⟨t, readT, bareT, restT⟩ := step' fits' found' read'
    exact ⟨t, readT, by rw [bareT, value'], by rw [restT, left']⟩

end Statement

/-! ### Sources -/

section Source

variable {source : String} {words : List Word}

theorem Holds.begins {word : Word} (holds : p.Holds (words ++ [word])) :
    ∃ token : Token, token.word p.source = word ∧ p.Begins words [.ok token] := by
  obtain ⟨tokens, here, spelled⟩ := holds.tokens
  have begins : p.Begins (words ++ [word]) [] := ⟨tokens, by rw [here, List.append_nil], spelled⟩
  obtain ⟨tokens, token, here, spelled, last⟩ := begins.last
  exact ⟨token, last, tokens, here, spelled⟩

theorem yields_program_of_nil {bad : Failure → Prop} (nil : p.rest = [])
    (eof : p.eof.kind = .eof) : Yields bad p.program fun s => s.value = [] := by
  have following : Yields bad p.peek fun token => token.kind = .eof := by
    rw [peek_of_nil nil]
    exact eof
  rw [program]
  refine Yields.bind following fun token kind => ?_
  rw [kind]
  exact rfl

/-- A source that is one assignment. -/
theorem program_of_statement (holds : p.Holds (Keyword.set.word :: words))
    {r : Parsed p.size Expr} (read : p.statement = .ok r) {semi : Token}
    (left : r.parser.rest = [.ok semi]) (ends : semi.kind = .symbol .semicolon) :
    ∃ s, p.program = .ok s ∧ s.value = [r.value] := by
  have eof : r.parser.eof.kind = .eof := by
    have advances := statement_obeys rules_advances p
    rw [read] at advances
    rw [advances.eof]
    exact holds.eof
  obtain ⟨span, rest, here, -⟩ := holds.first
  apply Yields.exists_ok
  rw [program, peek_of_rest here]
  show Yields _ (p.statement >>= _) _
  rw [read]
  refine yields_expect left ends ?_
  have last : Yields (fun _ => False) (r.parser.before []).program fun s => s.value = [] :=
    yields_program_of_nil rfl eof
  exact Yields.bind last fun s nothing => congrArg (r.value :: ·) nothing

/-- Sources that are the two forms of one statement. -/
theorem parse_compound {x : String} {op : BinaryOp} {sign : Symbol}
    (compound : op.compound? = some sign) (holds : u.Holds words) {r : Parsed u.size Expr}
    (read : u.expression = .ok r) (whole : r.parser.rest = []) {source' : String}
    (long : (ofSource source).Holds (spelledOutWords x op words ++ [Symbol.semicolon.word]))
    (short : (ofSource source').Holds (compoundWords x sign words ++ [Symbol.semicolon.word])) :
    (∃ error, Program.parse source = .error error ∧ error.cause = .tooDeep) ∨
      ∃ a b, Program.parse source = .ok [a] ∧ Program.parse source' = .ok [b] ∧
        a.bare = .updating x op r.value.bare ∧ b.bare = .updating x op r.value.bare := by
  obtain ⟨semi, ends, begins⟩ := long.begins
  obtain ⟨semi', ends', begins'⟩ := short.begins
  have ends : semi.kind = .symbol .semicolon := congrArg Prod.fst ends
  have ends' : semi'.kind = .symbol .semicolon := congrArg Prod.fst ends'
  have both := statement_compound compound holds read whole ends ends' begins begins' rfl
    (Nat.le_refl 0)
  cases first : (ofSource source).statement with
  | error failure =>
    rw [first] at both
    obtain ⟨span, rest, here, -⟩ := Holds.first (p := ofSource source) long
    refine .inl ⟨failure.error, ?_, both⟩
    have failed : (ofSource source).program = .error failure := by
      rw [program, peek_of_rest here]
      show ((ofSource source).statement >>= _) = _
      rw [first]
      rfl
    rw [Program.parse, failed]
  | ok s =>
    rw [first] at both
    obtain ⟨value, left, t, second, value', left'⟩ := both
    obtain ⟨a, readA, eqA⟩ := program_of_statement long first left ends
    obtain ⟨b, readB, eqB⟩ := program_of_statement short second left' ends'
    refine .inr ⟨s.value, t.value, ?_, ?_, value, value'⟩
    · rw [Program.parse, readA, ← eqA]
    · rw [Program.parse, readB, ← eqB]

end Source

end Parser

/-! ### Evaluation -/

namespace EvalM

variable {σ : Type}

/-- The last part of an assignment with an operator, two levels in: the operation is done on the
old value and the operand, and the result is written. -/
def update (op : BinaryOp) (span : Span) (target : Ident) (old new : Value) :
    EvalM σ (Control Value) := do
  let value ← op.eval old new span
  modify Machine.shallower
  assign target value
  modify Machine.shallower
  pure (.normal value)

theorem run_eq_of_ends {α : Type} {x y : EvalM σ α} {m n : Machine σ}
    (same : ∀ Q E, x.Ends m Q E ↔ y.Ends n Q E) : x.run m = y.run n := by
  have here : x.Ends m (fun a m' => x.run m = .ok a m')
      fun m' => x.run m = .error .outOfRounds m' := by
    unfold Ends
    cases x.run m with
    | ok a m' => exact rfl
    | error reason m' =>
      cases reason
      exact rfl
  have there := (same _ _).1 here
  unfold Ends at there
  cases ran : y.run n with
  | ok a m' =>
    rw [ran] at there
    exact there
  | error reason m' =>
    cases reason
    rw [ran] at there
    exact there

/-- The variable is read first, then the operand is evaluated, and then the variable is written. -/
theorem run_updating [Sink σ] (rounds : Nat) (op : BinaryOp) (target name : Ident) (operand : Expr)
    (s t w : Span) {m : Machine σ} (fits : m.depth + 2 < maxNesting) :
    ((Expr.assign target (.binary op (.name name s) operand t) w).eval rounds).run m =
      (do
        let old ← lookup name
        let new ← asValue (operand.eval rounds)
        update op t target old new : EvalM σ (Control Value)).run m.deeper.deeper := by
  have first : ¬ maxNesting ≤ m.depth := by omega
  have second : ¬ maxNesting ≤ m.deeper.depth := by
    show ¬ maxNesting ≤ m.depth + 1
    omega
  have third : ¬ maxNesting ≤ m.deeper.deeper.depth := by
    show ¬ maxNesting ≤ m.depth + 2
    omega
  refine run_eq_of_ends fun Q E => ?_
  simp only [Expr.eval, update, ends_nested, ends_bind, ends_asValue, ends_pure, ends_modify,
    ends_lookup, if_neg first, if_neg second, if_neg third]
  exact Iff.rfl

end EvalM

theorem Expr.exists_of_updating {e operand : Expr} {x : String} {op : BinaryOp}
    (h : e.bare = .updating x op operand) :
    ∃ target name right s t w, e = .assign target (.binary op (.name name s) right t) w ∧
      target.name = x ∧ name.name = x ∧ right.bare = operand := by
  cases e with
  | assign target value w =>
    simp only [bare, respan, updating, assign.injEq] at h
    obtain ⟨written, value_eq, -⟩ := h
    cases value with
    | binary op' left right t =>
      simp only [respan, binary.injEq] at value_eq
      obtain ⟨rfl, left_eq, right_eq, -⟩ := value_eq
      cases left with
      | name name s =>
        simp only [respan, Expr.name.injEq] at left_eq
        exact ⟨target, name, right, s, t, w, rfl, congrArg Ident.name written,
          congrArg Ident.name left_eq.1, right_eq⟩
      | exit kind value => cases value <;> cases left_eq
      | _ => cases left_eq
    | exit kind value => cases value <;> cases value_eq
    | _ => cases value_eq
  | exit kind value => cases value <;> cases h
  | _ => cases h

open EvalM (lookup asValue update)

/-- An assignment with an operator stands for the same assignment with the operation written out and
brackets around the operand. This holds wherever the two are statements, and of the sources that
consist of them; the operand may be whatever can be read as one expression. Only for the longer form
the nesting can be too deep. The variable is read before the operand is evaluated. -/
theorem compound_assignments_are_sugar {x : String} {op : BinaryOp} {sign : Symbol}
    (compound : op.compound? = some sign) {words : List Word} {u : Parser} (holds : u.Holds words)
    {r : Parser.Parsed u.size Expr} (read : u.expression = .ok r) (whole : r.parser.rest = []) :
    (∀ (p q : Parser) (semi semi' : Token) (after after' : List Item),
      semi.kind = .symbol .semicolon → semi'.kind = .symbol .semicolon →
      p.Begins (spelledOutWords x op words) (.ok semi :: after) →
      q.Begins (compoundWords x sign words) (.ok semi' :: after') →
      q.limit = p.limit → q.depth ≤ p.depth →
      (∃ failure, p.statement = .error failure ∧ failure.error.cause = .tooDeep) ∨
      ∃ s t, p.statement = .ok s ∧ q.statement = .ok t ∧
        s.value.bare = .updating x op r.value.bare ∧ t.value.bare = .updating x op r.value.bare ∧
        s.parser.rest = .ok semi :: after ∧ t.parser.rest = .ok semi' :: after') ∧
    (∀ source source' : String,
      (Parser.ofSource source).Holds (spelledOutWords x op words ++ [Symbol.semicolon.word]) →
      (Parser.ofSource source').Holds (compoundWords x sign words ++ [Symbol.semicolon.word]) →
      (∃ error, Program.parse source = .error error ∧ error.cause = .tooDeep) ∨
      ∃ a b, Program.parse source = .ok [a] ∧ Program.parse source' = .ok [b] ∧
        a.bare = .updating x op r.value.bare ∧ b.bare = .updating x op r.value.bare) ∧
    ∀ e : Expr, e.bare = .updating x op r.value.bare →
      ∃ (target name : Ident) (right : Expr) (span : Span),
        target.name = x ∧ name.name = x ∧ right.bare = r.value.bare ∧
        ∀ (σ : Type) [Sink σ] (rounds : Nat) (m : Machine σ), m.depth + 2 < maxNesting →
          (e.eval rounds).run m = (do
            let old ← lookup name
            let new ← asValue (right.eval rounds)
            update op span target old new : EvalM σ (Control Value)).run m.deeper.deeper := by
  refine ⟨?_, ?_, ?_⟩
  · intro p q semi semi' after after' ends ends' long short limit depth
    have both :=
      Parser.statement_compound compound holds read whole ends ends' long short limit depth
    cases first : p.statement with
    | error failure =>
      rw [first] at both
      exact .inl ⟨failure, rfl, both⟩
    | ok s =>
      rw [first] at both
      obtain ⟨value, left, t, second, value', left'⟩ := both
      exact .inr ⟨s, t, rfl, second, value, value', left, left'⟩
  · intro source source' long short
    exact Parser.parse_compound compound holds read whole long short
  · intro e same
    obtain ⟨target, name, right, s, t, w, rfl, written, reads, operand⟩ :=
      Expr.exists_of_updating same
    refine ⟨target, name, right, t, written, reads, operand, ?_⟩
    intro σ _ rounds m fits
    exact EvalM.run_updating rounds op target name right s t w fits

/-- Before the words `1 - 2`. -/
def beforeDifference : Parser :=
  ⟨"1 - 2", [.ok ⟨.int, ⟨0, 1⟩⟩, .ok ⟨.symbol .minus, ⟨2, 1⟩⟩, .ok ⟨.int, ⟨4, 1⟩⟩],
    .endOfText 5, 0, none⟩

/-- After an operator that binds more tightly, the difference is still one operand. -/
theorem difference_is_one_factor :
    beforeDifference.Holds [(.int, "1"), Symbol.minus.word, (.int, "2")] ∧
    ∃ r, beforeDifference.expression = .ok r ∧ r.parser.rest = [] ∧
      ∃ a b, Program.parse "set x is x * (1 - 2);" = .ok [a] ∧
        Program.parse "set x *= 1 - 2;" = .ok [b] ∧
        a.bare = .updating "x" .multiply r.value.bare ∧
        b.bare = .updating "x" .multiply r.value.bare := by
  have holds : beforeDifference.Holds [(.int, "1"), Symbol.minus.word, (.int, "2")] :=
    ⟨⟨[⟨.int, ⟨0, 1⟩⟩, ⟨.symbol .minus, ⟨2, 1⟩⟩, ⟨.int, ⟨4, 1⟩⟩], rfl, by decide +kernel⟩, rfl⟩
  obtain ⟨r, read, whole⟩ : ∃ r, beforeDifference.expression = .ok r ∧ r.parser.rest = [] := by
    refine ⟨⟨.binary .subtract (.literal (.int 1) ⟨0, 1⟩) (.literal (.int 2) ⟨4, 1⟩) ⟨0, 5⟩,
      beforeDifference.before [], by decide⟩, ?_, rfl⟩
    with_unfolding_all rfl
  have long : (Parser.ofSource "set x is x * (1 - 2);").Holds
      (spelledOutWords "x" .multiply [(.int, "1"), Symbol.minus.word, (.int, "2")] ++
        [Symbol.semicolon.word]) := by
    refine ⟨⟨[⟨.keyword .set, ⟨0, 3⟩⟩, ⟨.ident, ⟨4, 1⟩⟩, ⟨.keyword .is, ⟨6, 2⟩⟩,
      ⟨.ident, ⟨9, 1⟩⟩, ⟨.symbol .star, ⟨11, 1⟩⟩, ⟨.symbol .leftParen, ⟨13, 1⟩⟩,
      ⟨.int, ⟨14, 1⟩⟩, ⟨.symbol .minus, ⟨16, 1⟩⟩, ⟨.int, ⟨18, 1⟩⟩,
      ⟨.symbol .rightParen, ⟨19, 1⟩⟩, ⟨.symbol .semicolon, ⟨20, 1⟩⟩], ?_, by decide +kernel⟩, rfl⟩
    with_unfolding_all rfl
  have short : (Parser.ofSource "set x *= 1 - 2;").Holds
      (compoundWords "x" .starEqual [(.int, "1"), Symbol.minus.word, (.int, "2")] ++
        [Symbol.semicolon.word]) := by
    refine ⟨⟨[⟨.keyword .set, ⟨0, 3⟩⟩, ⟨.ident, ⟨4, 1⟩⟩,
      ⟨.symbol .starEqual, ⟨6, 2⟩⟩, ⟨.int, ⟨9, 1⟩⟩, ⟨.symbol .minus, ⟨11, 1⟩⟩,
      ⟨.int, ⟨13, 1⟩⟩, ⟨.symbol .semicolon, ⟨14, 1⟩⟩], ?_, by decide +kernel⟩, rfl⟩
    with_unfolding_all rfl
  refine ⟨holds, r, read, whole, ?_⟩
  have sugar := (compound_assignments_are_sugar (x := "x") rfl holds read whole).2.1 _ _ long short
  refine sugar.resolve_left ?_
  rintro ⟨error, failed, -⟩
  have parsed : Program.parse "set x is x * (1 - 2);" = .ok [.assign ⟨"x", ⟨4, 1⟩⟩
      (.binary .multiply (.name ⟨"x", ⟨9, 1⟩⟩ ⟨9, 1⟩)
        (.binary .subtract (.literal (.int 1) ⟨14, 1⟩) (.literal (.int 2) ⟨18, 1⟩) ⟨13, 7⟩)
        ⟨9, 11⟩) ⟨0, 20⟩] := by with_unfolding_all rfl
  rw [parsed] at failed
  cases failed

end ExprLang

import ExprLang.Proofs.Grammar.Scanned
import ExprLang.Proofs.RoundTrip.Attempt

set_option autoImplicit false

/-!
What reading does to the parser, from single steps to whole phrases. Two relations need only be
shown of each kind of step: one between the parser before and the parser after a result, one between
the parser before and the trouble it meets. That they hold of everything that is read is proved
here, once, function by function.
-/

namespace ExprLang

/-- Whether the cause lies in the kinds of the tokens, or in their nesting. -/
def SyntaxError.isStructural : SyntaxError → Bool
  | .invalidLiteral _ | .lexical _ => false
  | _ => true

namespace Parser

variable {α β : Type} {n : Nat}

/-- What the parser can complain of where it stands: trouble of the scan, which is passed on as it
is, the kind or the depth of the next token, or a literal that has no value. -/
inductive Complains (p : Parser) : Located SyntaxError → Prop where
  | scan {trouble : Located LexicalError} {rest : List Item}
    (here : p.rest = .error trouble :: rest) :
    p.Complains ⟨.lexical trouble.cause, trouble.span⟩
  | token {token : Token} {cause : SyntaxError} (here : p.peek = .ok token)
    (structural : cause.isStructural = true) : p.Complains ⟨cause, token.span⟩
  | literal {token : Token} {rest : List Item} {cause : SyntaxError}
    (here : p.rest = .ok token :: rest) (empty : ¬ token.kind.Denotes (p.lexeme token)) :
    p.Complains ⟨cause, token.span⟩

/-- Relations that the steps of the parser keep to: `Ok` if they give a result, `Bad` if they meet
trouble, before or after they have used up the item in question. An expression comes back out of the
level that it has gone into also after trouble, a row of operands does not. -/
structure Rules (Ok : Parser → Parser → Prop) (Bad : Parser → Failure → Prop) : Prop where
  refl : ∀ p, Ok p p
  trans : ∀ {p q r}, Ok p q → Ok q r → Ok p r
  after : ∀ {p q failure}, Ok p q → Bad q failure → Bad p failure
  take : ∀ {p token rest}, p.rest = .ok token :: rest → Ok p { p with rest }
  stop : ∀ {p error}, p.Complains error → Bad p ⟨error, p⟩
  drop : ∀ {p item rest error}, p.rest = item :: rest → p.Complains error →
    Bad p ⟨error, { p with rest }⟩
  inside : ∀ {p q}, Ok p.descend q → Ok p q.ascend
  caught : ∀ {p failure}, Bad p.descend failure →
    Bad p { failure with parser := failure.parser.ascend }
  missed : ∀ {p failure}, Bad p.descend failure → Bad p failure

/-- Whether it gives a result or meets trouble, an attempt is as it should be. -/
def Obeys (Ok : Parser → Parser → Prop) (Bad : Parser → Failure → Prop) (p : Parser)
    (a : Attempt (Parsed n α)) : Prop :=
  Yields (Bad p) a fun r => Ok p r.parser

variable {Ok : Parser → Parser → Prop} {Bad : Parser → Failure → Prop}

/-- What is in order from where an attempt has come to is in order from where it started. -/
theorem Rules.onward (rules : Rules Ok Bad) {p q : Parser} (first : Ok p q)
    {a : Attempt (Parsed n α)} (rest : Obeys Ok Bad q a) : Obeys Ok Bad p a := by
  cases a with
  | ok r => exact rules.trans first rest
  | error failure => exact rules.after first rest

theorem Obeys.bind {p : Parser} {m : Nat} {a : Attempt (Parsed m α)}
    {f : Parsed m α → Attempt (Parsed n β)} (first : Obeys Ok Bad p a) (rules : Rules Ok Bad)
    (rest : ∀ value q shorter, Obeys Ok Bad q (f ⟨value, q, shorter⟩)) :
    Obeys Ok Bad p (a >>= f) := by
  cases a with
  | ok r => exact rules.onward first (rest r.value r.parser r.shorter)
  | error failure => exact first

variable (rules : Rules Ok Bad)

include rules

namespace Rules

theorem peek_bind {p : Parser} {f : Token → Attempt (Parsed n β)}
    (rest : ∀ token, p.peek = .ok token → Obeys Ok Bad p (f token)) :
    Obeys Ok Bad p (p.peek >>= f) := by
  cases here : p.peek with
  | ok token => exact rest token here
  | error failure =>
    unfold peek at here
    split at here
    next => cases here
    next => cases here
    next eq =>
      cases here
      exact rules.stop (.scan eq)

/-- Trouble with a token that has been used up is laid to where the token stood. -/
theorem next_bind {p : Parser} {atEnd : SyntaxError} (structural : atEnd.isStructural = true)
    {f : Parsed p.size Token → Attempt (Parsed n β)}
    (found : ∀ token rest (here : p.rest = .ok token :: rest),
      Obeys Ok Bad p (f ⟨token, { p with rest }, size_lt_of_rest here⟩)) :
    Obeys Ok Bad p (p.next atEnd >>= f) := by
  cases here : p.rest with
  | nil =>
    rw [next_of_nil here]
    exact rules.stop (.token (peek_of_nil here) structural)
  | cons item rest =>
    cases item with
    | ok token =>
      rw [next_of_rest here]
      exact found token rest here
    | error trouble =>
      rw [next_of_error here]
      exact rules.drop here (.scan here)

theorem expect (p : Parser) (kind : TokenKind) : Obeys Ok Bad p (p.expect kind) := by
  unfold Parser.expect
  refine rules.next_bind rfl fun token rest here => ?_
  dsimp only
  split
  · exact rules.take here
  · exact rules.drop here (.token (peek_of_rest here) rfl)

theorem expectIdent (p : Parser) : Obeys Ok Bad p p.expectIdent := by
  unfold Parser.expectIdent
  exact (rules.expect p _).bind rules fun _ q _ => rules.refl q

theorem takeIf_bind {p : Parser} {accept : Token → Option α}
    {f : Option (Parsed p.size α) → Attempt (Parsed n β)} (absent : Obeys Ok Bad p (f none))
    (found : ∀ value q shorter, Obeys Ok Bad q (f (some ⟨value, q, shorter⟩))) :
    Obeys Ok Bad p (p.takeIf? accept >>= f) := by
  unfold takeIf?
  split
  next => exact absent
  next eq => exact rules.stop (.scan eq)
  next eq =>
    split
    · exact rules.onward (rules.take eq) (found _ _ _)
    · exact absent

/-- Trouble one level further in that is not caught there. -/
theorem uncaught {p : Parser} {a : Attempt (Parsed n α)} (h : Obeys Ok Bad p.descend a) :
    Yields (Bad p) a fun r => Ok p.descend r.parser := by
  cases a with
  | ok r => exact h
  | error failure => exact rules.missed h

/-- The next token stands too deep. -/
theorem tooDeep {p : Parser} {token : Token} (here : p.peek = .ok token) :
    Bad p ⟨⟨.tooDeep, token.span⟩, p.descend⟩ := by
  have below : p.descend.peek = .ok token := by
    rw [← here]
    unfold peek at here
    split at here
    next eq => rw [peek_of_nil eq, peek_of_nil (p := p.descend) eq]; rfl
    next eq => rw [peek_of_rest eq, peek_of_rest (p := p.descend) eq]
    next => cases here
  exact rules.missed (rules.stop (.token below rfl))

end Rules

theorem typeExpr_obeys (p : Parser) : Obeys Ok Bad p p.typeExpr := by
  rw [typeExpr]
  refine rules.next_bind rfl fun token rest here => ?_
  have first := rules.take here
  have shorter := size_lt_of_rest here
  dsimp only
  split
  case h_6 =>
    refine rules.onward first ?_
    refine (rules.expect _ _).bind rules fun _ q _ => ?_
    refine (typeExpr_obeys q).bind rules fun _ q _ => ?_
    exact (rules.expect q _).bind rules fun _ q _ => rules.refl q
  case h_7 =>
    refine rules.onward first ?_
    refine (rules.expect _ _).bind rules fun _ q _ => ?_
    refine (typeExpr_obeys q).bind rules fun _ q _ => ?_
    refine (rules.expect q _).bind rules fun _ q _ => ?_
    exact (typeExpr_obeys q).bind rules fun _ q _ => rules.refl q
  case h_8 => exact rules.drop here (.token (peek_of_rest here) rfl)
  all_goals exact first
termination_by p.size

mutual

theorem statement_obeys (p : Parser) : Obeys Ok Bad p p.statement := by
  rw [statement]
  refine rules.takeIf_bind (expression_obeys p) fun _ q _ => ?_
  refine rules.peek_bind fun following seen => ?_
  dsimp only
  split
  case h_4 => exact (expression_obeys q).bind rules fun _ q _ => rules.refl q
  all_goals exact rules.refl q
termination_by p.size * 8 + 4

theorem expression_obeys (p : Parser) : Obeys Ok Bad p p.expression := by
  rw [expression]
  refine rules.peek_bind fun first seen => ?_
  split
  · exact rules.tooDeep seen
  · have inner := expressionFrom_obeys p.descend first.kind
    cases eq : p.descend.expressionFrom first.kind with
    | ok r =>
      rw [eq] at inner
      exact rules.inside inner
    | error failure =>
      rw [eq] at inner
      exact rules.caught inner
termination_by p.size * 8 + 3

theorem expressionFrom_obeys (p : Parser) (first : TokenKind) :
    Obeys Ok Bad p (p.expressionFrom first) := by
  rw [expressionFrom.eq_def]
  split
  case h_1 | h_2 => exact (declaration_obeys p).bind rules fun _ q _ => rules.refl q
  case h_3 => exact assignment_obeys p
  case h_4 => exact (conditional_obeys p).bind rules fun _ q _ => rules.refl q
  case h_5 => exact loop_obeys p
  case h_6 => exact (block_obeys p).bind rules fun _ q _ => rules.refl q
  case h_7 => exact operation_obeys p 0
termination_by p.size * 8 + 2

theorem block_obeys (p : Parser) : Obeys Ok Bad p p.block := by
  rw [block]
  refine (rules.expect p _).bind rules fun _ q _ => ?_
  exact (blockRest_obeys q).bind rules fun _ q _ => rules.refl q
termination_by p.size * 8

theorem blockRest_obeys (p : Parser) : Obeys Ok Bad p p.blockRest := by
  rw [blockRest]
  refine rules.peek_bind fun following seen => ?_
  split
  · exact (rules.expect p _).bind rules fun _ q _ => rules.refl q
  · refine (rules.expect p _).bind rules fun _ q _ => ?_
    exact (blockRest_obeys q).bind rules fun _ q _ => rules.refl q
  · exact rules.stop (.token seen rfl)
  · refine (statement_obeys p).bind rules fun _ q _ => ?_
    refine rules.takeIf_bind ?_ fun _ q _ => ?_
    · exact (rules.expect q _).bind rules fun _ q _ => rules.refl q
    · exact (blockRest_obeys q).bind rules fun _ q _ => rules.refl q
termination_by p.size * 8 + 5

theorem declaration_obeys (p : Parser) : Obeys Ok Bad p p.declaration := by
  rw [declaration]
  refine rules.next_bind rfl fun keyword rest here => ?_
  have shorter := size_lt_of_rest here
  dsimp only
  split
  case h_3 => exact rules.drop here (.token (peek_of_rest here) rfl)
  case h_1 | h_2 =>
    refine rules.onward (rules.take here) ?_
    refine (rules.expectIdent _).bind rules fun _ q _ => ?_
    refine (typeExpr_obeys rules q).bind rules fun _ q _ => ?_
    refine (rules.expect q _).bind rules fun _ q _ => ?_
    exact (expression_obeys q).bind rules fun _ q _ => rules.refl q
termination_by p.size * 8

theorem assignment_obeys (p : Parser) : Obeys Ok Bad p p.assignment := by
  rw [assignment]
  refine (rules.expect p _).bind rules fun _ q _ => ?_
  refine (rules.expectIdent q).bind rules fun _ q _ => ?_
  refine rules.next_bind rfl fun operator rest here => ?_
  have shorter := size_lt_of_rest here
  dsimp only
  split
  · exact rules.drop here (.token (peek_of_rest here) rfl)
  · refine rules.onward (rules.take here) ?_
    exact (expression_obeys _).bind rules fun _ q _ => rules.refl q
termination_by p.size * 8

theorem conditional_obeys (p : Parser) : Obeys Ok Bad p p.conditional := by
  rw [conditional]
  refine (rules.expect p _).bind rules fun _ q _ => ?_
  refine (expression_obeys q).bind rules fun _ q _ => ?_
  refine (rules.expect q _).bind rules fun _ q _ => ?_
  refine (block_obeys q).bind rules fun _ q _ => ?_
  refine rules.takeIf_bind (rules.refl q) fun _ q _ => ?_
  refine rules.peek_bind fun following seen => ?_
  dsimp only
  split
  · exact (conditional_obeys q).bind rules fun _ q _ => rules.refl q
  · exact (block_obeys q).bind rules fun _ q _ => rules.refl q
termination_by p.size * 8

theorem loop_obeys (p : Parser) : Obeys Ok Bad p p.loop := by
  rw [loop]
  refine (rules.expect p _).bind rules fun _ q _ => ?_
  refine (declarations_obeys q).bind rules fun _ q _ => ?_
  exact (block_obeys q).bind rules fun _ q _ => rules.refl q
termination_by p.size * 8

theorem declarations_obeys (p : Parser) : Obeys Ok Bad p p.declarations := by
  rw [declarations]
  refine (declaration_obeys p).bind rules fun _ q _ => ?_
  refine rules.takeIf_bind (rules.refl q) fun _ q _ => ?_
  exact (declarations_obeys q).bind rules fun _ q _ => rules.refl q
termination_by p.size * 8 + 1

theorem operation_obeys (p : Parser) (power : Nat) : Obeys Ok Bad p (p.operation power) := by
  rw [operation]
  refine rules.peek_bind fun first seen => ?_
  split
  · exact rules.tooDeep seen
  -- trouble passes by the step back out, so the two readings are related to `p.descend` as long as
  -- they go on, and to `p` where they fail
  · refine Yields.bind (rules.uncaught (operand_obeys p.descend)) ?_
    rintro ⟨lhs, q, shorter⟩ first
    have shorter : q.size < p.size := shorter
    have others := rules.onward first (operationRest_obeys q power lhs)
    exact Yields.bind (rules.uncaught others) fun _ left => rules.inside left
termination_by p.size * 8 + 1

theorem operationRest_obeys (p : Parser) (power : Nat) (lhs : Expr) :
    Obeys Ok Bad p (p.operationRest power lhs) := by
  rw [operationRest]
  refine rules.takeIf_bind (rules.refl p) fun op q _ => ?_
  refine (operation_obeys q _).bind rules fun _ q _ => ?_
  exact (operationRest_obeys q power _).bind rules fun _ q _ => rules.refl q
termination_by p.size * 8

theorem operand_obeys (p : Parser) : Obeys Ok Bad p p.operand := by
  rw [operand]
  refine rules.next_bind rfl fun token rest here => ?_
  have first := rules.take here
  have shorter := size_lt_of_rest here
  dsimp only
  split
  -- A literal that is not read has no value.
  case h_1 kind =>
    split
    next => exact first
    next none =>
      refine rules.drop here (.literal here ?_)
      rw [kind]
      rintro ⟨n, value⟩
      rw [none] at value
      cases value
  case h_2 kind =>
    split
    next => exact first
    next none =>
      refine rules.drop here (.literal here ?_)
      rw [kind]
      rintro ⟨d, value⟩
      rw [none] at value
      cases value
  case h_3 kind =>
    split
    next => exact first
    next trouble =>
      refine rules.drop here (.literal here ?_)
      rw [kind]
      rintro ⟨s, value⟩
      rw [trouble] at value
      cases value
  case h_4 | h_5 => exact first
  case h_6 =>
    refine rules.onward first (rules.takeIf_bind (rules.refl _) fun _ q _ => ?_)
    exact (expressions_obeys q _).bind rules fun _ q _ => rules.refl q
  case h_7 =>
    refine rules.onward first ?_
    exact (expressions_obeys _ _).bind rules fun _ q _ => rules.refl q
  case h_8 =>
    refine rules.onward first ?_
    exact (entries_obeys _).bind rules fun _ q _ => rules.refl q
  case h_9 | h_10 =>
    refine rules.onward first ?_
    exact (operation_obeys _ _).bind rules fun _ q _ => rules.refl q
  case h_11 =>
    refine rules.onward first ?_
    refine (expression_obeys _).bind rules fun _ q _ => ?_
    exact (rules.expect q _).bind rules fun _ q _ => rules.refl q
  case h_12 => exact rules.drop here (.token (peek_of_rest here) rfl)
termination_by p.size * 8

theorem expressions_obeys (p : Parser) (closing : TokenKind) :
    Obeys Ok Bad p (p.expressions closing) := by
  rw [expressions]
  refine rules.takeIf_bind ?_ fun _ q _ => rules.refl q
  refine (expression_obeys p).bind rules fun _ q _ => ?_
  refine rules.takeIf_bind ?_ fun _ q _ => ?_
  · exact (rules.expect q _).bind rules fun _ q _ => rules.refl q
  · exact (expressions_obeys q closing).bind rules fun _ q _ => rules.refl q
termination_by p.size * 8 + 4

theorem entries_obeys (p : Parser) : Obeys Ok Bad p p.entries := by
  rw [entries]
  refine rules.takeIf_bind ?_ fun _ q _ => rules.refl q
  refine (expression_obeys p).bind rules fun _ q _ => ?_
  refine (rules.expect q _).bind rules fun _ q _ => ?_
  refine (expression_obeys q).bind rules fun _ q _ => ?_
  refine rules.takeIf_bind ?_ fun _ q _ => ?_
  · exact (rules.expect q _).bind rules fun _ q _ => rules.refl q
  · exact (entries_obeys q).bind rules fun _ q _ => rules.refl q
termination_by p.size * 8 + 4

end

theorem program_obeys (p : Parser) : Obeys Ok Bad p p.program := by
  rw [program]
  refine rules.peek_bind fun following seen => ?_
  split
  · exact rules.refl p
  · refine (rules.expect p _).bind rules fun _ q _ => ?_
    exact (program_obeys q).bind rules fun _ q _ => rules.refl q
  · refine (statement_obeys rules p).bind rules fun _ q _ => ?_
    refine (rules.expect q _).bind rules fun _ q _ => ?_
    exact (program_obeys q).bind rules fun _ q _ => rules.refl q
termination_by p.size

omit rules

/-- From `p`, tokens have been used up on the way to `q`, and nothing else has changed. -/
structure Advances (p q : Parser) : Prop where
  source : q.source = p.source
  eof : q.eof = p.eof
  depth : q.depth = p.depth
  limit : q.limit = p.limit
  used : ∃ tokens : List Token, p.rest = tokens.map .ok ++ q.rest

namespace Advances

theorem refl (p : Parser) : p.Advances p :=
  ⟨rfl, rfl, rfl, rfl, [], rfl⟩

theorem trans {p q r : Parser} (first : p.Advances q) (second : q.Advances r) : p.Advances r where
  source := second.source.trans first.source
  eof := second.eof.trans first.eof
  depth := second.depth.trans first.depth
  limit := second.limit.trans first.limit
  used := by
    obtain ⟨tokens, here⟩ := first.used
    obtain ⟨others, there⟩ := second.used
    exact ⟨tokens ++ others, by rw [here, there, List.map_append, List.append_assoc]⟩

theorem take {p : Parser} {token : Token} {rest : List Item} (here : p.rest = .ok token :: rest) :
    p.Advances { p with rest } :=
  ⟨rfl, rfl, rfl, rfl, [token], here⟩

theorem inside {p q : Parser} (inner : p.descend.Advances q) : p.Advances q.ascend :=
  { inner with depth := congrArg (· - 1) inner.depth }

end Advances

/-- Whatever is read, the parser advances. -/
theorem rules_advances : Rules Advances fun _ _ => True where
  refl := .refl
  trans := .trans
  after _ _ := trivial
  take := .take
  stop _ := trivial
  drop _ _ := trivial
  inside := .inside
  caught _ := trivial
  missed _ := trivial

end Parser

end ExprLang

import ExprLang.Proofs.Grammar.Completeness
import ExprLang.Proofs.Grammar.Soundness
import ExprLang.Proofs.Nesting.Limit
import ExprLang.Proofs.RoundTrip.Words

set_option autoImplicit false

/-!
Operations as rows of pieces: operators, and the atoms that stand between them. A tree has its
pieces from left to right, and so has the text from one place to another; which of the operators
has which operands is a matter of the tree alone.
-/

namespace ExprLang

/-! ### Trees of operators -/

/-- A piece of an operation as it is written: an operator, or an operand that is none itself. -/
inductive Piece where
  | operator (kind : TokenKind)
  | atom (e : Expr)

namespace Expr

/-- What is a unit to the operators around it. -/
def isAtom : Expr → Bool
  | .literal .. | .name .. | .call .. | .list .. | .map .. => true
  | _ => false

/-- The pieces of a tree, from left to right. -/
def pieces : Expr → List Piece
  | .unary op operand _ => .operator op.word.1 :: operand.pieces
  | .binary op lhs rhs _ => lhs.pieces ++ .operator op.word.1 :: rhs.pieces
  | e => [.atom e]

/-- The operator at the top, if it stands between two operands. -/
def joint? : Expr → Option BinaryOp
  | .binary op .. => some op
  | _ => none

/-- The prefix operators on the way down the right edge. -/
def rightEdge : Expr → List UnaryOp
  | .unary op operand _ => op :: operand.rightEdge
  | .binary _ _ rhs _ => rhs.rightEdge
  | _ => []

/-- At each operator, what is an operand of it binds more tightly. On the left as tightly is enough,
so that equals group to the left; there no prefix operator may be open that would take in the
operator as well. -/
def Grouped : Expr → Prop
  | .unary u operand _ => operand.Grouped ∧ ∀ o ∈ operand.joint?, u.power ≤ o.leftPower
  | .binary o lhs rhs _ =>
    (lhs.Grouped ∧ rhs.Grouped) ∧
    (∀ l ∈ lhs.joint?, o.leftPower ≤ l.leftPower) ∧
    (∀ r ∈ rhs.joint?, o.leftPower < r.leftPower) ∧
    ∀ u ∈ lhs.rightEdge, o.leftPower < u.power
  | _ => True

end Expr

namespace Parser

/-! ### Rows of pieces -/

/-- The same place in the text, outside of everything and with no limit on nesting. -/
def afresh (p : Parser) : Parser :=
  { p with depth := 0, limit := none }

theorem roomier_afresh (p : Parser) : p.afresh.Roomier p :=
  ⟨rfl, rfl, rfl, .inl rfl⟩

theorem Roomier.afresh_eq {p q : Parser} (h : p.Roomier q) : p.afresh = q.afresh := by
  rw [afresh, h.source, h.rest, h.eof]
  rfl

/-- From `p` to `q` stand the given pieces. How deep they may nest is of no account. -/
inductive Spells : Parser → List Piece → Parser → Prop where
  | done {p q : Parser} (same : p.afresh = q.afresh) : Spells p [] q
  | operator {p r : Parser} {token : Token} {rest : List Item} {pieces : List Piece}
    (known : token.kind ∈ unaryKinds ++ binaryKinds) (first : p.rest = .ok token :: rest)
    (others : Spells { p with rest } pieces r) : Spells p (.operator token.kind :: pieces) r
  | atom {p q r : Parser} {e : Expr} {shorter : q.size < p.afresh.size} {pieces : List Piece}
    (read : p.afresh.operand = .ok ⟨e, q, shorter⟩) (unit : e.isAtom = true)
    (others : Spells q pieces r) : Spells p (.atom e :: pieces) r

theorem rest_eq_of_afresh {p q : Parser} (same : p.afresh = q.afresh) : p.rest = q.rest :=
  congrArg (·.rest) same

theorem size_eq_of_afresh {p q : Parser} (same : p.afresh = q.afresh) : p.size = q.size :=
  congrArg (·.size) same

namespace Spells

variable {p q r : Parser} {pieces : List Piece}

/-- The pieces are the same for every parser that stands before them. -/
theorem of_afresh (h : p.Spells pieces r) (same : q.afresh = p.afresh) : q.Spells pieces r := by
  induction h generalizing q with
  | done there => exact .done (same.trans there)
  | @operator p _ _ rest _ known first _ ih =>
    have after : ({ q with rest } : Parser).afresh = ({ p with rest } : Parser).afresh :=
      congrArg (fun start : Parser => { start with rest }) same
    exact .operator known ((rest_eq_of_afresh same).trans first) (ih after)
  | @atom p next _ e _ _ read unit others =>
    obtain ⟨shorter, read⟩ : ∃ shorter, q.afresh.operand = .ok ⟨e, next, shorter⟩ := by
      rw [same]
      exact ⟨_, read⟩
    exact .atom read unit others

/-- Each piece takes at least one token. -/
theorem size_le (h : p.Spells pieces r) : r.size + pieces.length ≤ p.size := by
  induction h with
  | done same => exact Nat.le_of_eq (size_eq_of_afresh same).symm
  | operator known first others ih =>
    have shorter := size_lt_of_rest first
    rw [List.length_cons]
    omega
  | @atom p next _ _ shorter _ read unit others ih =>
    have shorter : next.size < p.size := shorter
    rw [List.length_cons]
    omega

end Spells

/-! ### The first token -/

variable {p r : Parser} {token : Token} {rest : List Item} {pieces : List Piece}

theorem exists_of_bind_eq_ok {α β : Type} {a : Attempt α} {f : α → Attempt β} {y : β}
    (h : (a >>= f) = .ok y) : ∃ x, a = .ok x ∧ f x = .ok y := by
  cases a with
  | ok x => exact ⟨x, rfl, h⟩
  | error failure => cases h

theorem operand_first {found : Parsed p.size Expr} (read : p.operand = .ok found) :
    ∃ token rest, p.rest = .ok token :: rest ∧ token.kind ∈ testKinds := by
  have arises := operand_arises p
  rw [read] at arises
  obtain ⟨_, ⟨tokens, items, rfl⟩, test⟩ := arises.takes
  obtain ⟨k, t, kinds, known⟩ := test.first_test
  cases tokens with
  | nil => cases kinds
  | cons token tokens =>
    obtain ⟨rfl, -⟩ := List.cons.inj kinds
    exact ⟨token, _, items, known⟩

theorem operand_of_unary (u : UnaryOp) (first : p.rest = .ok token :: rest)
    (kind : token.kind = u.word.1) :
    p.operand = (do
      let ⟨e, q, h⟩ ← Parser.operation { p with rest } u.power
      .ok ⟨.unary u e (token.span.merge e.span), q, Nat.lt_trans h (size_lt_of_rest first)⟩) := by
  obtain ⟨_, lexeme, span⟩ := token
  obtain rfl := kind
  rw [operand, next_of_rest first]
  cases u <;> rfl

theorem exists_unary (known : token.kind ∈ unaryKinds) : ∃ u : UnaryOp, token.kind = u.word.1 := by
  simp only [unaryKinds, List.mem_cons, List.not_mem_nil, or_false] at known
  rcases known with minus | not
  · exact ⟨.minus, minus⟩
  · exact ⟨.not, not⟩

/-- An operator at the beginning of an operand is a prefix operator. -/
theorem mem_unaryKinds_of_operand {found : Parsed p.size Expr} (read : p.operand = .ok found)
    (first : p.rest = .ok token :: rest) (known : token.kind ∈ unaryKinds ++ binaryKinds) :
    token.kind ∈ unaryKinds := by
  obtain ⟨_, _, items, test⟩ := operand_first read
  rw [first] at items
  cases items
  have apart : ∀ k ∈ unaryKinds ++ binaryKinds, k ∈ testKinds → k ∈ unaryKinds := by decide
  exact apart _ known test

/-- An atom does not begin with an operator. -/
theorem not_operator_of_atom {found : Parsed p.size Expr} (read : p.operand = .ok found)
    (unit : found.value.isAtom = true) (first : p.rest = .ok token :: rest) :
    token.kind ∉ unaryKinds ++ binaryKinds := by
  intro known
  obtain ⟨u, kind⟩ := exists_unary (mem_unaryKinds_of_operand read first known)
  rw [operand_of_unary u first kind] at read
  obtain ⟨⟨e, q, _⟩, -, same⟩ := exists_of_bind_eq_ok read
  cases same
  cases unit

/-- Where an operator comes first, it is the first of the pieces. -/
theorem Spells.operator_first (h : p.Spells pieces r) (first : p.rest = .ok token :: rest)
    (known : token.kind ∈ unaryKinds ++ binaryKinds) (inside : r.size < p.size) :
    ∃ others, pieces = .operator token.kind :: others ∧ Spells { p with rest } others r := by
  cases h with
  | done same => exact absurd (size_eq_of_afresh same) (Nat.ne_of_gt inside)
  | operator _ first' others =>
    rw [first] at first'
    cases first'
    exact ⟨_, rfl, others⟩
  | atom read unit _ =>
    exact absurd known (not_operator_of_atom read unit first)

end Parser

end ExprLang

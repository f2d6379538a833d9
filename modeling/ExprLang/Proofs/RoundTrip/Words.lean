import ExprLang.Expr.Parser
import ExprLang.Proofs.Places
import ExprLang.Proofs.RoundTrip.Literals
import ExprLang.Proofs.Subexpr

set_option autoImplicit false

/-!
The words that a syntax tree is written with. Words are listed in front of those that follow, so
that text, words and tree can be compared from the front.
-/

namespace ExprLang

/-! ### Words -/

def Ident.word (i : Ident) : Word :=
  (.ident, i.name)

def Binding.keyword : Binding → Keyword
  | var => .var
  | const => .const

def Exit.reserved : Exit → Keyword
  | return_ => .return_
  | break_ => .break_

def UnaryOp.word : UnaryOp → Word
  | minus => Symbol.minus.word
  | not => Keyword.not.word

def BinaryOp.word : BinaryOp → Word
  | add => Symbol.plus.word
  | subtract => Symbol.minus.word
  | multiply => Symbol.star.word
  | divide => Symbol.slash.word
  | modulo => Symbol.percent.word
  | equal => Symbol.equal.word
  | greater => Symbol.greater.word
  | less => Symbol.less.word
  | greaterEqual => Symbol.greaterEqual.word
  | lessEqual => Symbol.lessEqual.word
  | and => Keyword.and.word
  | or => Keyword.or.word
  | index => Symbol.underscore.word

/-- The words of a type, before others. -/
def TypeExpr.words : TypeExpr → List Word → List Word
  | none _, ws => Keyword.none.word :: ws
  | int _, ws => Keyword.int.word :: ws
  | dec _, ws => Keyword.dec.word :: ws
  | str _, ws => Keyword.str.word :: ws
  | bool _, ws => Keyword.bool.word :: ws
  | list element _, ws =>
    Keyword.list.word :: Symbol.leftBracket.word :: element.words (Symbol.rightBracket.word :: ws)
  | map key value _, ws =>
    Keyword.map.word :: Symbol.leftBracket.word ::
      key.words (Symbol.rightBracket.word :: value.words ws)

mutual

/-- The words of an expression, before others. -/
def Expr.words : Expr → List Word → List Word
  | .literal value _, ws => value.word :: ws
  | .list items _, ws =>
    Symbol.leftBracket.word :: Expr.wordsAll items (Symbol.rightBracket.word :: ws)
  | .map entries _, ws =>
    Symbol.leftTriangle.word :: Expr.wordsEntries entries (Symbol.rightTriangle.word :: ws)
  | .name ident _, ws => ident.word :: ws
  | .unary op operand _, ws =>
    Symbol.leftParen.word :: op.word :: operand.words (Symbol.rightParen.word :: ws)
  | .binary op lhs rhs _, ws =>
    Symbol.leftParen.word :: lhs.words (op.word :: rhs.words (Symbol.rightParen.word :: ws))
  | .declare declaration _, ws => declaration.words ws
  | .assign target value _, ws =>
    Keyword.set.word :: target.word :: Keyword.is.word :: value.words ws
  | .block body _, ws => body.words ws
  | .cond branches _, ws => branches.words ws
  | .loop vars body _, ws => Keyword.for_.word :: Declaration.wordsAll vars (body.words ws)
  | .exit kind none _, ws => kind.reserved.word :: ws
  | .exit kind (some value) _, ws => kind.reserved.word :: value.words ws
  | .call callee arguments _, ws =>
    callee.word :: Symbol.leftParen.word ::
      Expr.wordsAll arguments (Symbol.rightParen.word :: ws)

/-- The words of expressions with commas between them. -/
def Expr.wordsAll : List Expr → List Word → List Word
  | [], ws => ws
  | [e], ws => e.words ws
  | e :: es, ws => e.words (Symbol.comma.word :: Expr.wordsAll es ws)

def Expr.wordsEntries : List (Expr × Expr) → List Word → List Word
  | [], ws => ws
  | [(key, value)], ws => key.words (Symbol.colon.word :: value.words ws)
  | (key, value) :: es, ws =>
    key.words (Symbol.colon.word ::
      value.words (Symbol.comma.word :: Expr.wordsEntries es ws))

def Declaration.words : Declaration → List Word → List Word
  | .mk binding name type value _, ws =>
    binding.keyword.word :: name.word :: type.words (Keyword.is.word :: value.words ws)

def Declaration.wordsAll : List Declaration → List Word → List Word
  | [], ws => ws
  | [d], ws => d.words ws
  | d :: ds, ws => d.words (Symbol.comma.word :: Declaration.wordsAll ds ws)

def Block.words : Block → List Word → List Word
  | .mk statements _, ws =>
    Symbol.leftBrace.word :: Expr.wordsLines statements (Symbol.rightBrace.word :: ws)

/-- The words of statements with a semicolon after each. -/
def Expr.wordsLines : List Expr → List Word → List Word
  | [], ws => ws
  | e :: es, ws => e.words (Symbol.semicolon.word :: Expr.wordsLines es ws)

def Conditional.words : Conditional → List Word → List Word
  | .only condition body, ws =>
    Keyword.if_.word :: condition.words (Keyword.then_.word :: body.words ws)
  | .withElse condition body otherwise, ws =>
    Keyword.if_.word :: condition.words (Keyword.then_.word ::
      body.words (Keyword.else_.word :: otherwise.words ws))
  | .withElseIf condition body next _, ws =>
    Keyword.if_.word :: condition.words (Keyword.then_.word ::
      body.words (Keyword.else_.word :: next.words ws))

end

/-! ### Trees that can be written and read -/

namespace Expr

def isExit : Expr → Bool
  | exit .. => true
  | _ => false

/-- Whether the expression would have to stand in brackets to be an operand. -/
def isCompound : Expr → Bool
  | declare .. | assign .. | block .. | cond .. | loop .. => true
  | _ => false

/-- The children of an expression that are not statements of a block. -/
def parts : Expr → List Expr
  | block .. => []
  | cond branches _ => branches.conditions
  | loop vars _ _ => vars.map (·.value)
  | e => e.children

/-- The names that stand directly in an expression. -/
def names : Expr → List Ident
  | name ident _ => [ident]
  | declare declaration _ => [declaration.name]
  | assign target _ _ => [target]
  | loop vars _ _ => vars.map (·.name)
  | call callee _ _ => [callee]
  | _ => []

/-- What holds of every node that is read from a source. -/
structure Regular (e : Expr) : Prop where
  names : ∀ i ∈ e.names, IsName i.name
  parts : ∀ x ∈ e.parts, x.isExit = false
  unsigned : ∀ value span, e = .literal value span → value.Unsigned
  vars : ∀ body span, e ≠ .loop [] body span

/-- A node that is written in a form that stands for it: the literal in it can be read again, and
its operands need no brackets. -/
def Plain : Expr → Prop
  | literal value _ => value.Plain
  | unary _ operand _ => operand.isCompound = false
  | binary _ lhs rhs _ => lhs.isCompound = false ∧ rhs.isCompound = false
  | _ => True

instance : DecidablePred Plain
  | literal value _ => inferInstanceAs (Decidable value.Plain)
  | unary _ operand _ => inferInstanceAs (Decidable (operand.isCompound = false))
  | binary _ lhs rhs _ =>
    inferInstanceAs (Decidable (lhs.isCompound = false ∧ rhs.isCompound = false))
  | list .. | map .. | name .. | declare .. | assign .. | block .. | cond .. | loop .. | exit ..
  | call .. => .isTrue trivial

end Expr

/-- Whether a token can be the first one of an expression as it is written. -/
def TokenKind.opens : TokenKind → Bool
  | symbol .leftBracket | symbol .leftTriangle | symbol .leftParen | symbol .leftBrace => true
  | keyword .true | keyword .false | keyword .var | keyword .const | keyword .set
  | keyword .if_ | keyword .for_ => true
  | int | dec | string | ident => true
  | _ => false

theorem Literal.opens_word (l : Literal) : l.word.1.opens = true := by
  cases l with
  | bool b => cases b <;> rfl
  | _ => rfl

theorem Declaration.words_eq (d : Declaration) (ws : List Word) :
    d.words ws = d.binding.keyword.word :: d.name.word ::
      d.type.words (Keyword.is.word :: d.value.words ws) := by
  cases d
  rw [words]
  rfl

/-- The words of what comes after the first block of a conditional. -/
def Conditional.wordsElse : Conditional → List Word → List Word
  | .only _ _, ws => ws
  | .withElse _ _ otherwise, ws => Keyword.else_.word :: otherwise.words ws
  | .withElseIf _ _ next _, ws => Keyword.else_.word :: next.words ws

theorem Conditional.words_eq (branches : Conditional) (ws : List Word) :
    branches.words ws = Keyword.if_.word :: branches.condition.words
      (Keyword.then_.word :: branches.body.words (branches.wordsElse ws)) := by
  cases branches <;> rw [words] <;> rfl

/-- An expression starts with a word that tells it from the end of a row or of a block. -/
theorem Expr.words_opens {e : Expr} (valued : e.isExit = false) (ws : List Word) :
    ∃ first tail, e.words ws = first :: tail ∧ first.1.opens = true := by
  cases e with
  | literal l => exact ⟨_, _, by rw [words], l.opens_word⟩
  | declare d =>
    refine ⟨_, _, by rw [words, Declaration.words_eq], ?_⟩
    cases d.binding <;> rfl
  | block body =>
    cases body
    exact ⟨_, _, by rw [words, Block.words], rfl⟩
  | cond branches => exact ⟨_, _, by rw [words, Conditional.words_eq], rfl⟩
  | exit => cases valued
  | _ => exact ⟨_, _, by rw [words], rfl⟩

theorem Expr.opens_of_head {e : Expr} (valued : e.isExit = false) {ws : List Word} :
    ∀ w ∈ (e.words ws).head?, w.1.opens = true := by
  obtain ⟨first, tail, eq, opens⟩ := words_opens valued ws
  rw [eq]
  rintro w ⟨⟩
  exact opens

end ExprLang

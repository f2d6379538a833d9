import ExprLang.Expr.Parser
import Mathlib.Data.List.Basic

set_option autoImplicit false

/-!
The grammar of programs, over the kinds of tokens. It says which rows of tokens are programs, and
not how to read them: operators have no precedence here, and nothing is said of how many tokens
have to be looked at.
-/

namespace ExprLang

/-! ### Kinds that stand for one another -/

def typeKinds : List TokenKind :=
  [.keyword .none, .keyword .int, .keyword .dec, .keyword .str, .keyword .bool]

def literalKinds : List TokenKind :=
  [.int, .dec, .string, .keyword .true, .keyword .false]

def unaryKinds : List TokenKind :=
  [.symbol .minus, .keyword .not]

def binaryKinds : List TokenKind :=
  [.symbol .plus, .symbol .minus, .symbol .star, .symbol .slash, .symbol .percent, .symbol .equal,
   .symbol .greater, .symbol .less, .symbol .greaterEqual, .symbol .lessEqual, .keyword .and,
   .keyword .or, .symbol .underscore]

def bindingKinds : List TokenKind :=
  [.keyword .var, .keyword .const]

def assignmentKinds : List TokenKind :=
  [.keyword .is, .symbol .plusEqual, .symbol .minusEqual, .symbol .starEqual, .symbol .slashEqual,
   .symbol .percentEqual]

def exitKinds : List TokenKind :=
  [.keyword .return_, .keyword .break_]

/-- So many semicolons. -/
def semicolons (n : Nat) : List TokenKind :=
  List.replicate n (.symbol .semicolon)

/-! ### Phrases -/

/-- The categories of phrases. -/
inductive Phrase where
  | type | atom | operand | test | row | entries | declaration | declarations | assignment
  | conditional | loop | sequence | block | expression | statement | program

/-- A row of kinds is a phrase of the category. -/
inductive Derives : Phrase → List TokenKind → Prop where
  -- type := name | "list" "[" type "]" | "map" "[" type "]" type
  | typeName {k : TokenKind} (known : k ∈ typeKinds) : Derives .type [k]
  | listType {t : List TokenKind} (element : Derives .type t) :
    Derives .type (.keyword .list :: .symbol .leftBracket :: (t ++ [.symbol .rightBracket]))
  | mapType {t u : List TokenKind} (key : Derives .type t) (value : Derives .type u) :
    Derives .type (.keyword .map :: .symbol .leftBracket :: (t ++ .symbol .rightBracket :: u))
  -- atom := literal | list | map | name | call | "(" expression ")"
  | literal {k : TokenKind} (known : k ∈ literalKinds) : Derives .atom [k]
  | list {r : List TokenKind} (items : Derives .row r) :
    Derives .atom (.symbol .leftBracket :: (r ++ [.symbol .rightBracket]))
  | map {r : List TokenKind} (entries : Derives .entries r) :
    Derives .atom (.symbol .leftTriangle :: (r ++ [.symbol .rightTriangle]))
  | name : Derives .atom [.ident]
  | call {r : List TokenKind} (arguments : Derives .row r) :
    Derives .atom (.ident :: .symbol .leftParen :: (r ++ [.symbol .rightParen]))
  | bracket {e : List TokenKind} (inner : Derives .expression e) :
    Derives .atom (.symbol .leftParen :: (e ++ [.symbol .rightParen]))
  -- operand := unary* atom
  | plain {a : List TokenKind} (atom : Derives .atom a) : Derives .operand a
  | unary {k : TokenKind} {a : List TokenKind} (known : k ∈ unaryKinds)
      (operand : Derives .operand a) : Derives .operand (k :: a)
  -- test := operand (binary operand)*
  | single {a : List TokenKind} (operand : Derives .operand a) : Derives .test a
  | joined {k : TokenKind} {a t : List TokenKind} (operand : Derives .operand a)
      (known : k ∈ binaryKinds) (test : Derives .test t) : Derives .test (a ++ k :: t)
  -- row := (expression ("," expression)* ","?)?
  | noItem : Derives .row []
  | lastItem {e : List TokenKind} (item : Derives .expression e) : Derives .row e
  | moreItems {e r : List TokenKind} (item : Derives .expression e) (others : Derives .row r) :
    Derives .row (e ++ .symbol .comma :: r)
  -- entries := (entry ("," entry)* ","?)?, where entry := expression ":" expression
  | noEntry : Derives .entries []
  | lastEntry {e f : List TokenKind} (key : Derives .expression e)
      (value : Derives .expression f) : Derives .entries (e ++ .symbol .colon :: f)
  | moreEntries {e f r : List TokenKind} (key : Derives .expression e)
      (value : Derives .expression f) (others : Derives .entries r) :
    Derives .entries (e ++ .symbol .colon :: (f ++ .symbol .comma :: r))
  | declaration {k : TokenKind} {t e : List TokenKind} (known : k ∈ bindingKinds)
      (type : Derives .type t) (value : Derives .expression e) :
    Derives .declaration (k :: .ident :: (t ++ .keyword .is :: e))
  -- declarations := declaration ("," declaration)*
  | lastDeclaration {d : List TokenKind} (declaration : Derives .declaration d) :
    Derives .declarations d
  | moreDeclarations {d r : List TokenKind} (declaration : Derives .declaration d)
      (others : Derives .declarations r) : Derives .declarations (d ++ .symbol .comma :: r)
  | assignment {k : TokenKind} {e : List TokenKind} (known : k ∈ assignmentKinds)
      (value : Derives .expression e) : Derives .assignment (.keyword .set :: .ident :: k :: e)
  -- conditional := "if" expression "then" block ("else" (conditional | block))?
  | only {e b : List TokenKind} (condition : Derives .expression e) (body : Derives .block b) :
    Derives .conditional (.keyword .if_ :: (e ++ .keyword .then_ :: b))
  | withElse {e b o : List TokenKind} (condition : Derives .expression e)
      (body : Derives .block b) (otherwise : Derives .block o) :
    Derives .conditional (.keyword .if_ :: (e ++ .keyword .then_ :: (b ++ .keyword .else_ :: o)))
  | withElseIf {e b o : List TokenKind} (condition : Derives .expression e)
      (body : Derives .block b) (next : Derives .conditional o) :
    Derives .conditional (.keyword .if_ :: (e ++ .keyword .then_ :: (b ++ .keyword .else_ :: o)))
  | loop {d b : List TokenKind} (vars : Derives .declarations d) (body : Derives .block b) :
    Derives .loop (.keyword .for_ :: (d ++ b))
  -- sequence := statement (";"+ statement)*
  | lastStatement {s : List TokenKind} (statement : Derives .statement s) : Derives .sequence s
  | moreStatements {s r : List TokenKind} (n : Nat) (statement : Derives .statement s)
      (others : Derives .sequence r) : Derives .sequence (s ++ (semicolons (n + 1) ++ r))
  -- block := "{" ";"* (sequence ";"*)? "}"
  | emptyBlock (n : Nat) :
    Derives .block (.symbol .leftBrace :: (semicolons n ++ [.symbol .rightBrace]))
  | block {s : List TokenKind} (m n : Nat) (statements : Derives .sequence s) :
    Derives .block
      (.symbol .leftBrace :: (semicolons m ++ (s ++ (semicolons n ++ [.symbol .rightBrace]))))
  -- expression := declaration | assignment | conditional | loop | block | test
  | declared {e : List TokenKind} (h : Derives .declaration e) : Derives .expression e
  | assigned {e : List TokenKind} (h : Derives .assignment e) : Derives .expression e
  | branched {e : List TokenKind} (h : Derives .conditional e) : Derives .expression e
  | looped {e : List TokenKind} (h : Derives .loop e) : Derives .expression e
  | grouped {e : List TokenKind} (h : Derives .block e) : Derives .expression e
  | tested {e : List TokenKind} (h : Derives .test e) : Derives .expression e
  -- statement := ("return" | "break") expression? | expression
  | exit {k : TokenKind} (known : k ∈ exitKinds) : Derives .statement [k]
  | exitWith {k : TokenKind} {e : List TokenKind} (known : k ∈ exitKinds)
      (value : Derives .expression e) : Derives .statement (k :: e)
  | evaluated {e : List TokenKind} (h : Derives .expression e) : Derives .statement e
  -- program := (";" | statement ";")*, up to the end mark
  | emptyProgram : Derives .program []
  | skipped {r : List TokenKind} (others : Derives .program r) :
    Derives .program (.symbol .semicolon :: r)
  | executed {s r : List TokenKind} (statement : Derives .statement s)
      (others : Derives .program r) : Derives .program (s ++ .symbol .semicolon :: r)

/-! ### Tests in two parts -/

/-- What can be joined to an operand: nothing, or an operator and a test. -/
inductive Chain : List TokenKind → Prop where
  | nil : Chain []
  | cons {k : TokenKind} {t : List TokenKind} (known : k ∈ binaryKinds) (test : Derives .test t) :
    Chain (k :: t)

namespace Derives

theorem chained {a c : List TokenKind} (operand : Derives .operand a) (chain : Chain c) :
    Derives .test (a ++ c) := by
  cases chain with
  | nil =>
    rw [List.append_nil]
    exact .single operand
  | cons known test => exact .joined operand known test

/-- A test is an operand with a chain joined to it. -/
theorem exists_chain {t : List TokenKind} (test : Derives .test t) :
    ∃ a c, t = a ++ c ∧ Derives .operand a ∧ Chain c := by
  cases test with
  | single operand => exact ⟨t, [], (List.append_nil t).symm, operand, .nil⟩
  | joined operand known test => exact ⟨_, _, rfl, operand, .cons known test⟩

theorem unaryTest {k : TokenKind} {t : List TokenKind} (known : k ∈ unaryKinds)
    (test : Derives .test t) : Derives .test (k :: t) := by
  obtain ⟨a, c, rfl, operand, chain⟩ := test.exists_chain
  exact (Derives.unary known operand).chained chain

/-- A chain goes on where a test ends. -/
theorem extended {t c : List TokenKind} (test : Derives .test t) (chain : Chain c) :
    Derives .test (t ++ c) := by
  cases test with
  | single operand => exact operand.chained chain
  | joined operand known test =>
    rw [List.append_assoc]
    exact .joined operand known (test.extended chain)
termination_by t.length
decreasing_by grind

end Derives

/-! ### Blocks from the front -/

/-- The rest of a block, as it is met from the front: each statement but the last one comes with a
semicolon after it, and more of them may stand anywhere. -/
inductive BlockRest : List TokenKind → Prop where
  | close : BlockRest [.symbol .rightBrace]
  | skip {r : List TokenKind} (rest : BlockRest r) : BlockRest (.symbol .semicolon :: r)
  | last {s : List TokenKind} (statement : Derives .statement s) :
    BlockRest (s ++ [.symbol .rightBrace])
  | more {s r : List TokenKind} (statement : Derives .statement s) (rest : BlockRest r) :
    BlockRest (s ++ .symbol .semicolon :: r)

namespace BlockRest

theorem skips {r : List TokenKind} (rest : BlockRest r) (n : Nat) :
    BlockRest (semicolons n ++ r) := by
  induction n with
  | zero => exact rest
  | succ n ih => exact .skip ih

theorem of_sequence {s : List TokenKind} (statements : Derives .sequence s) (n : Nat) :
    BlockRest (s ++ (semicolons n ++ [.symbol .rightBrace])) := by
  cases statements with
  | lastStatement statement =>
    cases n with
    | zero => exact .last statement
    | succ n => exact .more statement (BlockRest.close.skips n)
  | moreStatements m statement others =>
    rw [List.append_assoc, List.append_assoc]
    exact .more statement ((of_sequence others n).skips m)
termination_by s.length
decreasing_by grind [semicolons]

/-- Either there are only semicolons, or a sequence of statements stands between semicolons. -/
theorem parts {r : List TokenKind} (rest : BlockRest r) :
    (∃ n, r = semicolons n ++ [.symbol .rightBrace]) ∨
      ∃ m s n, Derives .sequence s ∧
        r = semicolons m ++ (s ++ (semicolons n ++ [.symbol .rightBrace])) := by
  induction rest with
  | close => exact .inl ⟨0, rfl⟩
  | skip _ ih =>
    obtain ⟨n, rfl⟩ | ⟨m, s, n, statements, rfl⟩ := ih
    · exact .inl ⟨n + 1, rfl⟩
    · exact .inr ⟨m + 1, s, n, statements, rfl⟩
  | last statement => exact .inr ⟨0, _, 0, .lastStatement statement, rfl⟩
  | more statement _ ih =>
    obtain ⟨n, rfl⟩ | ⟨m, s, n, statements, rfl⟩ := ih
    · exact .inr ⟨0, _, n + 1, .lastStatement statement, rfl⟩
    · refine .inr ⟨0, _, n, .moreStatements m statement statements, ?_⟩
      rw [List.append_assoc, List.append_assoc]
      rfl

end BlockRest

/-- A block is an opening brace and a rest. -/
theorem derives_block_iff {b : List TokenKind} :
    Derives .block b ↔ ∃ r, b = .symbol .leftBrace :: r ∧ BlockRest r := by
  constructor
  · intro block
    cases block with
    | emptyBlock n => exact ⟨_, rfl, BlockRest.close.skips n⟩
    | block m n statements => exact ⟨_, rfl, (BlockRest.of_sequence statements n).skips m⟩
  · rintro ⟨r, rfl, rest⟩
    obtain ⟨n, rfl⟩ | ⟨m, s, n, statements, rfl⟩ := rest.parts
    · exact .emptyBlock n
    · exact .block m n statements

end ExprLang

import ExprLang.Proofs.NestingLimit
import ExprLang.Proofs.ParserRules

set_option autoImplicit false

/-!
What the parser complains of. Each error is laid to one item of the scan or to the end mark: trouble
of the scan is passed on as it is, and a token is blamed for its kind or for its depth. A literal is
blamed for what it denotes only if the text at its place denotes nothing, which does not happen in
sources that are short enough for their offsets.
-/

namespace ExprLang

/-- A token of the scan, or the mark after the last of them. -/
def Token.Known (source : String) (t : Token) : Prop :=
  .ok t ∈ (Stream.ofSource source).items ∨ t = .endOfText source.utf8ByteSize

/-- What in a source an error can be laid to. -/
inductive SyntaxError.Laid (source : String) : Located SyntaxError → Prop where
  | scan {trouble : Located LexicalError}
      (inside : .error trouble ∈ (Stream.ofSource source).items) :
      Laid source ⟨.lexical trouble.cause, trouble.span⟩
  | token {t : Token} {cause : SyntaxError} (known : t.Known source)
      (structural : cause.isStructural = true) : Laid source ⟨cause, t.span⟩
  | literal {t : Token} {cause : SyntaxError} (inside : .ok t ∈ (Stream.ofSource source).items)
      (empty : ¬ t.kind.Denotes (t.lexeme source)) : Laid source ⟨cause, t.span⟩

namespace Parser

variable {α : Type} {n : Nat} {source : String}

/-- What is left to read is the end of the scan of a source. -/
structure Within (text : String) (p : Parser) : Prop where
  source : p.source = text
  rest : p.rest <:+ (Stream.ofSource text).items
  eof : p.eof = .endOfText text.utf8ByteSize

/-- The failure is laid to something in the source, and leaves the parser in it. -/
structure Blames (source : String) (failure : Failure) : Prop where
  laid : SyntaxError.Laid source failure.error
  left : failure.parser.Within source

namespace Within

variable {p : Parser}

theorem tail (here : p.Within source) {item : Item} {rest : List Item}
    (eq : p.rest = item :: rest) : ({ p with rest } : Parser).Within source := by
  have shorter : rest <:+ p.rest := by
    rw [eq]
    exact List.suffix_cons item rest
  exact ⟨here.source, shorter.trans here.rest, here.eof⟩

theorem first (here : p.Within source) {item : Item} {rest : List Item}
    (eq : p.rest = item :: rest) : item ∈ (Stream.ofSource source).items := by
  have inside : item ∈ p.rest := by
    rw [eq]
    exact List.mem_cons_self ..
  exact here.rest.subset inside

theorem peek (here : p.Within source) {token : Token} (seen : p.peek = .ok token) :
    token.Known source := by
  unfold Parser.peek at seen
  split at seen
  next =>
    cases seen
    exact .inr here.eof
  next eq =>
    cases seen
    exact .inl (here.first eq)
  next => cases seen

/-- Complaints from inside a source are laid to something in it. -/
theorem laid (here : p.Within source) {error : Located SyntaxError} (h : p.Complains error) :
    SyntaxError.Laid source error := by
  cases h with
  | scan eq => exact .scan (here.first eq)
  | token seen structural => exact .token (here.peek seen) structural
  | literal eq empty =>
    refine .literal (here.first eq) ?_
    rw [← here.source]
    exact empty

end Within

/-- Whether something is read or not, the parser stays in the source; trouble is laid to something
there. -/
theorem rules_within (source : String) :
    Rules (fun p q => p.Within source → q.Within source)
      fun p failure => p.Within source → Blames source failure where
  refl _ here := here
  trans first second here := second (first here)
  after first second here := second (first here)
  take eq here := here.tail eq
  stop complaint here := ⟨here.laid complaint, here⟩
  drop eq complaint here := ⟨here.laid complaint, here.tail eq⟩
  inside inner here :=
    have left := inner ⟨here.source, here.rest, here.eof⟩
    ⟨left.source, left.rest, left.eof⟩
  caught inner here :=
    have failed := inner ⟨here.source, here.rest, here.eof⟩
    ⟨failed.laid, failed.left.source, failed.left.rest, failed.left.eof⟩
  missed inner here := inner ⟨here.source, here.rest, here.eof⟩

/-! ### From the start of a source -/

theorem within_ofSourceWith (limit : Option Nat) (source : String) :
    (ofSourceWith limit source).Within source :=
  ⟨rfl, List.suffix_rfl, rfl⟩

/-- Reading expressions one after the other, also after failures, never leaves the source. -/
theorem within_afterCalls {p : Parser} (here : p.Within source) (calls : Nat) :
    (p.afterCalls calls).Within source := by
  induction calls with
  | zero => exact here
  | succ calls ih =>
    have obeys := expression_obeys (rules_within source) (p.afterCalls calls)
    rw [afterCalls]
    cases read : (p.afterCalls calls).expression with
    | ok parsed =>
      rw [read] at obeys
      exact obeys ih
    | error failure =>
      rw [read] at obeys
      exact (obeys ih).left

theorem Within.laid_of_result {p : Parser} (here : p.Within source) {a : Attempt (Parsed n α)}
    (obeys : ∀ {Ok Bad}, Rules Ok Bad → Obeys Ok Bad p a) {error : Located SyntaxError}
    (failed : result a = .error error) : SyntaxError.Laid source error := by
  have obeys := obeys (rules_within source)
  cases a with
  | ok parsed => cases failed
  | error failure =>
    cases failed
    exact (obeys here).laid

end Parser

theorem Program.laid_of_parse {source : String} {error : Located SyntaxError}
    (failed : Program.parse source = .error error) : SyntaxError.Laid source error := by
  have within := Parser.within_ofSourceWith (some (2 * maxNesting)) source
  apply within.laid_of_result fun rules => Parser.program_obeys rules (Parser.ofSource source)
  unfold Program.parse at failed
  cases read : (Parser.ofSource source).program with
  | ok parsed =>
    rw [read] at failed
    cases failed
  | error failure =>
    rw [read] at failed
    cases failed
    rfl

end ExprLang

import ExprLang.Builtin
import ExprLang.Eval.Error
import ExprLang.Eval.Sink
import ExprLang.Expr.Basic

set_option autoImplicit false

/-!
Evaluation. Trouble is noted, and evaluation goes on with a value that stands in for the missing
one, so that a run shows all the trouble there is.

A loop runs until its body is left by an exit, which may be never. Evaluation is therefore given the
number of rounds that each loop may take, and ends early, with the state it has come to, where that
is too few.
-/

namespace ExprLang

/-- The state of a run that prints to a sink of type `σ`. -/
structure Machine (σ : Type) where
  scopes : Scopes Value
  sink : σ
  errors : Array (Located RuntimeError)
  depth : Nat

/-- The reason to end early: a loop has used up its rounds. -/
inductive OutOfRounds where
  | outOfRounds
  deriving DecidableEq

abbrev EvalM (σ : Type) := EStateM OutOfRounds (Machine σ)

namespace Machine

variable {σ : Type}

def init (sink : σ) : Machine σ :=
  ⟨.root, sink, #[], 0⟩

def hasErrors (m : Machine σ) : Bool :=
  !m.errors.isEmpty

end Machine

namespace EvalM

variable {σ : Type}

def report (cause : RuntimeError) (span : Span) : EvalM σ Unit :=
  modify fun m => { m with errors := m.errors.push ⟨cause, span⟩ }

def write [Sink σ] (piece : String) : EvalM σ Unit :=
  modify fun m => { m with sink := Sink.write piece m.sink }

/-- Writes a text and ends the line; these are two pieces. -/
def writeLine [Sink σ] (text : String) : EvalM σ Unit := do
  write text
  write "\n"

/-- Takes the result of an operation, or notes its failure and takes the zero that stands in. -/
def settle (result : Except OperationError Value) (span : Span) : EvalM σ Value := do
  match result with
  | .ok value => pure value
  | .error error =>
    report (.operation error) span
    pure error.fallback.zero

/-- Takes the result of a test or a comparison, or notes its failure and takes it as false. -/
def settleTest (result : Except OperationError Bool) (span : Span) : EvalM σ Value := do
  match result with
  | .ok b => pure (.bool b)
  | .error error =>
    report (.operation error) span
    pure (.bool false)

/-- Evaluates a node one level further in, unless that is too deep. -/
def nested (span : Span) (node : EvalM σ (Control Value)) : EvalM σ (Control Value) := do
  if maxNesting ≤ (← get).depth then
    report .tooDeep span
    pure (.normal .none)
  else
    modify fun m => { m with depth := m.depth + 1 }
    let result ← node
    modify fun m => { m with depth := m.depth - 1 }
    pure result

/-- Evaluates in a frame of its own. -/
def inScope {α : Type} (node : EvalM σ α) : EvalM σ α := do
  modify fun m => { m with scopes := m.scopes.enter }
  let result ← node
  modify fun m => { m with scopes := m.scopes.exit }
  pure result

/-- The value of an expression; an exit inside ends just the expression. -/
def asValue (node : EvalM σ (Control Value)) : EvalM σ Value := do
  return (← node).value

/-- Runs a body until it is left by an exit, and gives the value of the exit. -/
def untilExit (body : EvalM σ (Control Value)) : Nat → EvalM σ Value
  | 0 => throw .outOfRounds
  | rounds + 1 => do
    let result ← body
    if result.isSignal then pure result.value else untilExit body rounds

def lookup (ident : Ident) : EvalM σ Value := do
  match (← get).scopes.find? ident.name with
  | some (entry, _) => pure entry.payload
  | none =>
    report (.identifierNotFound ident.name) ident.span
    pure .none

/-- Binds a name to a value of the declared type; for a value of another type, the zero of the
declared type stands in. -/
def declare (binding : Binding) (name : Ident) (declared : Ty) (value : Value) (span : Span) :
    EvalM σ Value := do
  let kept ←
    if value.type = declared then pure value
    else do
      report (.mismatchedTypes declared value.type) span
      pure declared.zero
  modify fun m => { m with scopes := m.scopes.insert name.name ⟨kept, binding⟩ }
  pure kept

/-- Writes a value to a variable of its type, in the frame where the variable is bound. -/
def assign (target : Ident) (value : Value) : EvalM σ Unit := do
  match (← get).scopes.find? target.name with
  | none => report (.identifierNotFound target.name) target.span
  | some (entry, _) =>
    if entry.isConst then
      report (.assignToConstant target.name) target.span
    else if entry.payload.type ≠ value.type then
      report (.mismatchedTypes entry.payload.type value.type) target.span
    else
      modify fun m => { m with scopes := m.scopes.set target.name value }

/-- Unbinds a name in the current frame, and gives what it was bound to. -/
def setAside (name : String) : EvalM σ (Option (Entry Value)) :=
  modifyGet fun m => (m.scopes.current.get? name, { m with scopes := m.scopes.erase name })

/-- Binds names in the current frame to what they were bound to before, or unbinds them. -/
def restore (names : List String) (aside : List (String × Entry Value)) : EvalM σ Unit :=
  modify fun m => { m with scopes := m.scopes.restore names aside }

end EvalM

/-- The steps at which evaluation changes the scopes. The evaluator is written for any such steps,
so that it can be run with others by a machine that keeps an account of its scopes. -/
class ScopeSteps (σ : Type) where
  /-- What is set aside of a name. -/
  Aside : Type
  inScope : {α : Type} → EvalM σ α → EvalM σ α
  declare : Binding → Ident → Ty → Value → Span → EvalM σ Value
  assign : Ident → Value → EvalM σ Unit
  setAside : String → EvalM σ (Option Aside)
  restore : List String → List (String × Aside) → EvalM σ Unit

/-- The steps as they are. -/
instance ScopeSteps.plain (σ : Type) : ScopeSteps σ where
  Aside := Entry Value
  inScope := EvalM.inScope
  declare := EvalM.declare
  assign := EvalM.assign
  setAside := EvalM.setAside
  restore := EvalM.restore

open EvalM

def Literal.value : Literal → Value
  | int n => .int n
  | dec d => .dec d
  | str s => .str s
  | bool b => .bool b

/-- What a comparison says of an order. -/
def BinaryOp.holds (op : BinaryOp) (order : Ordering) : Bool :=
  match op with
  | greater => order == .gt
  | less => order == .lt
  | greaterEqual => order != .lt
  | _ => order != .gt

/-- Both operands have to be truth values. -/
def Value.test (op : BinaryOp) (f : Bool → Bool → Bool) (lhs rhs : Value) :
    Except OperationError Bool :=
  match lhs, rhs with
  | bool l, bool r => .ok (f l r)
  | _, _ => .error (.mismatchedTypes op.name lhs.type rhs.type)

variable {σ : Type}

def BinaryOp.eval (op : BinaryOp) (lhs rhs : Value) (span : Span) : EvalM σ Value :=
  match op with
  | add => settle (lhs.add rhs) span
  | subtract => settle (lhs.subtract rhs) span
  | multiply => settle (lhs.multiply rhs) span
  | divide => settle (lhs.divide rhs) span
  | modulo => settle (lhs.modulo rhs) span
  | index => settle (lhs.index rhs) span
  | and => settleTest (lhs.test op Bool.and rhs) span
  | or => settleTest (lhs.test op Bool.or rhs) span
  | equal => settleTest (.ok (lhs.equal rhs)) span
  | greater | less | greaterEqual | lessEqual =>
    settleTest ((lhs.compare op rhs).map op.holds) span

def UnaryOp.eval (op : UnaryOp) (operand : Value) (span : Span) : EvalM σ Value :=
  match op with
  | minus => settle operand.negate span
  | not => settle operand.not span

/-- Calls a function, and gives its value or the reason why it has none. -/
def Builtin.call [Sink σ] (f : Builtin) (arguments : List Value) :
    EvalM σ (Except RuntimeError Value) :=
  match f with
  | print => do
    arguments.forM fun argument => write argument.render
    pure (.ok .none)
  | println => do
    if arguments.isEmpty then
      writeLine ""
    arguments.forM fun argument => writeLine argument.render
    pure (.ok .none)
  | len =>
    match arguments with
    | [argument] =>
      match argument.len with
      | .ok n => pure (.ok (.int n))
      | .error error => pure (.error (.operation error))
    | _ => pure (.error (.argumentCount f.name arguments.length 1))

mutual

/-- Evaluates an expression; every loop may take so many rounds. -/
def Expr.eval [Sink σ] [ScopeSteps σ] (rounds : Nat) : Expr → EvalM σ (Control Value)
  | .literal value span => nested span do
    pure (.normal value.value)
  | .list items span => nested span do
    let values ← Expr.evalAll rounds items
    let element := match values with
      | [] => .none
      | first :: _ => first.type
    pure (.normal (.list element values))
  | .map entries span => nested span do
    let pairs ← Expr.evalEntries rounds entries
    let (keyType, valueType) := match pairs with
      | [] => (.none, .none)
      | (key, value) :: _ => (key.type, value.type)
    pure (.normal (.mapOfPairs keyType valueType pairs))
  | .name ident span => nested span do
    pure (.normal (← lookup ident))
  | .unary op operand span => nested span do
    let value ← asValue (operand.eval rounds)
    pure (.normal (← op.eval value span))
  | .binary op lhs rhs span => nested span do
    let left ← asValue (lhs.eval rounds)
    let right ← asValue (rhs.eval rounds)
    pure (.normal (← op.eval left right span))
  | .declare declaration span => nested span do
    pure (.normal (← declaration.eval rounds))
  | .assign target value span => nested span do
    let value ← asValue (value.eval rounds)
    ScopeSteps.assign target value
    pure (.normal value)
  | .block body span => nested span (body.eval rounds)
  | .cond branches span => nested span (branches.eval rounds)
  | .loop vars body span => nested span do
    let aside ← Declaration.evalVariables rounds [] vars
    let value ← untilExit (body.eval rounds) rounds
    ScopeSteps.restore (vars.map (·.name.name)) aside
    pure (.normal value)
  | .exit kind none span => nested span do
    pure (kind.control .none)
  | .exit kind (some value) span => nested span do
    pure (kind.control (← asValue (value.eval rounds)))
  | .call callee arguments span => nested span do
    let values ← Expr.evalAll rounds arguments
    match Builtin.ofName? callee.name with
    | none =>
      report (.unknownFunction callee.name) callee.span
      pure (.normal .none)
    | some f =>
      match ← f.call values with
      | .ok value => pure (.normal value)
      | .error cause =>
        report cause callee.span
        pure (.normal .none)

/-- Evaluates expressions from left to right. -/
def Expr.evalAll [Sink σ] [ScopeSteps σ] (rounds : Nat) : List Expr → EvalM σ (List Value)
  | [] => pure []
  | e :: rest => do
    let value ← asValue (e.eval rounds)
    let values ← Expr.evalAll rounds rest
    pure (value :: values)

/-- Evaluates entries from left to right, each key before its value. -/
def Expr.evalEntries [Sink σ] [ScopeSteps σ] (rounds : Nat) :
    List (Expr × Expr) → EvalM σ (List (Value × Value))
  | [] => pure []
  | (key, value) :: rest => do
    let k ← asValue (key.eval rounds)
    let v ← asValue (value.eval rounds)
    let pairs ← Expr.evalEntries rounds rest
    pure ((k, v) :: pairs)

def Declaration.eval [Sink σ] [ScopeSteps σ] (rounds : Nat) : Declaration → EvalM σ Value
  | .mk binding name type value _ => do
    let v ← asValue (value.eval rounds)
    ScopeSteps.declare binding name type.type v value.span

/-- Declares the variables of a loop in the current frame, and gives what their names were bound to
there before. -/
def Declaration.evalVariables [Sink σ] [ScopeSteps σ] (rounds : Nat) (earlier : List String) :
    List Declaration → EvalM σ (List (String × ScopeSteps.Aside σ))
  | [] => pure []
  | declaration :: rest => do
    let name := declaration.name.name
    let previous ← ScopeSteps.setAside name
    let _ ← declaration.eval rounds
    let aside ← Declaration.evalVariables rounds (name :: earlier) rest
    match previous with
    | some entry => pure (if name ∈ earlier then aside else (name, entry) :: aside)
    | none => pure aside

def Block.eval [Sink σ] [ScopeSteps σ] (rounds : Nat) : Block → EvalM σ (Control Value)
  | .mk statements _ => ScopeSteps.inScope (Expr.evalStatements rounds statements)

/-- Runs statements up to the first exit. -/
def Expr.evalStatements [Sink σ] [ScopeSteps σ] (rounds : Nat) :
    List Expr → EvalM σ (Control Value)
  | [] => pure (.normal .none)
  | statement :: rest => do
    let result ← statement.eval rounds
    if result.isSignal then pure result else Expr.evalStatements rounds rest

def Conditional.eval [Sink σ] [ScopeSteps σ] (rounds : Nat) : Conditional → EvalM σ (Control Value)
  | .only condition body => do
    match ← asValue (condition.eval rounds) with
    | .bool true => body.eval rounds
    | .bool false => pure (.normal .none)
    | other =>
      report (.nonBoolCondition other.type) condition.span
      pure (.normal .none)
  | .withElse condition body otherwise => do
    match ← asValue (condition.eval rounds) with
    | .bool true => body.eval rounds
    | .bool false => otherwise.eval rounds
    | other =>
      report (.nonBoolCondition other.type) condition.span
      pure (.normal .none)
  | .withElseIf condition body next _ => do
    match ← asValue (condition.eval rounds) with
    | .bool true => body.eval rounds
    | .bool false => next.eval rounds
    | other =>
      report (.nonBoolCondition other.type) condition.span
      pure (.normal .none)

end

/-- Runs a program up to its end, or to the first exit that reaches the top level. -/
def Program.eval [Sink σ] (rounds : Nat) (p : Program) : EvalM σ (Control Value) :=
  Expr.evalStatements rounds p

end ExprLang

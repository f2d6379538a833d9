import ExprLang.Expr.Source
import ExprLang.Typing.Rules

set_option autoImplicit false

/-!
The type checker. It goes through a whole program and gathers complaints; a node with a complaint
still gets a type, so that checking can go on.

A return or a break ends the nearest consumer around it: a loop, or an expression whose value is
used. All exits that can reach one consumer have to agree in type.
-/

namespace ExprLang

/-- The exits that can reach one consumer. -/
structure ExitFrame where
  /-- The type of the first of them. -/
  type : Option Ty
  /-- How many blocks around the current statement have been left for certain before it. -/
  unreachable : Nat

structure Checker where
  scopes : Scopes Ty
  errors : Array (Located TypeError)
  /-- The consumers around the current node, from the inside out. -/
  exits : List ExitFrame
  depth : Nat
  /-- Whether an assignment to a name of an outer frame binds the name in the current one too. -/
  copyAssigned : Bool

namespace Checker

def init : Checker :=
  ⟨.root, #[], [], 0, true⟩

def hasErrors (c : Checker) : Bool :=
  !c.errors.isEmpty

end Checker

abbrev CheckM := StateM Checker

namespace CheckM

def report (cause : TypeError) (span : Span) : CheckM Unit :=
  modify fun c => { c with errors := c.errors.push ⟨cause, span⟩ }

/-- Takes the type that a rule gives, and notes its complaint. -/
def settle (verdict : Verdict) (span : Span) : CheckM Ty := do
  if let some complaint := verdict.complaint then
    report complaint span
  pure verdict.type

/-- Checks a node one level further in, unless that is too deep. -/
def nested (span : Span) (node : CheckM (Control Ty)) : CheckM (Control Ty) := do
  if maxNesting ≤ (← get).depth then
    report .tooDeep span
    pure (.normal .none)
  else
    modify fun c => { c with depth := c.depth + 1 }
    let result ← node
    modify fun c => { c with depth := c.depth - 1 }
    pure result

/-- Checks in a frame of its own. -/
def inScope {α : Type} (node : CheckM α) : CheckM α := do
  modify fun c => { c with scopes := c.scopes.enter }
  let result ← node
  modify fun c => { c with scopes := c.scopes.exit }
  pure result

/-- Checks what a new consumer surrounds, and gives the type of the exits that reach it too. -/
def consuming {α : Type} (node : CheckM α) : CheckM (α × Option Ty) := do
  modify fun c => { c with exits := ⟨none, 0⟩ :: c.exits }
  let result ← node
  let exits := (← get).exits
  modify fun c => { c with exits := exits.tail }
  pure (result, exits.head?.bind (·.type))

/-- Notes an exit for the innermost consumer. At the top level there is none, and in code that is
never reached the exit does not count. -/
def recordExit (type : Ty) (span : Span) : CheckM Unit := do
  let c ← get
  match c.exits with
  | [] => pure ()
  | frame :: frames =>
    if frame.unreachable = 0 then
      match frame.type with
      | none => set { c with exits := { frame with type := some type } :: frames }
      | some expected =>
        if expected ≠ type then
          report (.exitMismatch expected type) span

/-- Changes the count of blocks left before the current statement, for the innermost consumer. -/
def updateUnreachable (f : Nat → Nat) : CheckM Unit :=
  modify fun c =>
    match c.exits with
    | [] => c
    | frame :: frames =>
      { c with exits := { frame with unreachable := f frame.unreachable } :: frames }

/-- The type of a name. -/
def lookup (ident : Ident) : CheckM Ty := do
  match (← get).scopes.find? ident.name with
  | some (entry, _) => pure entry.payload
  | none =>
    report (.identifierNotFound ident.name) ident.span
    pure .none

/-- Checks that a value may be assigned to a name. -/
def assign (target : Ident) (actual : Ty) (site : Unit → String) (valueSpan : Span) :
    CheckM Ty := do
  match (← get).scopes.find? target.name with
  | none =>
    report (.identifierNotFound target.name) target.span
    pure .none
  | some (entry, frame) =>
    if entry.isConst then
      report (.assignToConstant target.name) target.span
    if actual ≠ entry.payload then
      report (.mismatchedTypes entry.payload actual (site ())) valueSpan
    modify fun c =>
      if c.copyAssigned ∧ frame ≠ c.scopes.depth then
        { c with scopes := c.scopes.insert target.name entry }
      else c
    pure entry.payload

/-- Binds a name in the current frame. -/
def declare (name : String) (entry : Entry Ty) : CheckM Unit :=
  modify fun c => { c with scopes := c.scopes.insert name entry }

/-- Unbinds a name in the current frame, and gives what it was bound to. -/
def setAside (name : String) : CheckM (Option (Entry Ty)) :=
  modifyGet fun c => (c.scopes.current.get? name, { c with scopes := c.scopes.erase name })

/-- Unbinds the names, and binds again those that have been set aside. -/
def restore (names : List String) (aside : List (String × Entry Ty)) : CheckM Unit :=
  modify fun c => { c with scopes := c.scopes.restore names aside }

/-- The way in which a conditional is left when both its branches are known. It is a certain exit
only if both branches are. -/
def join (first other : Control Ty) (compare : Bool) (span : Span) : CheckM (Control Ty) := do
  if compare ∧ first.value ≠ other.value then
    report (.branchMismatch first.value other.value) span
  pure (if first.isSignal && other.isSignal then first else .normal .none)

end CheckM

/-- The accounts that are kept while an expression is checked: how deep in it is, which frames and
consumers are open around it, which exits reach them and which blocks have been left. -/
class Bookkeeping (m : Type → Type) where
  nested : Span → m (Control Ty) → m (Control Ty)
  inScope : {α : Type} → m α → m α
  consuming : {α : Type} → m α → m (α × Option Ty)
  recordExit : Ty → Span → m Unit
  /-- Takes back one of the blocks that have been left before the current statement. -/
  lowerUnreachable : m Unit

@[default_instance]
instance Bookkeeping.plain : Bookkeeping CheckM where
  nested := CheckM.nested
  inScope := CheckM.inScope
  consuming := CheckM.consuming
  recordExit := CheckM.recordExit
  lowerUnreachable := CheckM.updateUnreachable (· - 1)

def Literal.type : Literal → Ty
  | int _ => .int
  | dec _ => .dec
  | str _ => .str
  | bool _ => .bool

section

variable {m : Type → Type} [Monad m] [MonadLiftT CheckM m] [Bookkeeping m]

open CheckM hiding nested inScope consuming recordExit
open Bookkeeping (nested inScope consuming recordExit lowerUnreachable)

/-- Checks an expression whose value is used. An exit inside ends it with the value of the exit, so
that value has to be of the type that the expression has otherwise. -/
def CheckM.asValue (span : Span) (node : m (Control Ty)) : m Ty := do
  let (result, exit?) ← Bookkeeping.consuming node
  match result, exit? with
  | .normal type, some exit =>
    if type ≠ exit then
      report (.exitMismatch exit type) span
    pure type
  | result, _ => pure result.value

mutual

/-- Checks an expression: its type, and whether it is left by an exit for certain. -/
def Expr.check : Expr → m (Control Ty)
  | .literal value span => nested span do
    pure (.normal value.type)
  | .list [] span => nested span do
    pure (.normal (.list .none))
  | .list (first :: rest) span => nested span do
    let element ← asValue first.span first.check
    Expr.checkItems element rest
    pure (.normal (.list element))
  | .map [] span => nested span do
    pure (.normal (.map .none .none))
  | .map ((key, value) :: rest) span => nested span do
    let keyType ← asValue key.span key.check
    let valueType ← asValue value.span value.check
    Expr.checkEntries keyType valueType rest
    pure (.normal (.map keyType valueType))
  | .name ident span => nested span do
    pure (.normal (← lookup ident))
  | .unary op operand span => nested span do
    let type ← asValue operand.span operand.check
    pure (.normal (← settle (op.verdict type) operand.span))
  | .binary op lhs rhs span => nested span do
    let left ← asValue lhs.span lhs.check
    let right ← asValue rhs.span rhs.check
    let verdict := op.verdict left right fun _ => (Expr.binary op lhs rhs span).source
    let place := match verdict.complaint with
      | some (.invalidIndex ..) => rhs.span
      | _ => span
    pure (.normal (← settle verdict place))
  | .declare declaration span => nested span do
    pure (.normal (← declaration.check))
  | .assign target value span => nested span do
    let actual ← asValue value.span value.check
    let site := fun _ => (Expr.assign target value span).source
    pure (.normal (← assign target actual site value.span))
  | .block body span => nested span body.check
  | .cond branches span => nested span (branches.check span)
  | .loop vars body span => nested span do
    let aside ← Declaration.checkVariables [] vars
    let (_, exit?) ← consuming body.check
    restore (vars.map (·.name.name)) aside
    pure (.normal (exit?.getD .none))
  | .exit kind none span => nested span do
    recordExit .none span
    pure (kind.control .none)
  | .exit kind (some value) span => nested span do
    let type ← asValue value.span value.check
    recordExit type span
    pure (kind.control type)
  | .call callee arguments span => nested span do
    let types ← Expr.checkArguments arguments
    match Builtin.ofName? callee.name with
    | some f => pure (.normal (← settle (f.verdict types) callee.span))
    | none =>
      report (.unknownFunction callee.name) callee.span
      pure (.normal .none)

/-- Checks that the further items of a list are like the first. -/
def Expr.checkItems (element : Ty) : List Expr → m Unit
  | [] => pure ()
  | item :: rest => do
    let actual ← asValue item.span item.check
    if actual ≠ element then
      report (.mixedList element actual) item.span
    Expr.checkItems element rest

/-- Checks that the further entries of a map are like the first. -/
def Expr.checkEntries (keyType valueType : Ty) : List (Expr × Expr) → m Unit
  | [] => pure ()
  | (key, value) :: rest => do
    let actual ← asValue key.span key.check
    if actual ≠ keyType then
      report (.mixedMap keyType actual) key.span
    let actual ← asValue value.span value.check
    if actual ≠ valueType then
      report (.mixedMap valueType actual) value.span
    Expr.checkEntries keyType valueType rest

def Expr.checkArguments : List Expr → m (List Ty)
  | [] => pure []
  | argument :: rest => do
    let type ← asValue argument.span argument.check
    let types ← Expr.checkArguments rest
    pure (type :: types)

/-- Checks a declaration. The name gets the declared type, also where the value has another. -/
def Declaration.check : Declaration → m Ty
  | .mk binding name type value span => do
    let declared := type.type
    let actual ← asValue value.span value.check
    if actual ≠ declared then
      let site := (Declaration.mk binding name type value span).source
      report (.mismatchedTypes declared actual site) value.span
    declare name.name ⟨declared, binding⟩
    pure declared

/-- Declares the variables of a loop in the current frame, and gives what their names were bound to
there before. -/
def Declaration.checkVariables (earlier : List String) :
    List Declaration → m (List (String × Entry Ty))
  | [] => pure []
  | declaration :: rest => do
    let name := declaration.name.name
    let previous ← setAside name
    let _ ← declaration.check
    let aside ← Declaration.checkVariables (name :: earlier) rest
    match previous with
    | some entry => pure (if name ∈ earlier then aside else (name, entry) :: aside)
    | none => pure aside

/-- Checks a block. It is left by its first certain exit; what follows that is checked too, but
its exits are never taken. -/
def Block.check : Block → m (Control Ty)
  | .mk statements _ => inScope do
    let exit? ← Expr.checkStatements none statements
    if exit?.isSome then
      lowerUnreachable
    pure (exit?.getD (.normal .none))

/-- Checks statements after the given certain exit, and gives the first certain exit. -/
def Expr.checkStatements (exit? : Option (Control Ty)) :
    List Expr → m (Option (Control Ty))
  | [] => pure exit?
  | statement :: rest => do
    let result ← statement.check
    if exit?.isNone && result.isSignal then
      updateUnreachable (· + 1)
      Expr.checkStatements (some result) rest
    else
      Expr.checkStatements exit? rest

/-- Checks a conditional. Branches are compared only if one of them is taken in any case. -/
def Conditional.check (span : Span) : Conditional → m (Control Ty)
  | .only condition body => do
    let type ← asValue condition.span condition.check
    if type.name ≠ .bool then
      report (.nonBoolCondition type) condition.span
    let _ ← body.check
    pure (.normal .none)
  | .withElse condition body otherwise => do
    let type ← asValue condition.span condition.check
    if type.name ≠ .bool then
      report (.nonBoolCondition type) condition.span
    let first ← body.check
    let other ← otherwise.check
    join first other true (otherwise.span.merge span)
  | .withElseIf condition body next nextSpan => do
    let type ← asValue condition.span condition.check
    if type.name ≠ .bool then
      report (.nonBoolCondition type) condition.span
    let first ← body.check
    let other ← next.check nextSpan
    join first other next.isExhaustive (nextSpan.merge span)

end

end

/-- Checks the statements of a program. The result is the first exit that is certain to reach the
top level. -/
def Program.check : Program → CheckM (Control Ty)
  | [] => pure (.normal .none)
  | statement :: rest => do
    let result ← statement.check
    let others ← Program.check rest
    pure (if result.isSignal then result else others)

end ExprLang

import ExprLang.Eval.Error
import ExprLang.Expr.Error
import ExprLang.Text.Lines
import ExprLang.Typing.Error

set_option autoImplicit false

/-!
Trouble as it is shown to the user: as one line that names the line of the source, or as a report
that points at line and column.
-/

namespace ExprLang

/-- A kind of trouble that can be reported. -/
class Diagnostic (ε : Type) where
  code : ε → String
  message : ε → String
  /-- The heading of a report. -/
  title : ε → String

instance : Diagnostic SyntaxError where
  code := SyntaxError.code
  message := SyntaxError.message
  title _ := "Failed to parse the program"

instance : Diagnostic TypeError where
  code := TypeError.code
  message := TypeError.message
  title _ := "Type error"

instance : Diagnostic RuntimeError where
  code := RuntimeError.code
  message := RuntimeError.message
  title e := if e.isArithmetic then "Arithmetic error" else "Runtime error"

namespace Located

variable {ε : Type}

/-- The line of the source on which the trouble starts. -/
def line (source : String) (e : Located ε) : Nat :=
  Text.lineAt source e.span.start.toNat

/-- The trouble in one line, after the number of the line it is on. -/
def errorLine [Diagnostic ε] (source : String) (e : Located ε) : String :=
  s!"[line {e.line source}] Error: {Diagnostic.message e.cause}"

/-- Trouble in cutting the source into tokens, in one line. -/
def notice (source : String) (e : Located LexicalError) : String :=
  s!"[line {e.line source}] Error: {e.cause.notice}"

/-- Trouble of a run, and under it the number of the line. -/
def trace (source : String) (e : Located RuntimeError) : String :=
  s!"{e.cause.message}\n[line {e.line source}]"

end Located

namespace Report

/-- The characters that end a line in a report. -/
def isTerminator (c : Char) : Bool :=
  c = '\n' || c = '\r' || c = '\x0b' || c = '\x0c' || c = '\u0085' || c = '\u2028' || c = '\u2029'

/-- The offsets, in characters, at which lines after the first start. Carriage return and newline
end a line together, and a terminator at the very end starts no further line. -/
def laterStarts (offset : Nat) : List Char → List Nat
  | [] => []
  | '\r' :: '\n' :: cs =>
    if cs.isEmpty then [] else (offset + 2) :: laterStarts (offset + 2) cs
  | c :: cs =>
    if isTerminator c && !cs.isEmpty then (offset + 1) :: laterStarts (offset + 1) cs
    else laterStarts (offset + 1) cs

/-- A place in a source, counted from one. -/
structure Place where
  line : Nat
  column : Nat
  deriving DecidableEq

/-- The place where a span starts, if the span lies in the source. Reports count in characters, and
take the numbers of the span as such. -/
def place? (source : String) (span : Span) : Option Place :=
  let size := source.length
  let start := span.start.toNat
  if size < start ∨ (span.length ≠ 0 ∧ size < span.stop.toNat - 1) then none
  else
    let before := (laterStarts 0 source.toList).takeWhile (· ≤ start)
    some ⟨before.length + 1, start - before.getLast?.getD 0 + 1⟩

end Report

/-- Trouble with its code, its heading and the place it points at. -/
structure Report where
  code : String
  title : String
  place : Option Report.Place

namespace Report

def header (r : Report) : String :=
  s!"[{r.code}] Error: {r.title}"

/-- The place in a file of the given name. -/
def location? (path : String) (r : Report) : Option String :=
  r.place.map fun p => s!"{path}:{p.line}:{p.column}"

end Report

/-- The report on trouble in a source. -/
def Located.report {ε : Type} [Diagnostic ε] (source : String) (e : Located ε) : Report :=
  ⟨Diagnostic.code e.cause, Diagnostic.title e.cause, Report.place? source e.span⟩

end ExprLang

import ExprLang.Command.Help
import ExprLang.Dump.Error
import ExprLang.Expr.Parser
import ExprLang.Report
import ExprLang.Session

set_option autoImplicit false

/-!
What the commands do. A command turns the text of a file into an outcome: what it writes, and the
status it ends with.
-/

namespace ExprLang.Command

/-- The status that a command ends with. -/
inductive Status where
  | success
  /-- The command line makes no sense. -/
  | misuse
  /-- The program has lexical, syntactic or type errors. -/
  | dataError
  /-- The program had trouble while it ran. -/
  | runtimeError
  /-- The program ran well, but not all it printed could be written. -/
  | outputError
  /-- The file cannot be read, or a listing cannot be written. -/
  | crash

def Status.code : Status → UInt32
  | success => 0
  | misuse => 2
  | dataError => 65
  | runtimeError => 70
  | outputError => 74
  | crash => 101

/-- A piece of what a command says beside its output. -/
inductive Notice where
  | line (text : String)
  | report (report : Report)

structure Outcome where
  status : Status
  output : String
  notices : List Notice

/-- The commands that print a listing fail if it cannot be written. -/
def listing (full : Bool) (status : Status) (output : String) (notices : List Notice) : Outcome :=
  if full && output ≠ "" then ⟨.crash, "", notices⟩ else ⟨status, output, notices⟩

/-- Trouble in the chosen format. -/
def ReportFormat.notice {ε : Type} [Diagnostic ε] (format : ReportFormat) (source : String)
    (line : Located ε → String) (e : Located ε) : Notice :=
  match format with
  | basic => .line (line e)
  | pretty => .report (e.report source)

def tokenize (format : TokenFormat) (source : String) (full : Bool) : Outcome :=
  let stream := Stream.ofSource source
  let tokens := stream.items.filterMap Except.toOption ++ [stream.eof]
  let errors := stream.items.filterMap fun
    | .ok _ => none
    | .error e => some e
  let writeToken : Token → String := match format with
    | .basic => Token.listing source
    | .debug => fun token => token.dump.render
  let writeError : Located LexicalError → String := match format with
    | .basic => Located.notice source
    | .debug => fun e => (Located.dump "LexicalError" LexicalError.dump e).render
  listing full (if errors.isEmpty then .success else .dataError)
    (String.join (tokens.map fun token => writeToken token ++ "\n"))
    (errors.map fun e => .line (writeError e))

/-- The statements of a program as dumps, each on a line. -/
def dumpProgram (program : Program) : String :=
  String.join (program.map fun e => e.dump.render ++ ";\n")

def parse (format : TreeFormat) (source : String) (full : Bool) : Outcome :=
  match Program.parse source with
  | .error e => ⟨.dataError, "", [.line (e.errorLine source)]⟩
  | .ok program =>
    let text := match format with
      | .source => Program.source program
      | .debug => dumpProgram program
    listing full .success text []

/-- The program that a source is, if it is well formed and well typed; otherwise what there is to
say about it. -/
def accept (format : ReportFormat) (source : String) : Except (List Notice) Program :=
  match Program.parse source with
  | .error e => .error [format.notice source (Located.errorLine source) e]
  | .ok program =>
    let (_, checker) := Checker.init.checkProgram program
    if checker.hasErrors then
      .error (checker.errors.toList.map (format.notice source (Located.errorLine source)))
    else
      .ok program

def check (format : ReportFormat) (source : String) : Outcome :=
  match accept format source with
  | .error notices => ⟨.dataError, "", notices⟩
  | .ok _ => ⟨.success, "", []⟩

/-- The outcome of a run that has come to a state, with so many pieces of output not written. -/
def runOutcome {σ : Type} (format : ReportFormat) (source : String) (machine : Machine σ)
    (output : String) (failures : Nat) : Outcome :=
  let lost := if failures = 0 then []
    else [.line s!"failed to write {failures} piece(s) of program output"]
  let troubles := machine.errors.toList.map (format.notice source (Located.trace source))
  let status := if machine.hasErrors then .runtimeError
    else if failures = 0 then .success
    else .outputError
  ⟨status, output, lost ++ troubles⟩

def run (format : ReportFormat) (source : String) (full : Bool) : Outcome :=
  match accept format source with
  | .error notices => ⟨.dataError, "", notices⟩
  | .ok program =>
    if full then
      let (_, machine) := (Machine.init FullDevice.new).runProgram ampleRounds program
      runOutcome format source machine "" machine.sink.failures
    else
      let (_, machine) := (Machine.init Buffer.empty).runProgram ampleRounds program
      runOutcome format source machine machine.sink.text 0

def Task.gerund : Task → String
  | tokenize _ => "Tokenizing"
  | parse _ => "Parsing"
  | check _ => "Checking"
  | run _ => "Running"

/-- Performs a task on a file, given its text if it can be read. With `full`, the device behind the
output takes nothing. -/
def Task.perform (task : Task) (path : String) (source? : Option String) (full : Bool) : Outcome :=
  let progress := Notice.line s!"{task.gerund} {Text.quote path}..."
  let outcome : Outcome := match source? with
    | none => ⟨.crash, "", [.line s!"cannot read {path}"]⟩
    | some source =>
      match task with
      | tokenize format => Command.tokenize format source full
      | parse format => Command.parse format source full
      | check format => Command.check format source
      | run format => Command.run format source full
  { outcome with notices := progress :: outcome.notices }

/-- The outcome of a request that is for no file. -/
def Request.answer : Request → Outcome
  | version => ⟨.success, versionText, []⟩
  | help verb => ⟨.success, helpText verb, []⟩
  | helpOnHelp => ⟨.success, Command.helpOnHelp, []⟩
  | misuse | perform _ _ => ⟨.misuse, "", [.line (helpText none)]⟩

/-- A notice as text. -/
def Notice.text (path : String) : Notice → String
  | line text => text ++ "\n"
  | report r =>
    match r.location? path with
    | some location => r.header ++ "\n  at " ++ location ++ "\n\n"
    | none => r.header ++ "\n\n"

end ExprLang.Command

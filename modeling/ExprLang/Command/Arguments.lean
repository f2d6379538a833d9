set_option autoImplicit false

/-!
The command line: a command, the file it is for, and the format of what it writes.
-/

namespace ExprLang.Command

/-- How tokens are listed. -/
inductive TokenFormat where
  | debug | basic

/-- How syntax trees are written. -/
inductive TreeFormat where
  | debug | source

/-- How trouble is reported. -/
inductive ReportFormat where
  | basic | pretty

inductive Task where
  | tokenize (format : TokenFormat)
  | parse (format : TreeFormat)
  | check (format : ReportFormat)
  | run (format : ReportFormat)

/-- The commands, before a format is chosen. -/
inductive Verb where
  | tokenize | parse | check | run

namespace Verb

def name : Verb → String
  | tokenize => "tokenize"
  | parse => "parse"
  | check => "check"
  | run => "run"

def ofName? (name : String) : Option Verb :=
  [tokenize, parse, check, run].find? (·.name = name)

/-- The names of the formats that a command has. -/
def formats : Verb → List String
  | tokenize => ["debug", "basic"]
  | parse => ["debug", "source"]
  | check | run => ["basic", "pretty"]

/-- The format of a command that names none. -/
def defaultFormat : Verb → String
  | tokenize | check | run => "basic"
  | parse => "source"

/-- The command with a format of the given name. -/
def task? (verb : Verb) (format : String) : Option Task :=
  match verb, format with
  | tokenize, "debug" => some (.tokenize .debug)
  | tokenize, "basic" => some (.tokenize .basic)
  | parse, "debug" => some (.parse .debug)
  | parse, "source" => some (.parse .source)
  | check, "basic" => some (.check .basic)
  | check, "pretty" => some (.check .pretty)
  | run, "basic" => some (.run .basic)
  | run, "pretty" => some (.run .pretty)
  | _, _ => none

end Verb

/-- What a command line asks for. -/
inductive Request where
  | perform (task : Task) (path : String)
  | version
  /-- The help on the program, or on one command. -/
  | help (verb : Option Verb)
  | helpOnHelp
  /-- A command line that makes no sense. -/
  | misuse

/-- What has been read of the arguments of a command. -/
structure Given where
  path : Option String
  format : Option String

/-- Takes a file name; there is only one, and it is not empty. -/
def Given.withPath? (p : Given) (path : String) : Option Given :=
  if p.path.isNone ∧ path ≠ "" then some { p with path := some path } else none

/-- Takes a format that the command has; there is only one. -/
def Given.withFormat? (p : Given) (verb : Verb) (format : String) : Option Given :=
  if p.format.isNone ∧ format ∈ verb.formats then some { p with format := some format } else none

/-- What the arguments come to when all have been read. -/
def Given.finish (p : Given) (verb : Verb) : Request :=
  match p.path, verb.task? (p.format.getD verb.defaultFormat) with
  | some path, some task => .perform task path
  | _, _ => .misuse

/-- Whether an argument is an option and not a file name; a dash alone is a name. -/
def isOption (argument : String) : Bool :=
  argument.startsWith "-" && argument ≠ "-"

/-- Reads the arguments after `--`, which are file names whatever they look like. -/
def readNames (verb : Verb) (p : Given) : List String → Request
  | [] => p.finish verb
  | argument :: rest =>
    match p.withPath? argument with
    | some p => readNames verb p rest
    | none => .misuse

/-- Reads the arguments of a command from left to right. -/
def readArguments (verb : Verb) (p : Given) : List String → Request
  | [] => p.finish verb
  | "--" :: rest => readNames verb p rest
  | "--format" :: value :: rest =>
    if isOption value then .misuse
    else
      match p.withFormat? verb value with
      | some p => readArguments verb p rest
      | none => .misuse
  | argument :: rest =>
    if argument = "--help" || argument.startsWith "-h" then .help (some verb)
    else if argument.startsWith "--format=" then
      match p.withFormat? verb (argument.drop "--format=".length).toString with
      | some p => readArguments verb p rest
      | none => .misuse
    else if isOption argument then .misuse
    else
      match p.withPath? argument with
      | some p => readArguments verb p rest
      | none => .misuse

/-- Reads a command line. -/
def Request.ofArguments : List String → Request
  | [] => .misuse
  | "help" :: [] => .help none
  | "help" :: name :: [] =>
    if name = "help" then .helpOnHelp
    else
      match Verb.ofName? name with
      | some verb => .help (some verb)
      | none => .misuse
  | argument :: rest =>
    if argument = "--help" || argument.startsWith "-h" then .help none
    else if argument = "--version" || argument.startsWith "-V" then .version
    else
      match Verb.ofName? argument with
      | some verb => readArguments verb ⟨none, none⟩ rest
      | none => .misuse

end ExprLang.Command

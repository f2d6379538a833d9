import ExprLang.Command.Arguments

set_option autoImplicit false

/-!
The texts that the command line has on itself.
-/

namespace ExprLang.Command

def programName : String := "nice-expr"

def versionText : String := s!"{programName} 1.0.0\n"

/-- A line of a two-column table; the first column is so wide. -/
def tableRow (width : Nat) (left right : String) : String :=
  "  " ++ left.pushn ' ' (width + 2 - left.length) ++ right ++ "\n"

def helpOnProgram : String :=
  s!"Usage: {programName} <COMMAND>\n\nCommands:\n"
    ++ tableRow 8 "tokenize" ""
    ++ tableRow 8 "parse" ""
    ++ tableRow 8 "check" ""
    ++ tableRow 8 "run" ""
    ++ tableRow 8 "help" "Print this message or the help of the given subcommand(s)"
    ++ "\nOptions:\n"
    ++ tableRow 13 "-h, --help" "Print help"
    ++ tableRow 13 "-V, --version" "Print version"

/-- The default format of a command, and all the formats there are. -/
def formatNote (verb : Verb) : String :=
  s!"[default: {verb.defaultFormat}] [possible values: "
    ++ String.intercalate ", " verb.formats ++ "]"

def helpOnVerb (verb : Verb) : String :=
  s!"Usage: {programName} {verb.name} [OPTIONS] <PATH>\n\nArguments:\n"
    ++ tableRow 6 "<PATH>" ""
    ++ "\nOptions:\n"
    ++ tableRow 21 "    --format <FORMAT>" (formatNote verb)
    ++ tableRow 21 "-h, --help" "Print help"

def helpOnHelp : String :=
  "Print this message or the help of the given subcommand(s)\n\n"
    ++ s!"Usage: {programName} help [COMMAND]...\n\nArguments:\n"
    ++ tableRow 12 "[COMMAND]..." "Print help for the subcommand(s)"

def helpText : Option Verb → String
  | none => helpOnProgram
  | some verb => helpOnVerb verb

end ExprLang.Command

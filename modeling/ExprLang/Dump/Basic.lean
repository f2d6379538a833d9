import ExprLang.Span

set_option autoImplicit false

/-!
Structure dumps: a data structure written out on one line, every part under its name.
-/

namespace ExprLang

inductive Dump where
  | word (text : String)
  | apply (head : String) (arguments : List Dump)
  | record (head : String) (fields : List (String × Dump))
  | list (items : List Dump)

namespace Dump

mutual

/-- The text of a dump: `head(a, b)`, `head { field: a }`, `[a, b]`. -/
def render : Dump → String
  | word text => text
  | apply head arguments => head ++ "(" ++ renderAll arguments ++ ")"
  | record head fields => head ++ " \x7b " ++ renderFields fields ++ " \x7d"
  | list items => "[" ++ renderAll items ++ "]"

def renderAll : List Dump → String
  | [] => ""
  | [d] => d.render
  | d :: ds => d.render ++ ", " ++ renderAll ds

def renderFields : List (String × Dump) → String
  | [] => ""
  | [(name, d)] => name ++ ": " ++ d.render
  | (name, d) :: fields => name ++ ": " ++ d.render ++ ", " ++ renderFields fields

end

/-- A part that may be missing. -/
def option : Option Dump → Dump
  | none => word "None"
  | some d => apply "Some" [d]

end Dump

def Span.dump (s : Span) : Dump :=
  .record "Span"
    [("start", .apply "SpanIndex" [.word (toString s.start)]),
      ("length", .word (toString s.length))]

end ExprLang

set_option autoImplicit false

/-!
The functions that programs can call. There are no others: a call never reaches a name that a
program declares.
-/

namespace ExprLang

inductive Builtin where
  | print | println | len
  deriving DecidableEq

namespace Builtin

def name : Builtin → String
  | print => "print"
  | println => "println"
  | len => "len"

def all : List Builtin :=
  [print, println, len]

def ofName? (name : String) : Option Builtin :=
  all.find? (·.name = name)

end Builtin

end ExprLang

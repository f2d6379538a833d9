set_option autoImplicit false

/-!
How a node is left: in the normal way, or by a return or a break that is on its way out.
-/

namespace ExprLang

inductive Control (α : Type) where
  | normal (value : α)
  | returned (value : α)
  | broke (value : α)
  deriving DecidableEq

namespace Control

variable {α : Type}

/-- What is carried along, whichever way. -/
def value : Control α → α
  | normal a | returned a | broke a => a

/-- Whether a return or a break is on its way out. -/
def isSignal : Control α → Bool
  | normal _ => false
  | returned _ | broke _ => true

/-- The name of the way. -/
def text : Control α → String
  | normal _ => "Normal"
  | returned _ => "Returned"
  | broke _ => "Broke"

end Control

/-- The two ways to leave a block early. -/
inductive Exit where
  | return_ | break_
  deriving DecidableEq

/-- The way out that an exit takes. -/
def Exit.control {α : Type} (kind : Exit) (value : α) : Control α :=
  match kind with
  | return_ => .returned value
  | break_ => .broke value

end ExprLang

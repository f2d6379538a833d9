import ExprLang.Eval.Machine
import ExprLang.Typing.Checker

set_option autoImplicit false

/-!
Sessions: a checker and a machine that go through programs together. What one program declares, the
next one can use.
-/

namespace ExprLang

/-- Checks a program after what has been checked before. -/
def Checker.checkProgram (c : Checker) (p : Program) : Control Ty × Checker :=
  p.check.run c

def Checker.checkExpr (c : Checker) (e : Expr) : Control Ty × Checker :=
  e.check.run c

namespace Machine

variable {σ : Type} [Sink σ]

/-- The outcome of evaluation: the state it has come to, and the result if it has come to an end. -/
def outcome (node : EvalM σ (Control Value)) (m : Machine σ) :
    Option (Control Value) × Machine σ :=
  match node.run m with
  | .ok result m => (some result, m)
  | .error _ m => (none, m)

/-- Runs a program after what has been run before. -/
def runProgram (rounds : Nat) (m : Machine σ) (p : Program) : Option (Control Value) × Machine σ :=
  outcome (p.eval rounds) m

def evalExpr (rounds : Nat) (m : Machine σ) (e : Expr) : Option (Control Value) × Machine σ :=
  outcome (e.eval rounds) m

end Machine

/-- More rounds than any loop ever takes on a machine. -/
def ampleRounds : Nat := 1000000000000000000

structure Session where
  checker : Checker
  machine : Machine Buffer

namespace Session

def init : Session :=
  ⟨.init, .init .empty⟩

def check (s : Session) (p : Program) : Control Ty × Session :=
  let (result, checker) := s.checker.checkProgram p
  (result, { s with checker })

def run (rounds : Nat) (s : Session) (p : Program) : Option (Control Value) × Session :=
  let (result, machine) := s.machine.runProgram rounds p
  (result, { s with machine })

/-- Checks a program, and runs it if the checker has not found any trouble so far. -/
def submit (rounds : Nat) (s : Session) (p : Program) :
    Control Ty × Option (Control Value) × Session :=
  let (checked, s) := s.check p
  if s.checker.hasErrors then (checked, none, s)
  else
    let (ran, s) := s.run rounds p
    (checked, ran, s)

end Session

end ExprLang

import Script.Eval
import Script.Syntax.Parser

/-!
# Sessions

Programs that run one after another on the same machine.
-/

namespace Script

/-- Why a run gave no value. -/
inductive RunFailure where
  | unparsed (failure : ParseFailure)
  | failed (report : Diagnostic)

namespace RunFailure

/-- The reports about a failed run, in source order. -/
def reports : RunFailure → List Diagnostic
  | unparsed failure => failure.diagnostics
  | failed report => [report]

end RunFailure

namespace Machine

/-- The machine before its first program.  The entries of maps may be anywhere in
memory. -/
def start (input : String) (layout : Layout := fun _ _ _ => 0) : Machine where
  input := input.toList
  heap := { layout }

/-- Adds the text of the running program to a report. -/
def attachSource (m : Machine) (d : Diagnostic) : Diagnostic :=
  d.showing m.source

/-- Evaluates a program; nothing if the bound is too small. -/
def runProgram (settings : Settings) (bound : Nat) (p : Program) (m : Machine) :
    Option (Except RunFailure Value × Machine) :=
  match (Evaluator.bounded settings bound).program p m with
  | .done v m => some (.ok v, m)
  | .left (.failed problem loc) m =>
    some (.error (.failed (m.attachSource (problem.report loc))), m)
  | .left _ m => some (.ok .null, m)
  | .exhausted => none

/-- Parses and evaluates the text of a program. -/
def runSource (settings : Settings) (bound : Nat) (file source : String)
    (m : Machine) : Option (Except RunFailure Value × Machine) :=
  let m := { m with source := some source }
  match parse file source with
  | .error failure => some (.error (.unparsed failure), m)
  | .ok p => m.runProgram settings bound p

/-- The value of a name in the root frame. -/
def global? (m : Machine) (name : String) : Option Value :=
  m.scopes.get? Scope.Arena.root name

/-- The warnings and notes so far, which are then forgotten. -/
def takeAdvisories (m : Machine) : List Diagnostic × Machine :=
  (m.advisories.toList, { m with advisories := .empty })

end Machine

end Script

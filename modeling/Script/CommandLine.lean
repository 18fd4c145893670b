import Script.CommandLine.Invocation
import Script.Diagnostic.Json
import Script.Diagnostic.Report
import Script.Session
import Script.Syntax.Printer

/-!
# Commands

What the command line does: run a program, check its syntax, or print it in
canonical form.  What comes in and goes out is data here.
-/

namespace Script.CommandLine

/-- What a command sees of its surroundings. -/
structure World where
  environment : String → Option String
  /-- The text of a file, or the reason why there is none. -/
  source : String → Except String String
  input : String
  /-- Whether reports go to a terminal. -/
  terminal : Bool
  /-- The seed for jokes. -/
  seed : UInt64
  /-- Where the entries of maps will be in memory. -/
  layout : Layout := fun _ _ _ => 0

/-- What a command leaves behind. -/
structure Effect where
  code : Nat
  output : String := ""
  errors : String := ""
  deriving DecidableEq, Repr

/-- The largest number of bytes that a file may have. -/
def sizeLimit : Nat := 1000000

/-- The text of a file, or what is said about it. -/
def load (w : World) (file : String) : Except String String :=
  match w.source file with
  | .error reason =>
    .error ("Error: failed to read " ++ file ++ "\n\nCaused by:\n    " ++
      reason ++ "\n")
  | .ok source =>
    if sizeLimit < source.utf8ByteSize then
      .error ("Error: source file exceeds 1MB limit (" ++
        toString source.utf8ByteSize ++ " bytes)\n")
    else .ok source

/-- A diagnostic in the format that was asked for. -/
def report (format : ReportFormat) (r : Reporter) (d : Diagnostic) :
    String × Reporter :=
  match format with
  | .human => r.report d
  | .plain => (Report.plain d, r)
  | .json => (Json.diagnostic d ++ "\n", r)

/-- Diagnostics one after another. -/
def reportAll (format : ReportFormat) (r : Reporter) :
    List Diagnostic → String
  | [] => ""
  | d :: ds =>
    let (text, r) := report format r d
    text ++ reportAll format r ds

/-- The syntax of a program: what `good` makes of it, or reports. -/
def withProgram (file source : String) (reports : List Diagnostic → String)
    (good : Program → String) : Effect :=
  match parse file source with
  | .ok p => { code := 0, output := good p }
  | .error failure => { code := 1, errors := reports failure.diagnostics }

def run (config : Config) (bound : Nat) (file source input : String)
    (layout : Layout) (reports : List Diagnostic → String) : Option Effect := do
  let settings :=
    { callLimit := config.callLimit, library := Library.standard }
  let (result, m) ←
    (Machine.start input layout).runSource settings bound file source
  let failures := match result with
    | .ok _ => []
    | .error failure => failure.reports
  return {
    code := if failures.isEmpty then 0 else 1
    output := m.output
    errors := reports (m.advisories.toList ++ failures) }

def perform (w : World) (bound : Nat) (i : Invocation) : Option Effect :=
  match load w i.file with
  | .error message => some { code := 1, errors := message }
  | .ok source =>
    let config := i.config (.ofEnvironment w.environment) w.terminal
    let reporter : Reporter :=
      { color := config.color, jokes := config.jokePolicy w.seed }
    let reports := reportAll (i.options.format.getD .human) reporter
    match i.command with
    | .run => run config bound i.file source w.input w.layout reports
    | .check =>
      some (withProgram i.file source reports fun p =>
        i.file ++ ": ok (" ++ toString p.statements.length ++
          " statements)\n")
    | .fmt => some (withProgram i.file source reports Program.print)

def versionText : String := "victoria 0.1.0\n"

/-- The exit code for a wrong command line. -/
def usageCode : Nat := 2

/-- Carries out a command line; nothing if the bound is too small. -/
def execute (w : World) (bound : Nat) (args : List String) : Option Effect :=
  match Request.ofArgs? args with
  | some .version => some { code := 0, output := versionText }
  | some (.invoke i) => perform w bound i
  | none => some { code := usageCode, errors := "Error: invalid usage\n" }

end Script.CommandLine

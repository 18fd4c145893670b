import Script.Source.Location
import Script.Diagnostic.Code

/-!
# Diagnostics

A diagnostic is one report to the author of a program: a code, a message,
labels on the regions of source that it is about, notes and a help line.  It
may carry the source text, from which a snippet can be shown.
-/

namespace Script

/-- A region of source with a remark.  Primary labels mark the cause. -/
structure Label where
  location : Location
  message : String
  primary : Bool
  deriving DecidableEq, Repr, Inhabited

structure Diagnostic where
  severity : Severity
  code : Code
  message : String
  labels : List Label := []
  notes : List String := []
  help : Option String := none
  source : Option String := none
  deriving DecidableEq, Repr, Inhabited

namespace Diagnostic

/-- A diagnostic without labels, as serious as its code. -/
def ofCode (code : Code) (message : String) : Diagnostic :=
  { severity := code.severity, code, message }

def addLabel (d : Diagnostic) (label : Label) : Diagnostic :=
  { d with labels := d.labels ++ [label] }

def addNote (d : Diagnostic) (note : String) : Diagnostic :=
  { d with notes := d.notes ++ [note] }

/-- A later help line replaces an earlier one. -/
def setHelp (d : Diagnostic) (help : String) : Diagnostic :=
  { d with help := some help }

def attach (d : Diagnostic) (source : String) : Diagnostic :=
  { d with source := some source }

def isError (d : Diagnostic) : Bool := d.severity == .error

/-- Where the report points: the first primary label, or else the first
label. -/
def location? (d : Diagnostic) : Option Location :=
  ((d.labels.find? (·.primary)).or d.labels.head?).map (·.location)

@[simp]
theorem location?_attach (d : Diagnostic) (source : String) :
    (d.attach source).location? = d.location? := rfl

/-- The report with the text of the running program, if there is one. -/
def showing (d : Diagnostic) : Option String → Diagnostic
  | some source => d.attach source
  | none => d

@[simp]
theorem code_showing (d : Diagnostic) (source : Option String) :
    (d.showing source).code = d.code := by
  cases source <;> rfl

@[simp]
theorem location?_showing (d : Diagnostic) (source : Option String) :
    (d.showing source).location? = d.location? := by
  cases source <;> rfl

@[simp]
theorem source_showing (d : Diagnostic) (source : Option String) :
    (d.showing source).source = source.or d.source := by
  cases source <;> rfl

/-- The report in one line: where it points, and the message. -/
def line (d : Diagnostic) : String :=
  match d.location? with
  | some loc => loc.text ++ ": " ++ d.message
  | none => d.message

/-- The first line of every report. -/
def headline (d : Diagnostic) : String :=
  d.severity.text ++ "[" ++ d.code.text ++ "]: " ++ d.message

end Diagnostic

end Script

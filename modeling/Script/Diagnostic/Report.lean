import Script.Diagnostic
import Script.Diagnostic.Joke
import Script.Text.Line
import Script.Text.Search

/-!
# Reports

The text of a diagnostic.  The full report shows the labelled lines of the
source with their neighbours and draws markers under the labels; the plain
report is a headline with remarks.
-/

namespace Script

/-! ### Colours -/

inductive Paint where
  | bold | italic | red | yellow | green | cyan | blue
  deriving DecidableEq, Repr

/-- The terminal codes; all colours are bold. -/
def Paint.codes : Paint → String
  | bold => "1"
  | italic => "3"
  | red => "1;31"
  | yellow => "1;33"
  | green => "1;32"
  | cyan => "1;36"
  | blue => "1;34"

namespace Paint

def reset : String := "\x1b[0m"

def start (paint : Paint) : String := "\x1b[" ++ paint.codes ++ "m"

/-- Paints a text if `color` is set.  Where the text itself ends a painting, it
is taken up again. -/
def apply (color : Bool) (paint : Paint) (text : String) : String :=
  if color then
    paint.start ++ Text.replace reset (reset ++ paint.start) text ++ reset
  else
    text

end Paint

def Severity.paint : Severity → Paint
  | error => .red
  | warning => .yellow
  | note => .green
  | help => .cyan

/-! ### Snippets -/

namespace Report

def spaces (count : Nat) : String := String.ofList (List.replicate count ' ')

/-- The number of the last labelled line, which is one if there is no label. -/
def lastLine (d : Diagnostic) : Nat :=
  (d.labels.map (·.location.line)).max?.getD 1

/-- How many characters the line numbers take: enough for the line behind the
last labelled one. -/
def gutter (d : Diagnostic) : Nat := (toString (lastLine d + 1)).length

/-- What stands in front of a marker in the given column: blanks, with tabs
where the line has tabs. -/
def indent (text : String) (column : Nat) : String :=
  String.ofList ((text.toList.take (column - 1)).map
    fun c => if c = '\t' then '\t' else ' ')

/-- The markers of a label, with its message. -/
def markers (color : Bool) (label : Label) : String :=
  let mark := if label.primary then '^' else '-'
  let row := String.ofList (List.replicate label.location.width mark)
  Paint.apply color (if label.primary then .red else .blue)
    (if label.message.isEmpty then row else row ++ " " ++ label.message)

/-- The lines of a snippet for one line of the source: the line itself and the
markers under it. -/
def snippetLine (color : Bool) (d : Diagnostic) (number : Nat)
    (text : String) : List String :=
  let bar := Paint.apply color .blue "|"
  let digits := toString number
  let shown :=
    Paint.apply color .blue (spaces (gutter d - digits.length) ++ digits)
  (shown ++ " " ++ bar ++ " " ++ text) ::
    (d.labels.filter (·.location.line = number)).map fun label =>
      spaces (gutter d) ++ " " ++ bar ++ " " ++
        indent text label.location.column ++ markers color label

/-- The labelled lines, all lines between them and one more at either end. -/
def snippet (color : Bool) (d : Diagnostic) (source : String) : List String :=
  let lines := Text.lines source
  if lines.isEmpty ∨ d.labels.isEmpty then []
  else
    let first := (d.labels.map (·.location.line)).min?.getD 1
    let start := max (first - 1) 1
    let shown := (lines.drop (start - 1)).take (lastLine d + 2 - start)
    let edge := spaces (gutter d) ++ " " ++ Paint.apply color .blue "|"
    edge :: (shown.zipIdx start).flatMap
      (fun (text, number) => snippetLine color d number text) ++ [edge]

/-- A remark behind the snippet. -/
def remark (color : Bool) (d : Diagnostic) (title text : String) : String :=
  spaces (gutter d) ++ " " ++ Paint.apply color .blue "=" ++ " " ++
    Paint.apply color .bold title ++ ": " ++ text

/-- The lines of the full report, with a joke if there is one. -/
def fullLines (color : Bool) (d : Diagnostic) (joke? : Option String) :
    List String :=
  let title := d.severity.text ++ "[" ++ d.code.text ++ "]"
  let head :=
    Paint.apply color d.severity.paint title ++
      Paint.apply color .bold ":" ++ " " ++ Paint.apply color .bold d.message
  let position := d.location?.toList.map fun loc =>
    spaces (gutter d) ++ Paint.apply color .blue "-->" ++ " " ++ loc.text
  let excerpt := (d.source.map (snippet color d)).getD []
  head :: position ++ excerpt ++
    d.notes.map (remark color d "note") ++
    d.help.toList.map (remark color d "help") ++
    joke?.toList.map fun joke =>
      remark color d "joke" (Paint.apply color .italic joke)

def unlines (lines : List String) : String :=
  String.join (lines.map (· ++ "\n"))

/-- The plain report: no snippet, no colour and no joke. -/
def plain (d : Diagnostic) : String :=
  unlines (d.headline ::
    d.location?.toList.map (fun loc => "  --> " ++ loc.text) ++
    (d.labels.filter (!·.primary)).map (fun label =>
      "  = also: " ++ label.message ++ " (" ++ label.location.text ++ ")") ++
    d.notes.map ("  = note: " ++ ·) ++
    d.help.toList.map ("  = help: " ++ ·))

end Report

/-- Writes full reports.  `count` is the number of reports so far; only a
reporter that tells jokes keeps it. -/
structure Reporter where
  color : Bool
  jokes : JokePolicy
  count : UInt64 := 0
  deriving Repr, Inhabited

/-- A reporter without colours and jokes. -/
def Reporter.quiet : Reporter := { color := false, jokes := .off }

/-- The report of a diagnostic, and the reporter for the next one. -/
def Reporter.report (r : Reporter) (d : Diagnostic) : String × Reporter :=
  match r.jokes with
  | .off => (Report.unlines (Report.fullLines r.color d none), r)
  | .seeded probability seed =>
    (Report.unlines (Report.fullLines r.color d
      (Joke.roll? probability seed r.count d.message)),
     { r with count := r.count + 1 })

end Script

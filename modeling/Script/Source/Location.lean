/-!
# Source locations

A location names a region of one file.  Lines and columns count from one,
columns count characters, and the end column is the first column after the
region.
-/

namespace Script

structure Location where
  line : Nat
  column : Nat
  endLine : Nat
  endColumn : Nat
  file : String
  deriving DecidableEq, Repr, Inhabited

namespace Location

/-- A region inside a single line. -/
def onLine (file : String) (line column endColumn : Nat) : Location :=
  { line, column, endLine := line, endColumn, file }

/-- The location of a value that no source text describes. -/
def unknown : Location := onLine "<unknown>" 1 1 2

/-- The region from the start of `start` to the later of the two ends, where
ends are ordered by line and then by column. -/
def through (start stop : Location) : Location :=
  if start.endLine < stop.endLine ∨
      (start.endLine = stop.endLine ∧ start.endColumn < stop.endColumn) then
    { start with endLine := stop.endLine, endColumn := stop.endColumn }
  else
    start

/-- How many columns the region covers on its first line.  An empty region and
a region of several lines both count as one column. -/
def width (loc : Location) : Nat :=
  if loc.endLine = loc.line then max (loc.endColumn - loc.column) 1 else 1

/-- The position as it stands in reports: `file:line:column`. -/
def text (loc : Location) : String :=
  loc.file ++ ":" ++ toString loc.line ++ ":" ++ toString loc.column

end Location

end Script

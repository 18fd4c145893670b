/-!
# Lines

A line ends at a line feed, and a carriage return in front of it belongs to the
end.  Text behind the last line feed is a line of its own unless it is empty.
-/

namespace Script.Text

/-- The line whose characters have been read, last one first, without the
carriage return at its end. -/
def closeLine : List Char → String
  | '\r' :: read => String.ofList read.reverse
  | read => String.ofList read.reverse

def linesFrom : List Char → List Char → List String
  | [], [] => []
  | read, [] => [String.ofList read.reverse]
  | read, c :: text =>
    if c = '\n' then closeLine read :: linesFrom [] text
    else linesFrom (c :: read) text

def lines (text : String) : List String := linesFrom [] text.toList

end Script.Text

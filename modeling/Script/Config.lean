import Script.Diagnostic.Joke
import Script.Number.Numeral
import Script.Text.Blank

/-!
# Configuration

What can be set from outside.
-/

namespace Script

/-- Jokes, as far as they can be set without a seed. -/
inductive JokeSetting where
  | off
  | sometimes
  deriving DecidableEq, Repr

structure Config where
  /-- How many calls may be under way at the same time. -/
  callLimit : Nat := 1000
  jokes : JokeSetting := .sometimes
  color : Bool := true
  deriving DecidableEq, Repr

namespace Config

/-- No jokes and no colors. -/
def quiet : Config := { jokes := .off, color := false }

/-- A limit as it is set from outside: a number above zero. -/
def callLimit? (text : String) : Option Nat :=
  match Numeral.word64? (Text.trimChars text.toList) with
  | some n => if 0 < n then some n else none
  | none => none

/-- Whether a setting turns the jokes off. -/
def turnsOff (text : String) : Bool :=
  let word := String.ofList
    ((Text.trimChars text.toList).map Numeral.lowerAscii)
  word == "off" || word == "0" || word == "false"

/-- The configuration that the variables of an environment ask for. -/
def ofEnvironment (lookup : String → Option String) : Config where
  callLimit := ((lookup "VICTORIA_MAX_CALL_DEPTH").bind callLimit?).getD 1000
  jokes := if (lookup "VICTORIA_JOKES").any turnsOff then .off else .sometimes
  color := (lookup "NO_COLOR").isNone

/-- Jokes with a seed. -/
def jokePolicy (c : Config) (seed : UInt64) : JokePolicy :=
  match c.jokes with
  | .off => .off
  | .sometimes => .seeded Joke.defaultProbability seed

end Config

end Script

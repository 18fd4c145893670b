import Script.Hash.Sha256

/-!
# Jokes

A report may end with a joke.  Whether it does, and with which one, follows
from a seed, the number of the report and its message, so that a run can be
repeated.
-/

namespace Script

/-- Whether reports may carry jokes, and how likely one is. -/
inductive JokePolicy where
  | off
  | seeded (probability : Float) (seed : UInt64)
  deriving Repr, Inhabited

namespace Joke

def jokes : List String :=
  ["I would tell you a UDP joke, but you might not get it.",
   "There are 10 kinds of people: those who read binary and those who don't.",
   "It works on my machine. Ship the machine.",
   "A null walks into a bar. Nobody notices.",
   "Off-by-one errors are the second hardest problem. Or the third.",
   "The bug is not in the compiler. It is never in the compiler.",
   "Have you tried turning the recursion off and on again?",
   "This error message was hand-crafted by a small team of artisans.",
   "Debugging: being the detective in a crime movie where you are also the " ++
     "murderer.",
   "The semicolon was optional. The bug was not.",
   "Somewhere, a rubber duck is waiting to hear about this.",
   "Every program has at least one bug. This one is proving it."]

def defaultProbability : Float := 0.3

/-- The bytes of a word, the least significant one first. -/
def littleEndian (word : UInt64) : List UInt8 :=
  (List.range 8).map fun i => (word >>> UInt64.ofNat (8 * i)).toUInt8

/-- The word that the bytes stand for, the least significant one first. -/
def ofLittleEndian (bytes : List UInt8) : UInt64 :=
  bytes.foldr (fun byte word => (word <<< 8) ||| byte.toUInt64) 0

/-- The joke for the report with this number and message, if the roll falls
below the probability. -/
def roll? (probability : Float) (seed number : UInt64) (message : String) :
    Option String :=
  let digest := Hash.Sha256.digest
    (littleEndian seed ++ littleEndian number ++ message.toUTF8.toList)
  let fraction :=
    (ofLittleEndian (digest.take 8)).toFloat / (0xffffffffffffffff : UInt64).toFloat
  if fraction ≥ probability then none
  else
    let pick := ofLittleEndian ((digest.drop 8).take 8)
    jokes[pick.toNat % jokes.length]?

end Joke

end Script

import Script.Config
import Script.Text.Search

/-!
# Command lines

A command line names a command and a file, or asks for the version.  Options may
stand in front of the command and behind it; those behind it count more.  In each
of the two places an option may be given once.
-/

namespace Script.CommandLine

inductive Command where
  | run | check | fmt
  deriving DecidableEq, Repr

def Command.ofWord? : String → Option Command
  | "run" => some .run
  | "check" => some .check
  | "fmt" => some .fmt
  | _ => none

/-- When reports are coloured. -/
inductive ColorChoice where
  | auto | always | never
  deriving DecidableEq, Repr

def ColorChoice.ofWord? : String → Option ColorChoice
  | "auto" => some .auto
  | "always" => some .always
  | "never" => some .never
  | _ => none

/-- How reports are written. -/
inductive ReportFormat where
  | human | plain | json
  deriving DecidableEq, Repr

def ReportFormat.ofWord? : String → Option ReportFormat
  | "human" => some .human
  | "plain" => some .plain
  | "json" => some .json
  | _ => none

/-- One option with its value. -/
inductive Setting where
  | maxDepth (limit : Nat)
  | color (choice : ColorChoice)
  | format (format : ReportFormat)
  | noJokes
  | verbose
  deriving DecidableEq, Repr

structure Options where
  maxDepth : Option Nat := none
  color : Option ColorChoice := none
  format : Option ReportFormat := none
  noJokes : Bool := false
  verbose : Bool := false
  deriving DecidableEq, Repr

namespace Options

/-- Adds an option that is not there yet. -/
def add? (o : Options) : Setting → Option Options
  | .maxDepth limit =>
    if o.maxDepth.isSome then none else some { o with maxDepth := some limit }
  | .color choice =>
    if o.color.isSome then none else some { o with color := some choice }
  | .format format =>
    if o.format.isSome then none else some { o with format := some format }
  | .noJokes => if o.noJokes then none else some { o with noJokes := true }
  | .verbose => if o.verbose then none else some { o with verbose := true }

/-- The options in front of a command, overridden by those behind it. -/
def override (front back : Options) : Options where
  maxDepth := back.maxDepth <|> front.maxDepth
  color := back.color <|> front.color
  format := back.format <|> front.format
  noJokes := front.noJokes || back.noJokes
  verbose := front.verbose || back.verbose

end Options

/-! ### Words and options -/

inductive Item where
  | set (s : Setting)
  | word (text : String)
  /-- The question for the version, behind which nothing is read. -/
  | version
  /-- `--`, behind which everything is a word. -/
  | wordsOnly
  deriving DecidableEq, Repr

/-- An option that takes a value. -/
def setting? (key value : String) : Option Setting :=
  match key with
  | "--max-depth" => (Numeral.word64? value.toList).map .maxDepth
  | "--color" => (ColorChoice.ofWord? value).map .color
  | "--error-format" => (ReportFormat.ofWord? value).map .format
  | _ => none

/-- An option that takes no value. -/
def flag? : String → Option Setting
  | "--no-jokes" => some .noJokes
  | "--verbose" => some .verbose
  | _ => none

/-- The items that letters behind a single dash stand for, in front of the items
that follow. -/
def letterItems (following : Option (List Item)) :
    List Char → Option (List Item)
  | [] => following
  | 'v' :: letters => (letterItems following letters).map (.set .verbose :: ·)
  | 'V' :: _ => some [.version]
  | _ :: _ => none

/-- The letters behind a single dash. -/
def letters? (arg : String) : Option (List Char) :=
  match arg.toList with
  | '-' :: c :: letters => if c = '-' then none else some (c :: letters)
  | _ => none

def isWord (arg : String) : Bool := arg = "-" || !Text.startsWith "-" arg

/-- An argument at its first `=`: what stands in front, and what follows if there
is one. -/
def splitAtEquals : List Char → List Char × Option (List Char)
  | [] => ([], none)
  | '=' :: rest => ([], some rest)
  | c :: rest =>
    let (key, value) := splitAtEquals rest
    (c :: key, value)

/-- The items of a command line; nothing if an argument is not understood. -/
def items : List String → Option (List Item)
  | [] => some []
  | "--" :: args => some (.wordsOnly :: args.map .word)
  | "--version" :: _ => some [.version]
  | arg :: args =>
    if isWord arg then (items args).map (.word arg :: ·)
    else
      match letters? arg, flag? arg with
      | some letters, _ => letterItems (items args) letters
      | none, some s => (items args).map (.set s :: ·)
      | none, none =>
        match splitAtEquals arg.toList, args with
        | (key, some value), args => do
          let s ← setting? (String.ofList key) (String.ofList value)
          return .set s :: (← items args)
        | (_, none), value :: args => do
          let s ← setting? arg value
          return .set s :: (← items args)
        | (_, none), [] => none

/-! ### Invocations -/

structure Invocation where
  command : Command
  file : String
  options : Options
  deriving DecidableEq, Repr

/-- What stands behind a command: one file, and options. -/
def behindCommand : List Item → Option String → Options →
    Option (String × Options)
  | [], file, o => file.map fun file => (file, o)
  | .set s :: items, file, o => (o.add? s).bind (behindCommand items file)
  | .version :: _, _, _ => none
  | .wordsOnly :: items, file, o => behindCommand items file o
  | .word text :: items, none, o =>
    if text.isEmpty then none else behindCommand items (some text) o
  | .word _ :: _, some _, _ => none

/-- What a command line asks for. -/
inductive Request where
  | version
  | invoke (i : Invocation)
  deriving DecidableEq, Repr

/-- The file that has to be read for a request. -/
def Request.file? : Request → Option String
  | .version => none
  | .invoke i => some i.file

/-- Whether a request runs a program, which may read its input. -/
def Request.runs : Request → Bool
  | .version => false
  | .invoke i => i.command = .run

/-- What stands in front of a command, and the command. -/
def fromFront : List Item → Options → Option Request
  | [], _ => none
  | .set s :: items, o => (o.add? s).bind (fromFront items)
  | .version :: _, _ => some .version
  | .wordsOnly :: _, _ => none
  | .word text :: items, front => do
    let command ← Command.ofWord? text
    let (file, back) ← behindCommand items none {}
    return .invoke { command, file, options := front.override back }

/-- Reads a command line; nothing if it is wrong. -/
def Request.ofArgs? (args : List String) : Option Request := do
  fromFront (← items args) {}

/-- The configuration of the environment, changed by the options.  `terminal`
says whether somebody sees the colours. -/
def Invocation.config (i : Invocation) (base : Config) (terminal : Bool) :
    Config where
  callLimit := (i.options.maxDepth.map (max · 1)).getD base.callLimit
  jokes := if i.options.noJokes then .off else base.jokes
  color := match i.options.color.getD .auto with
    | .always => true
    | .never => false
    | .auto => base.color && terminal

end Script.CommandLine

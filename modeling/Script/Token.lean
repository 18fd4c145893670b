/-!
# Tokens

The vocabulary of the language: every kind of token, the words that are
reserved, and how a token is named in a message.
-/

namespace Script

namespace Token

inductive Kind where
  | illegal | unterminatedString | eof
  | ident | int | float | str
  | assign | plusAssign | minusAssign | starAssign | slashAssign | percentAssign
  | plus | minus | asterisk | slash | percent | increment | decrement
  | lt | gt | le | ge | eq | notEq
  | and | or | bang
  | fatArrow | arrow | range | spread | dot
  | comma | semicolon | colon | question
  | lparen | rparen | lbrace | rbrace | lbracket | rbracket
  | letWord | constWord | defineWord | ifWord | elseWord | returnWord
  | trueWord | falseWord | whileWord | forWord | inWord
  | breakWord | continueWord | switchWord | caseWord | defaultWord
  | tryWord | catchWord | structWord | enumWord | includeWord
  | typeInt | typeFloat | typeString | typeBool | typeChar | typeByte
  | typeRune | typeArray | typeMap | typeAny | typeVoid
  deriving DecidableEq, Repr, Inhabited

namespace Kind

/-- The reserved words.  The logical operators may be written as words. -/
def reserved : List (String × Kind) :=
  [("let", letWord), ("const", constWord), ("define", defineWord),
   ("if", ifWord), ("else", elseWord), ("return", returnWord),
   ("true", trueWord), ("false", falseWord), ("while", whileWord),
   ("for", forWord), ("in", inWord), ("break", breakWord),
   ("continue", continueWord), ("switch", switchWord), ("case", caseWord),
   ("default", defaultWord), ("try", tryWord), ("catch", catchWord),
   ("struct", structWord), ("enum", enumWord), ("include", includeWord),
   ("and", and), ("or", or), ("not", bang),
   ("int", typeInt), ("float", typeFloat), ("string", typeString),
   ("bool", typeBool), ("char", typeChar), ("byte", typeByte),
   ("rune", typeRune), ("array", typeArray), ("map", typeMap),
   ("any", typeAny), ("void", typeVoid)]

/-- The kind of a reserved word. -/
def ofWord? (word : String) : Option Kind := reserved.lookup word

/-- Words that name a built-in type.  They are also accepted as names of
built-in functions and members. -/
def isType : Kind → Bool
  | typeInt | typeFloat | typeString | typeBool | typeChar | typeByte
  | typeRune | typeArray | typeMap | typeAny | typeVoid => true
  | _ => false

/-- The kind as it reads after "expected". -/
def text : Kind → String
  | illegal => "illegal character"
  | unterminatedString => "unterminated string"
  | eof => "end of input"
  | ident => "identifier"
  | int => "integer"
  | float => "float"
  | str => "string"
  | assign => "="
  | plusAssign => "+="
  | minusAssign => "-="
  | starAssign => "*="
  | slashAssign => "/="
  | percentAssign => "%="
  | plus => "+"
  | minus => "-"
  | asterisk => "*"
  | slash => "/"
  | percent => "%"
  | increment => "++"
  | decrement => "--"
  | lt => "<"
  | gt => ">"
  | le => "<="
  | ge => ">="
  | eq => "=="
  | notEq => "!="
  | and => "&&"
  | or => "||"
  | bang => "!"
  | fatArrow => "=>"
  | arrow => "->"
  | range => ".."
  | spread => "..."
  | dot => "."
  | comma => ","
  | semicolon => ";"
  | colon => ":"
  | question => "?"
  | lparen => "("
  | rparen => ")"
  | lbrace => "\x7b"
  | rbrace => "\x7d"
  | lbracket => "["
  | rbracket => "]"
  | letWord => "let"
  | constWord => "const"
  | defineWord => "define"
  | ifWord => "if"
  | elseWord => "else"
  | returnWord => "return"
  | trueWord => "true"
  | falseWord => "false"
  | whileWord => "while"
  | forWord => "for"
  | inWord => "in"
  | breakWord => "break"
  | continueWord => "continue"
  | switchWord => "switch"
  | caseWord => "case"
  | defaultWord => "default"
  | tryWord => "try"
  | catchWord => "catch"
  | structWord => "struct"
  | enumWord => "enum"
  | includeWord => "include"
  | typeInt => "int"
  | typeFloat => "float"
  | typeString => "string"
  | typeBool => "bool"
  | typeChar => "char"
  | typeByte => "byte"
  | typeRune => "rune"
  | typeArray => "array"
  | typeMap => "map"
  | typeAny => "any"
  | typeVoid => "void"

end Kind

end Token

/-- A token and where it stands.  `text` is the source text, except that a
string carries its contents with the escapes resolved. -/
structure Token where
  kind : Token.Kind
  text : String
  line : Nat
  column : Nat
  endColumn : Nat
  deriving DecidableEq, Repr, Inhabited

namespace Token

/-- The token as it reads after "found". -/
def describe (t : Token) : String :=
  match t.kind with
  | .eof => "end of input"
  | .str => "\"" ++ t.text ++ "\""
  | _ => t.text

end Token

end Script

import Script.Token

/-!
# Precedence of operators

Every family of operators has a rung of its own on one ladder.
-/

namespace Script

inductive Precedence where
  | lowest | arrow | ternary | or | and | assign | equals | lessGreater | range
  | sum | product | unary | call | index | step | dot
  deriving DecidableEq, Repr, Inhabited

namespace Precedence

/-- The height of the rung; a higher one binds tighter. -/
def level : Precedence → Nat
  | lowest => 0
  | arrow => 1
  | ternary => 2
  | or => 3
  | and => 4
  | assign => 5
  | equals => 6
  | lessGreater => 7
  | range => 8
  | sum => 9
  | product => 10
  | unary => 11
  | call => 12
  | index => 13
  | step => 14
  | dot => 15

/-- How tightly a token binds the operand on its left.  Tokens that never
follow an operand are on the lowest rung. -/
def ofKind : Token.Kind → Precedence
  | .fatArrow => arrow
  | .question => ternary
  | .or => or
  | .and => and
  | .assign | .plusAssign | .minusAssign | .starAssign | .slashAssign
  | .percentAssign => assign
  | .eq | .notEq => equals
  | .lt | .gt | .le | .ge => lessGreater
  | .range => range
  | .plus | .minus => sum
  | .asterisk | .slash | .percent => product
  | .lparen => call
  | .lbracket => index
  | .increment | .decrement => step
  | .dot => dot
  | _ => lowest

end Precedence

end Script

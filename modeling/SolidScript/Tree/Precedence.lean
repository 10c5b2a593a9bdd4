import SolidScript.Token
import SolidScript.Tree

namespace SolidScript

inductive Precedence where
  | lowest
  | equals
  | lessGreater
  | sum
  | product
  | unary
  | call
  | index
deriving Repr, DecidableEq, Inhabited

namespace Precedence

-- A higher rank binds tighter.
def rank : Precedence → Nat
  | lowest => 0
  | equals => 1
  | lessGreater => 2
  | sum => 3
  | product => 4
  | unary => 5
  | call => 6
  | index => 7

-- A token that cannot stand behind an operand has the lowest precedence, which no expression goes below.
def ofKind : Token.Kind → Precedence
  | .eq | .notEq | .assign => equals
  | .lt | .gt => lessGreater
  | .plus | .minus => sum
  | .asterisk | .slash => product
  | .lparen => call
  | .lbracket => index
  | _ => lowest

end Precedence

def BinaryOp.ofKind? : Token.Kind → Option BinaryOp
  | .plus => some add
  | .minus => some subtract
  | .asterisk => some multiply
  | .slash => some divide
  | .lt => some lessThan
  | .gt => some greaterThan
  | .eq => some equal
  | .notEq => some notEqual
  | _ => none

end SolidScript

import SolidScript.Decimal.Layout
import SolidScript.Tree

namespace SolidScript

-- The semicolon behind a statement that another one follows. Bindings and returns always carry their own.
def Stmt.terminator : Stmt → String
  | expr _ => ";"
  | bind _ _ | ret _ => ""

namespace Expr

-- A block whose statements are written already.
def braced (lines : List String) : String :=
  if lines.isEmpty then "\x7b \x7d" else "\x7b " ++ " ".intercalate lines ++ " \x7d"

mutual

-- Unary, binary and index expressions stand in parentheses, so that no rule of precedence is needed to read them back.
def print : Expr → String
  | .ident name => name
  | .int value => toString value.toInt
  | .float value => Number.literal value
  | .string text => "\"" ++ text ++ "\""
  | .bool value => if value then "true" else "false"
  | .undef => "undef"
  | .unary op right => "(" ++ op.symbol ++ print right ++ ")"
  | .binary left op right => "(" ++ print left ++ " " ++ op.symbol ++ " " ++ print right ++ ")"
  | .cond condition consequence alternative =>
    "if (" ++ print condition ++ ") " ++ braced (printStmts consequence) ++ printBlock? " else " alternative
  | .function params body => "function(" ++ ", ".intercalate params ++ ") " ++ braced (printStmts body)
  | .call callee args => print callee ++ "(" ++ ", ".intercalate (printEach args) ++ ")"
  | .array elements => "[" ++ ", ".intercalate (printEach elements) ++ "]"
  | .hash pairs => "\x7b" ++ ", ".intercalate (printPairs pairs) ++ "\x7d"
  | .index left key => "(" ++ print left ++ "[" ++ print key ++ "])"
  | .named name value => name ++ " = " ++ print value
  | .primitive kind args body =>
    kind.keyword ++ "(" ++ ", ".intercalate (printEach args) ++ ")" ++ printBlock? " " body
termination_by structural e => e

def printEach : List Expr → List String
  | [] => []
  | e :: rest => print e :: printEach rest
termination_by structural es => es

def printPairs : List (Expr × Expr) → List String
  | [] => []
  | (key, value) :: rest => (print key ++ ": " ++ print value) :: printPairs rest
termination_by structural ps => ps

-- A block that may be missing, with what leads to it.
def printBlock? (lead : String) : Option (List Stmt) → String
  | none => ""
  | some block => lead ++ braced (printStmts block)
termination_by structural b => b

-- The statements one by one, each with its terminator unless it is the last.
def printStmts : List Stmt → List String
  | [] => []
  | [s] => [printStmt s]
  | s :: t :: rest => (printStmt s ++ s.terminator) :: printStmts (t :: rest)
termination_by structural b => b

def printStmt : Stmt → String
  | .bind name value => "let " ++ name ++ " = " ++ print value ++ ";"
  | .ret value => "return " ++ print value ++ ";"
  | .expr value => print value
termination_by structural s => s

end

end Expr

def Stmt.print (s : Stmt) : String := Expr.printStmt s

def Block.print (block : Block) : String := Expr.braced (Expr.printStmts block)

-- A program has one statement on a line.
def Program.print (program : Program) : String := "\n".intercalate (Expr.printStmts program)

end SolidScript

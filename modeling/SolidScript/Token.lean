import SolidScript.Primitive
import SolidScript.Source

namespace SolidScript

namespace Token

inductive Kind where
  | illegal
  | eof
  | comment
  | ident
  | int
  | float
  | string
  | assign
  | plus
  | minus
  | bang
  | asterisk
  | slash
  | lt
  | gt
  | eq
  | notEq
  | comma
  | semicolon
  | colon
  | lparen
  | rparen
  | lbrace
  | rbrace
  | lbracket
  | rbracket
  | functionWord
  | letWord
  | trueWord
  | falseWord
  | ifWord
  | elseWord
  | returnWord
  | undefWord
  | primitive (p : Primitive)
deriving Repr, DecidableEq, Inhabited

namespace Kind

-- The name of a kind in messages.
def title : Kind → String
  | illegal => "ILLEGAL"
  | eof => "EOF"
  | comment => "COMMENT"
  | ident => "IDENT"
  | int => "INT"
  | float => "FLOAT"
  | string => "STRING"
  | assign => "="
  | plus => "+"
  | minus => "-"
  | bang => "!"
  | asterisk => "*"
  | slash => "/"
  | lt => "<"
  | gt => ">"
  | eq => "=="
  | notEq => "!="
  | comma => ","
  | semicolon => ";"
  | colon => ":"
  | lparen => "("
  | rparen => ")"
  | lbrace => "\x7b"
  | rbrace => "\x7d"
  | lbracket => "["
  | rbracket => "]"
  | functionWord => "FUNCTION"
  | letWord => "LET"
  | trueWord => "TRUE"
  | falseWord => "FALSE"
  | ifWord => "IF"
  | elseWord => "ELSE"
  | returnWord => "RETURN"
  | undefWord => "UNDEF"
  | primitive p => p.title

-- The kind of a word that is spelled like an identifier.
def ofWord (word : String) : Kind :=
  match word with
  | "function" => functionWord
  | "let" => letWord
  | "true" => trueWord
  | "false" => falseWord
  | "if" => ifWord
  | "else" => elseWord
  | "return" => returnWord
  | "undef" => undefWord
  | _ => match Primitive.ofKeyword? word with
    | some p => primitive p
    | none => ident

def primitive? : Kind → Option Primitive
  | primitive p => some p
  | _ => none

end Kind

end Token

structure Token where
  kind : Token.Kind
  literal : String
  position : Position
deriving Repr, DecidableEq, Inhabited

end SolidScript

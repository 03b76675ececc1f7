import TypeInType.Location

/-!
Tokens of the surface language.
-/

namespace TypeInType

inductive TokenKind where
  | letWord
  | theoremWord
  | funWord
  | forallWord
  | typeWord
  | name
  | arrow
  | fatArrow
  | define
  | assign
  | leftParen
  | rightParen
  | colon
  | comma
  | semicolon
  deriving DecidableEq, Repr

namespace TokenKind

def text : TokenKind → String
  | .letWord => "LET"
  | .theoremWord => "THEOREM"
  | .funWord => "FUN"
  | .forallWord => "FORALL"
  | .typeWord => "TYPE"
  | .name => "IDENT"
  | .arrow => "ARROW"
  | .fatArrow => "FAT_ARROW"
  | .define => "DEFINE"
  | .assign => "ASSIGN"
  | .leftParen => "LPAREN"
  | .rightParen => "RPAREN"
  | .colon => "COLON"
  | .comma => "COMMA"
  | .semicolon => "SEMICOLON"

def ofWord (word : String) : TokenKind :=
  if word = "let" then .letWord
  else if word = "theorem" then .theoremWord
  else if word = "fun" then .funWord
  else if word = "forall" then .forallWord
  else if word = "Type" then .typeWord
  else .name

end TokenKind

structure Token where
  kind : TokenKind
  text : String
  place : Location
  deriving DecidableEq, Repr

structure Tokens where
  items : List Token
  finish : Location
  deriving DecidableEq, Repr

def endOfInput : String := "EOF"

end TypeInType

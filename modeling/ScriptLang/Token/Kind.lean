/-!
# Kinds of tokens

The kinds of tokens that a script is made of, how a kind is described in messages and how it is
named in listings.

* `TokenKind.describe_ne_nil` — no description is empty, so a symbol is always some text.
-/

namespace ScriptLang

/-- What a token is. Twenty-two kinds are symbols with one fixed spelling each. -/
inductive TokenKind where
  | leftParen | rightParen | leftBracket | rightBracket | leftBrace | rightBrace
  | comma | colon | dot | semicolon
  | equal | plus | minus | star | slash | percent
  | greater | less | equalEqual | bangEqual | greaterEqual | lessEqual
  | number | string | identifier
  /-- The keywords `let` and `const`, which open a declaration. -/
  | declaration
  /-- The keyword `print`. -/
  | print
  | endOfInput
deriving DecidableEq, Repr

namespace TokenKind

/-- How messages speak of the kind. A symbol is spelled out, so for the symbols this is also the
text that stands for them in a script. -/
def describe : TokenKind → String
  | leftParen => "("
  | rightParen => ")"
  | leftBracket => "["
  | rightBracket => "]"
  | leftBrace => "\x7b"
  | rightBrace => "\x7d"
  | comma => ","
  | colon => ":"
  | dot => "."
  | semicolon => ";"
  | equal => "="
  | plus => "+"
  | minus => "-"
  | star => "*"
  | slash => "/"
  | percent => "%"
  | greater => ">"
  | less => "<"
  | equalEqual => "=="
  | bangEqual => "!="
  | greaterEqual => ">="
  | lessEqual => "<="
  | number => "number"
  | string => "string"
  | identifier => "identifier"
  | declaration => "let/const"
  | print => "print"
  | endOfInput => "end of input"

theorem describe_ne_nil (k : TokenKind) : k.describe.toList ≠ [] := by cases k <;> decide

/-- How listings of tokens name the kind. -/
def name : TokenKind → String
  | leftParen => "LeftParen"
  | rightParen => "RightParen"
  | leftBracket => "LeftBracket"
  | rightBracket => "RightBracket"
  | leftBrace => "LeftBrace"
  | rightBrace => "RightBrace"
  | comma => "Comma"
  | colon => "Colon"
  | dot => "Dot"
  | semicolon => "Semicolon"
  | equal => "Equal"
  | plus => "Plus"
  | minus => "Minus"
  | star => "Star"
  | slash => "Slash"
  | percent => "Percent"
  | greater => "Greater"
  | less => "Less"
  | equalEqual => "EqualEqual"
  | bangEqual => "BangEqual"
  | greaterEqual => "GreaterEqual"
  | lessEqual => "LessEqual"
  | number => "Number"
  | string => "String"
  | identifier => "Identifier"
  | declaration => "VarDeclaration"
  | print => "Print"
  | endOfInput => "Eof"

/-- The kinds with one fixed spelling. -/
def symbols : List TokenKind :=
  [leftParen, rightParen, leftBracket, rightBracket, leftBrace, rightBrace, comma, colon, dot,
    semicolon, plus, minus, star, slash, percent, equal, equalEqual, bangEqual, greater,
    greaterEqual, less, lessEqual]

/-- All kinds. -/
def all : List TokenKind :=
  symbols ++ [number, string, identifier, declaration, print, endOfInput]

/-- The kind with the given name in listings. -/
def ofName? (s : String) : Option TokenKind := all.find? fun k => k.name = s

/-- Is the kind one of the six symbols that compare? -/
def isComparator : TokenKind → Bool
  | greater | less | equalEqual | bangEqual | greaterEqual | lessEqual => true
  | _ => false

end TokenKind

/-- The kind of a keyword; other words have none. -/
def keyword (word : String) : Option TokenKind :=
  if word = "let" ∨ word = "const" then some .declaration
  else if word = "print" then some .print
  else none

end ScriptLang

import ScriptLang.Token.Basic

/-!
# Errors of form

A list of tokens that is no program is reported with the cause, with the productions that were
being read, outermost first, and with the first token that was not read.
-/

namespace ScriptLang

/-- How many expressions may be nested inside one another, the outermost counted. -/
def maxNesting : Nat := 128

/-- The productions of the grammar that errors name. -/
inductive Production where
  | program | statement | declaration | printStatement | expression | assignment | object
  | comparison | term | factor | member | primary
deriving DecidableEq, Repr

namespace Production

/-- The name of a production in messages. -/
def name : Production → String
  | program => "program"
  | statement => "statement"
  | declaration => "var_declaration"
  | printStatement => "print_statement"
  | expression => "expression"
  | assignment => "assignment"
  | object => "object"
  | comparison => "comparison"
  | term => "term"
  | factor => "factor"
  | member => "member"
  | primary => "primary"

end Production

/-- What is wrong with a list of tokens. -/
inductive ParseError.Cause where
  | expected (kind : TokenKind)
  | unexpected (kind : TokenKind)
  | expectedIdentifier
  | missingConstInitializer (name : String)
  | numberOutOfRange (text : String)
  | tooDeep
deriving DecidableEq, Repr

/-- **Why tokens are no program:** the cause, the path of productions that were being read, and
the first token that was not read, if there is one. -/
structure ParseError where
  cause : ParseError.Cause
  path : List Production
  found : Option Token
deriving DecidableEq, Repr

namespace ParseError

/-- A cause in words. -/
def Cause.message : Cause → String
  | expected kind => "Expected \"" ++ kind.describe ++ "\""
  | unexpected kind => "Unexpected \"" ++ kind.describe ++ "\""
  | expectedIdentifier => "Expected identifier"
  | missingConstInitializer name => "Constant \"" ++ name ++ "\" must be initialised"
  | numberOutOfRange text => "Number " ++ text ++ " does not fit in an integer"
  | tooDeep => "Expression nested more than " ++ toString maxNesting ++ " levels deep"

/-- The token that an error came upon, in words: its place, its kind, and its text where that says
more than the kind. -/
def describeFound (t : Token) : String :=
  " at " ++ toString t.span ++ " but found \"" ++ t.kind.describe ++ "\"" ++
    if t.text ≠ "" ∧ t.text ≠ t.kind.describe then " (" ++ t.text ++ ")" else ""

/-- The error in words, on two lines. -/
def message (e : ParseError) : String :=
  "While parsing " ++ " > ".intercalate (e.path.map Production.name) ++ "\n" ++
    e.cause.message ++ (e.found.map describeFound).getD ""

end ParseError

end ScriptLang

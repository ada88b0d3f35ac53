import ScriptLang.Program

/-!
# Programs as text

The text by which messages and listings show a program: one statement a line, operators in front
of their operands, and parentheses around every operation and every assignment. Strings stand
between quotes just as they are.
-/

namespace ScriptLang

/-- A literal as text. -/
def Literal.render : Literal → String
  | number n => toString n.toInt
  | string s => "\"" ++ s ++ "\""
  | boolean b => if b then "true" else "false"

/-- The symbol of a comparator. -/
def Comparator.symbol : Comparator → String
  | equal => "=="
  | notEqual => "!="
  | less => "<"
  | lessEqual => "<="
  | greater => ">"
  | greaterEqual => ">="

/-- The symbol of an operator. -/
def Operator.symbol : Operator → String
  | plus => "+"
  | minus => "-"
  | times => "*"
  | divide => "/"
  | modulo => "%"

namespace Expr

mutual

/-- **An expression as text.** -/
def render : Expr → String
  | .identifier name => name
  | .literal value => value.render
  | .assign target value => "(" ++ target.render ++ " = " ++ value.render ++ ")"
  | .object properties => "\x7b " ++ renderProperties properties ++ "\x7d"
  | .member base property => base.render ++ "." ++ property
  | .compare c left right => "(" ++ c.symbol ++ " " ++ left.render ++ " " ++ right.render ++ ")"
  | .binary o left right => "(" ++ o.symbol ++ " " ++ left.render ++ " " ++ right.render ++ ")"
termination_by structural e => e

/-- The properties of an object literal as text, a comma after each of them. -/
def renderProperties : List (String × Expr) → String
  | [] => ""
  | (key, value) :: properties =>
    key ++ ": " ++ value.render ++ ", " ++ renderProperties properties
termination_by structural ps => ps

end

end Expr

/-- A statement as text, on one line but for line feeds in its strings. -/
def Stmt.render : Stmt → String
  | expression value => value.render ++ ";"
  | declare constant name value =>
    (if constant then "const " else "let ") ++ name ++ " = " ++ value.render ++ ";"
  | print value => "print(" ++ value.render ++ ");"

/-- A program as text, a line feed after each statement. -/
def Program.render (p : Program) : String := String.join (p.map fun s => s.render ++ "\n")

end ScriptLang

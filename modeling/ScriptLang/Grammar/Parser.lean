import ScriptLang.Grammar.Numeral
import ScriptLang.Grammar.Reader
import ScriptLang.Program

/-!
# The grammar of programs

One parser per production. Operators bind, from the tightest: member access, then `*`, `/` and
`%`, then `+` and `-`, then the comparators, then assignment. An object literal stands where a
comparison could, and so is no operand of an operator unless parentheses surround it.

Every expression is read by `expression`, which counts down the levels of nesting that are left
and refuses to read at level zero.

* `parse` — the program that a list of tokens stands for, or why it stands for none.
-/

namespace ScriptLang

open Reader

namespace Grammar

/-! ### Operators -/

/-- Joins an expression and a member name. -/
def memberOperator : TokenKind → Option (Expr → String → Expr)
  | .dot => some .member
  | _ => none

/-- The operators that bind tightest. -/
def factorOperator : TokenKind → Option (Expr → Expr → Expr)
  | .star => some (.binary .times)
  | .slash => some (.binary .divide)
  | .percent => some (.binary .modulo)
  | _ => none

/-- The operators of sums. -/
def termOperator : TokenKind → Option (Expr → Expr → Expr)
  | .plus => some (.binary .plus)
  | .minus => some (.binary .minus)
  | _ => none

/-- The comparators. -/
def comparisonOperator : TokenKind → Option (Expr → Expr → Expr)
  | .equalEqual => some (.compare .equal)
  | .bangEqual => some (.compare .notEqual)
  | .less => some (.compare .less)
  | .lessEqual => some (.compare .lessEqual)
  | .greater => some (.compare .greater)
  | .greaterEqual => some (.compare .greaterEqual)
  | _ => none

/-! ### Expressions

The productions of an expression, given the parser for the expressions nested in it. -/

/-- Member names, each behind a dot, after the expression `base`. -/
def members (base : Expr) : Reader Expr :=
  chain memberOperator ⟨identifier, shortens_identifier⟩ base

/-- Operands joined by operators. -/
def operands (operator : TokenKind → Option (Expr → Expr → Expr)) (operand : Parser Expr) :
    Reader Expr := do
  let first ← operand.read
  chain operator operand first

theorem keeps_members (base : Expr) : (members base).Keeps := keeps_chain ..

theorem shortens_operands (operator : TokenKind → Option (Expr → Expr → Expr))
    (operand : Parser Expr) : (operands operator operand).Shortens :=
  operand.shortens.bind fun _ => keeps_chain ..

variable (nested : Parser Expr)

/-- A name, a number, a string, or an expression in parentheses. -/
def primaryRead : Reader Expr
  | [] => fail (.unexpected .endOfInput) []
  | t :: ts =>
    match t.kind with
    | .identifier => .ok (.identifier t.text, ts)
    | .string => .ok (.literal (.string t.text), ts)
    | .number =>
      match Numeral.int64? t.text with
      | some n => .ok (.literal (.number n), ts)
      | none => fail (.numberOutOfRange t.text) (t :: ts)
    | .leftParen => (do let e ← nested.read; expect .rightParen; return e : Reader Expr) ts
    | kind => fail (.unexpected kind) (t :: ts)

theorem shortens_primaryRead : (primaryRead nested).Shortens := by
  have parenthesised : (do
      let e ← nested.read; expect .rightParen; return e : Reader Expr).Shortens :=
    nested.shortens.bind fun _ => (shortens_expect _).keeps.bind fun _ => keeps_pure _
  intro ts e rest h
  cases ts with
  | nil => cases h
  | cons t ts =>
    simp only [primaryRead] at h
    split at h
    · cases h; exact Nat.lt_succ_self _
    · cases h; exact Nat.lt_succ_self _
    · split at h <;> cases h
      exact Nat.lt_succ_self _
    · exact Nat.lt_succ_of_lt (parenthesised h)
    · cases h

/-- A name, a number, a string, or an expression in parentheses. -/
def primary : Parser Expr where
  read := within .primary (primaryRead nested)
  shortens := (shortens_primaryRead nested).within _

/-- A primary expression and its member names. -/
def member : Parser Expr where
  read := within .member do
    let base ← (primary nested).read
    members base
  shortens := ((primary nested).shortens.bind keeps_members).within _

/-- Members joined by the operators that bind tightest. -/
def factor : Parser Expr where
  read := within .factor (operands factorOperator (member nested))
  shortens := (shortens_operands ..).within _

/-- Factors joined by the operators of sums. -/
def term : Parser Expr where
  read := within .term (operands termOperator (factor nested))
  shortens := (shortens_operands ..).within _

/-- Terms joined by comparators. -/
def comparison : Parser Expr where
  read := within .comparison (operands comparisonOperator (term nested))
  shortens := (shortens_operands ..).within _

/-- A property of an object literal, with the comma that follows every one of them. -/
def property : Parser (String × Expr) where
  read := do
    let key ← identifier
    expect .colon
    let value ← nested.read
    expect .comma
    return (key, value)
  shortens := shortens_identifier.bind fun _ => (shortens_expect _).keeps.bind fun _ =>
    nested.shortens.keeps.bind fun _ => (shortens_expect _).keeps.bind fun _ => keeps_pure _

/-- An object literal with its member names. -/
def object : Parser Expr where
  read := within .object do
    expect .leftBrace
    let properties ← itemsBefore .rightBrace (property nested)
    expect .rightBrace
    members (.object properties)
  shortens := ((shortens_expect _).bind fun _ => (keeps_itemsBefore ..).bind fun _ =>
    (shortens_expect _).keeps.bind fun _ => keeps_members _).within _

/-- An object literal, recognised by its brace, or else a comparison. -/
def operation : Parser Expr where
  read ts :=
    if ts.head?.map Token.kind = some .leftBrace then (object nested).read ts
    else (comparison nested).read ts
  shortens ts e rest h := by
    dsimp only at h
    split at h
    · exact (object nested).shortens h
    · exact (comparison nested).shortens h

/-- An operation, or an assignment to one. Any operation may stand on the left. -/
def assignment : Parser Expr where
  read := within .assignment do
    let target ← (operation nested).read
    if ← accept .equal then
      let value ← nested.read
      return .assign target value
    else
      return target
  shortens := by
    refine ((operation nested).shortens.bind fun target => (keeps_accept _).bind ?_).within _
    rintro (_ | _)
    · exact keeps_pure _
    · exact nested.shortens.keeps.bind fun _ => keeps_pure _

/-- **An expression** in which expressions are nested at most `levels` deep, itself counted. -/
def expression : (levels : Nat) → Parser Expr
  | 0 => ⟨within .expression (fail .tooDeep), (shortens_fail _).within _⟩
  | levels + 1 =>
    ⟨within .expression (assignment (expression levels)).read,
      (assignment (expression levels)).shortens.within _⟩

/-! ### Statements -/

/-- A declaration after its keyword. Only a constant has to be given a value; what is declared
without one gets `null`. -/
def declaration (constant : Bool) : Reader Stmt := within .declaration do
  let name ← identifier
  if ← accept .equal then
    let value ← nested.read
    return .declare constant name value
  else if constant then
    fail (.missingConstInitializer name)
  else
    return .declare constant name .null

/-- A print statement after its keyword. -/
def printStatement : Reader Stmt := within .printStatement do
  expect .leftParen
  let value ← nested.read
  expect .rightParen
  return .print value

theorem keeps_declaration (constant : Bool) : (declaration nested constant).Keeps := by
  refine (shortens_identifier.keeps.bind fun name => (keeps_accept _).bind ?_).within _
  rintro (_ | _)
  · cases constant
    · exact keeps_pure _
    · exact (shortens_fail _).keeps
  · exact nested.shortens.keeps.bind fun _ => keeps_pure _

theorem keeps_printStatement : (printStatement nested).Keeps :=
  ((shortens_expect _).keeps.bind fun _ => nested.shortens.keeps.bind fun _ =>
    (shortens_expect _).keeps.bind fun _ => keeps_pure _).within _

/-- An expression as a statement. -/
def expressionStatement : Reader Stmt := do
  let value ← nested.read
  return .expression value

/-- A statement without its semicolon, told apart by its keyword. -/
def statementRead : Reader Stmt
  | [] => expressionStatement nested []
  | t :: ts =>
    if t.kind = .declaration then declaration nested (t.text = "const") ts
    else if t.kind = .print then printStatement nested ts
    else expressionStatement nested (t :: ts)

theorem keeps_statementRead : (statementRead nested).Keeps := by
  have keeps : (expressionStatement nested).Keeps :=
    nested.shortens.keeps.bind fun _ => keeps_pure _
  intro ts s rest h
  cases ts with
  | nil => exact keeps h
  | cons t ts =>
    simp only [statementRead] at h
    split at h
    · exact Nat.le_succ_of_le (keeps_declaration nested _ h)
    · split at h
      · exact Nat.le_succ_of_le (keeps_printStatement nested h)
      · exact keeps h

/-- A statement and its semicolon. -/
def statement : Parser Stmt where
  read := within .statement do
    let s ← statementRead nested
    expect .semicolon
    return s
  shortens := ((keeps_statementRead nested).bind_shortens fun _ =>
    (shortens_expect _).bind fun _ => keeps_pure _).within _

/-- A statement of a program, which must not run out of tokens before the end of input. -/
def programStatement : Parser Stmt where
  read
    | [] => fail (.expected .endOfInput) []
    | t :: ts => (statement nested).read (t :: ts)
  shortens ts s rest h := by
    cases ts with
    | nil => cases h
    | cons t ts => exact (statement nested).shortens h

/-- Statements up to the end of input. -/
def program : Reader Program :=
  within .program (itemsBefore .endOfInput (programStatement nested))

end Grammar

/-- **The program that a list of tokens stands for,** up to its first end of input. -/
def parse (tokens : List Token) : Except ParseError Program :=
  (Grammar.program (Grammar.expression maxNesting) tokens).map Prod.fst

/-- Tokens are refused with what reading a program fails with. -/
theorem parse_eq_error {tokens : List Token} {e : ParseError} :
    parse tokens = .error e ↔
      Grammar.program (Grammar.expression maxNesting) tokens = .error e := by
  rw [parse]
  cases Grammar.program (Grammar.expression maxNesting) tokens with
  | ok result => constructor <;> rintro ⟨⟩
  | error e' => exact ⟨fun h => congrArg Except.error (Except.error.inj h), congrArg (Except.map _)⟩

end ScriptLang

import ScriptLang.Evaluation.Basic
import ScriptLang.Grammar.Parser
import ScriptLang.Token.OfSegments

/-!
# Scripts

A script is a program as text. Reading one goes from characters to tokens and from tokens to a
program, and running one starts with reading it.
-/

namespace ScriptLang

/-- Why a script was not run to its end. -/
inductive ScriptError where
  | lexical (e : LexicalError)
  | grammatical (e : ParseError)
  | execution (e : ExecutionError)

/-- The error in words. -/
def ScriptError.message : ScriptError → String
  | lexical e => e.message
  | grammatical e => e.message
  | execution e => e.message

/-- **The program that a script spells,** or why it spells none. -/
def readProgram (source : String) : Except ScriptError Program := do
  let tokens ← (tokenize source).mapError .lexical
  (parse tokens).mapError .grammatical

/-- **Reads a script and runs it in a scope.** A script that spells no program changes nothing. -/
def runScript (s : ScopeId) (source : String) : EStateM ScriptError Machine Value := fun m =>
  match readProgram source with
  | .error e => .error e m
  | .ok p => (run s p).adaptExcept .execution m

end ScriptLang

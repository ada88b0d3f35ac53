import ScriptLang.Script
import ScriptLang.Text.Utf8
import ScriptLang.Text.WhiteSpace

/-!
# Commands

What the commands write, and the status they end with, as functions of what they read. A file can
be run, or listed as its tokens or as its program; without a file scripts are read line by line in
a dialogue that keeps its state.

* `FileCommand.perform` — a command on the contents of a file.
* `Dialogue.converse` — a whole dialogue.
-/

namespace ScriptLang

/-- What a command writes to its two outputs, and the status it ends with. -/
structure Transcript where
  out : String
  err : String
  status : UInt8
deriving DecidableEq, Repr

/-- Ends with an error, which goes to the second output. -/
def Transcript.failure (out warnings message : String) : Transcript :=
  ⟨out, warnings ++ message ++ "\n", 1⟩

/-! ### Warnings -/

/-- The warning about a character that belongs to no token. -/
def SkippedCharacter.warning (c : SkippedCharacter) : String :=
  "warning: unrecognised character " ++ Escaped.quoted '\'' [c.character] ++ " at " ++
    toString c.span ++ "\n"

/-- The warnings about a script. A script without tokens has none. -/
def warnings (source : String) : String :=
  match tokenize source with
  | .error _ => ""
  | .ok _ => String.join ((skippedCharacters source).map SkippedCharacter.warning)

/-! ### Listings -/

/-- The text with blanks in front of it, to be at least `width` characters wide. -/
def padLeft (width : Nat) (s : String) : String := "".pushn ' ' (width - s.length) ++ s

/-- The text with blanks behind it, to be at least `width` characters wide. -/
def padRight (width : Nat) (s : String) : String := s.pushn ' ' (width - s.length)

/-- The listing of tokens after a token on the line `line`, one token a row. The first token of a
line is marked with the number of its line. -/
def listingAfter (line : Nat) : List Token → String
  | [] => ""
  | t :: ts =>
    (if t.span.first.line = line then "   | "
      else padLeft 4 (toString t.span.first.line) ++ " ") ++
    padRight 14 t.kind.name ++ " " ++ t.text ++ "\n" ++ listingAfter t.span.first.line ts

/-- The listing of the tokens of a script. -/
def listing (ts : List Token) : String := listingAfter 0 ts

/-! ### Commands on a file -/

/-- What can be done with a file. -/
inductive FileCommand where
  | run
  | tokens
  | ast
deriving DecidableEq, Repr

/-- Why a file cannot be read. -/
inductive ReadFailure where
  | missing
  | notText
  | other (reason : String)
deriving DecidableEq, Repr

/-- The failure in words. -/
def ReadFailure.message : ReadFailure → String
  | missing => "No such file or directory (os error 2)"
  | notText => "stream did not contain valid UTF-8"
  | other reason => reason

/-- The text that was read, given its bytes. -/
def readText (bytes : ByteArray) : Except ReadFailure String :=
  match String.fromUTF8? bytes with
  | none => .error .notText
  | some text => .ok text

namespace FileCommand

/-- Performs a command on a script. -/
def performOn (c : FileCommand) (source : String) : Transcript :=
  let warnings := warnings source
  match c with
  | run =>
    match runScript Environment.root source (.initial none) with
    | .ok _ m => ⟨Utf8.decode m.sink.written, warnings, 0⟩
    | .error e m => .failure (Utf8.decode m.sink.written) warnings e.message
  | tokens =>
    match tokenize source with
    | .ok ts => ⟨listing ts, warnings, 0⟩
    | .error e => .failure "" warnings e.message
  | ast =>
    match readProgram source with
    | .ok p => ⟨p.render, warnings, 0⟩
    | .error e => .failure "" warnings e.message

/-- **Performs a command on the file of the given name,** given what reading its bytes gave. -/
def perform (c : FileCommand) (name : String) (bytes : Except ReadFailure ByteArray) :
    Transcript :=
  match bytes >>= readText with
  | .error e => .failure "" "" ("Could not read " ++ name ++ ": " ++ e.message)
  | .ok source => c.performOn source

end FileCommand

/-! ### Dialogues -/

namespace Dialogue

/-- What a dialogue starts with. -/
def greeting : String :=
  "Welcome to the tinyscript REPL!\nEOF to exit. (Ctrl+D on *nix, Ctrl+Z on Windows)\n"

/-- What asks for a line. -/
def prompt : String := "> "

/-- How a dialogue ends at a line that is no text. -/
def notText : Transcript := .failure "" "" ("IO error: " ++ ReadFailure.notText.message)

/-- The answer to a line, which is run as a script without the white space around it: what it
prints, then its value, if that is not `null`, or its error. -/
def answer (line : String) (m : Machine) : Transcript × Machine :=
  let source := String.ofList (trimWhiteSpace line.toList)
  match runScript Environment.root source { m with sink := .empty none } with
  | .ok .null m => (⟨Utf8.decode m.sink.written, warnings source, 0⟩, m)
  | .ok v m => (⟨Utf8.decode m.sink.written ++ m.heap.text v ++ "\n", warnings source, 0⟩, m)
  | .error e m =>
    (⟨Utf8.decode m.sink.written ++ "Error: " ++ e.message ++ "\n", warnings source, 0⟩, m)

/-- The dialogue over the given lines, from a state that earlier lines left. -/
def continueWith (m : Machine) : List (List UInt8) → Transcript
  | [] => ⟨prompt, "", 0⟩
  | line :: lines =>
    match readText ⟨line.toArray⟩ with
    | .error _ => ⟨prompt ++ notText.out, notText.err, notText.status⟩
    | .ok text =>
      let (reply, m) := answer text m
      let following := continueWith m lines
      ⟨prompt ++ reply.out ++ following.out, reply.err ++ following.err, following.status⟩

/-- **A whole dialogue,** given all that is typed. -/
def converse (input : ByteArray) : Transcript :=
  let t := continueWith (.initial none) (Utf8.lines input.toList)
  { t with out := greeting ++ t.out }

end Dialogue

end ScriptLang

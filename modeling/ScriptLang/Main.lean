import ScriptLang.CommandLine

/-!
# The command line

Reads files and lines, and writes what the commands answer.
-/

namespace ScriptLang

/-- The bytes of a file, or why they cannot be read. -/
def readBytes (name : String) : IO (Except ReadFailure ByteArray) := do
  try
    return .ok (← IO.FS.readBinFile name)
  catch
    | .noFileOrDirectory .. => return .error .missing
    | e => return .error (.other (toString e))

/-- Writes what a command wrote, and gives its status. -/
def Transcript.emit (t : Transcript) : IO UInt32 := do
  IO.eprint t.err
  IO.print t.out
  (← IO.getStdout).flush
  return t.status.toUInt32

/-- Reads the bytes of a line up to its line feed, after those read already. At the end of the
input there are none. -/
partial def readLine (input : IO.FS.Stream) (bytes : ByteArray) : IO ByteArray := do
  let next ← input.read 1
  if next.isEmpty then return bytes
  else if next.toList = [10] then return bytes ++ next
  else readLine input (bytes ++ next)

/-- Asks for a line and answers it, until the input ends. -/
partial def hold (m : Machine) : IO UInt32 := do
  IO.print Dialogue.prompt
  (← IO.getStdout).flush
  let line ← readLine (← IO.getStdin) .empty
  if line.isEmpty then return 0
  match readText line with
  | .error _ => Dialogue.notText.emit
  | .ok text =>
    let (reply, m) := Dialogue.answer text m
    let _ ← reply.emit
    hold m

/-- Performs a command on a file. -/
def onFile (c : FileCommand) (name : String) : IO UInt32 := do
  (c.perform name (← readBytes name)).emit

/-- Without arguments, a dialogue; else a command and, unless that is the dialogue, a file. -/
def dispatch (args : List String) : IO UInt32 := do
  match args with
  | [] | ["repl"] =>
    IO.print Dialogue.greeting
    hold (.initial none)
  | ["run", name] => onFile .run name
  | ["tokens", name] => onFile .tokens name
  | ["ast", name] => onFile .ast name
  | _ =>
    IO.eprintln "usage: [run FILE | tokens FILE | ast FILE | repl]"
    return 2

end ScriptLang

/-- Runs the command that the arguments name. -/
def main (args : List String) : IO UInt32 := ScriptLang.dispatch args

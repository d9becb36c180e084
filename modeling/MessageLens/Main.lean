import MessageLens.Command.Run

/-!
# The program

The files of the workspace are those whose paths stand on standard input, one a line; a path that
leads to no file is one at which a file may yet appear. Relative paths are read from the working
directory. The arguments name the command.
-/

namespace MessageLens
set_option autoImplicit false

/-- How the program is used. -/
def usageText : String :=
  "usage: message-lens annotate PATH [--json]\n" ++
  "       message-lens hover PATH LINE COLUMN\n" ++
  "       message-lens check PATH\n" ++
  "       message-lens watch PATH [--interval SECONDS] [--max-polls N]\n" ++
  "each with [--config FILE] [--locale LOCALE] [-v]; the files are listed on standard input\n"

/-- Reads the lines of a stream to its end. -/
partial def readLines (stream : IO.FS.Stream) : IO (List String) := do
  let line ← stream.getLine
  if line.isEmpty then return []
  let text := String.ofList (line.toList.reverse.dropWhile (· == '\n')).reverse
  return text :: (← readLines stream)

/-- Looks at files again. -/
def lookAgain (files : List String) (w : Workspace) : IO Workspace :=
  files.foldlM (fun (w : Workspace) (file : String) => do
    let content ← try pure (some (← IO.FS.readBinFile file)) catch _ => pure none
    return w.observe (Path.parse file) (content.map (·.toList))) w

/-- The workspace before any look at its files. -/
def surroundings : IO Workspace := do
  let current := Path.parse ((← IO.getEnv "PWD").getD "/")
  let home := Path.parse ((← IO.getEnv "HOME").getD "/")
  let w : Workspace := { current := current.parts, home := home }
  return (w.apply (.makeDirectory current)).toOption.getD w

/-- Writes what a session has logged, which is then forgotten. -/
def flushLog (a : Arguments) (s : CommandSession) : IO CommandSession := do
  IO.eprint (Command.logText a s)
  return { s with events := [] }

/-- Ends the program before its time. -/
def stop (a : Arguments) (e : CommandStop) (s : CommandSession) : IO UInt32 := do
  discard (flushLog a s)
  match e with
  | .told c =>
    IO.eprint c.text
    return c.code.toUInt32
  | .failed e =>
    IO.eprint e.text
    return 1

/-- The milliseconds between polls. -/
def pauseLength : Slot ExtendedReal → UInt32
  | .filled seconds => (seconds.toFloat * 1000).toUInt32
  | .leftOpen => 0

/-- Polls after every pause until the limit is reached. -/
partial def follow (a : Arguments) (files : List String) (ids : List Handle) (limit : Option Nat)
    (s : CommandSession) : IO UInt32 := do
  if limit = some 0 then return 0
  IO.sleep (pauseLength a.interval)
  let w ← lookAgain files s.workspace
  match Command.pollOnce ids { s with workspace := w } with
  | .error e s => stop a e s
  | .ok text s =>
    IO.print text
    follow a files ids (limit.map (· - 1)) (← flushLog a s)

end MessageLens

open MessageLens in
/-- Runs the command that the arguments name. -/
def main (words : List String) : IO UInt32 := do
  match Arguments.ofWords words with
  | .error .helpWanted =>
    IO.print usageText
    return 0
  | .error .refused =>
    IO.eprint usageText
    return 2
  | .ok a =>
    let files ← readLines (← IO.getStdin)
    let w ← lookAgain files (← surroundings)
    match Command.report a (Command.initialSession w) with
    | .error e s => stop a e s
    | .ok r s =>
      let s ← flushLog a s
      IO.print r.output
      if a.command = .watch then
        match Command.pollLimit a s with
        | .error e s => stop a e s
        | .ok limit s => follow a files r.buffers limit s
      else return r.code.toUInt32

import ShapeGrammar.Command
/-!
# The command line

`shapegrammar validate SCRIPT [--seed N]` prints a summary of a script and of a bounded
build; `shapegrammar build SCRIPT OUTPUT [--seed N]` writes the settings and objects of a
build as a JSON document. Without `--seed` the seed is taken from the clock. Warnings go
to the error stream as log lines.
-/

open ShapeGrammar

/-- The directory part of a path, or the empty text when it has none. -/
def parentOf (path : String) : String :=
  let cs := path.toList
  match (cs.reverse.dropWhile (· != '/')) with
  | [] => ""
  | _ :: before => String.ofList before.reverse

/-- The message of a failed file operation on `path`. -/
def fileMessage (path : String) (e : IO.Error) : String :=
  match e with
  | .noFileOrDirectory _ _ _ => Command.fileError 2 "No such file or directory" path
  | .permissionDenied _ _ _ => Command.fileError 13 "Permission denied" path
  | .alreadyExists _ _ _ => Command.fileError 17 "File exists" path
  | .inappropriateType _ _ _ => Command.fileError 21 "Is a directory" path
  | e => "File error: " ++ toString e ++ "\n"

/-- Read a script file as text. -/
def readScript (path : String) : IO (Except String String) := do
  try
    let bytes ← IO.FS.readBinFile path
    match String.fromUTF8? bytes with
    | some text => return .ok text
    | none => return .error ("Script error: Script " ++ path ++ " is not valid UTF-8\n")
  catch e =>
    return .error (fileMessage path e)

/-- Run a command and give its exit status. -/
def runCommand (inv : Command.Invocation) : IO UInt32 := do
  let stdout ← IO.getStdout
  let stderr ← IO.getStderr
  let path := match inv with
    | .validate p _ => p
    | .build p _ _ => p
  match ← readScript path with
  | .error msg =>
    stderr.putStr msg
    return 2
  | .ok script =>
    let clock ← IO.monoMsNow
    let seedOr (s : Option Int) : Int := s.getD (Int.ofNat (clock % 4294967296))
    let r := match inv with
      | .validate _ s => Command.validate script (seedOr s)
      | .build _ _ s => Command.build script (seedOr s)
    for n in r.notices do
      stderr.putStrLn n.line
    stdout.putStr r.stdout
    stderr.putStr r.stderr
    match r.crash with
    | some f =>
      stderr.putStrLn (f.message)
      return 1
    | none => pure ()
    match inv, r.document with
    | .build _ out _, some doc =>
      try
        let dir := parentOf out
        if !dir.isEmpty then IO.FS.createDirAll dir
        IO.FS.writeFile out (doc.pretty .bare 0 ++ "\n")
      catch e =>
        stderr.putStr (fileMessage out e)
        return 2
    | _, _ => pure ()
    return r.exit.toUInt32

/-- The program: read the arguments, run the command. -/
def main (args : List String) : IO UInt32 := do
  match Command.parseArgs args with
  | .ok inv => runCommand inv
  | .error msg =>
    let stderr ← IO.getStderr
    stderr.putStr Command.usage
    stderr.putStrLn ("error: " ++ msg)
    return 2

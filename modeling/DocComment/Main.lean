import DocComment.Command.Basic

/-!
The program. It reads the files a request names, prints the answer, and writes what was
logged to the error stream.
-/

namespace DocComment.Command

/-- What stands under a name. A name that cannot be read as text counts as a folder. -/
def entryAt (name : String) : IO Entry :=
  tryCatch (return .file (← IO.FS.readFile name)) fun e =>
    match e with
    | .noFileOrDirectory .. => return .missing
    | _ => return .folder

def levelName : Level → String
  | .debug => "DEBUG"
  | .warning => "WARNING"

def execute (request : Request) : IO Answer := do
  let entries ← request.files.mapM fun name => return (name, ← entryAt name)
  return request.run fun name => (entries.lookup name).getD .missing

end DocComment.Command

open DocComment.Command in
def main (args : List String) : IO UInt32 := do
  let answer ← match Request.ofArgs args with
    | none => do
      IO.eprint (DocComment.Report.Page.text helpPage)
      pure Answer.misuse
    | some request => execute request
  for entry in answer.log do
    IO.eprintln (levelName entry.level ++ " | " ++ entry.message)
  IO.print answer.output
  if let some e := answer.fault then IO.eprintln e.message
  return UInt32.ofNat answer.exitCode

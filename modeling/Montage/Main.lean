import Montage.CommandLine.Perform

/-!
# The command line

The program reads what is stored below the working directory, does what its arguments ask for in a
session, and writes back what has changed. Programs outside cannot be started from here: every
start of the renderer finds it missing, and so does every inspection.

## Main definitions

* `main`: the program.
-/

namespace Montage.CommandLine

/-- The environment variables that settings come from. -/
def settingVariables : List String :=
  ["VEDIT_FFMPEG_PATH", "VEDIT_FFPROBE_PATH", "FFMPEG_TIMEOUT_SECONDS", "VEDIT_CLOUD_NAME",
    "CLOUDINARY_CLOUD_NAME", "VEDIT_TEMP_DIR", "VEDIT_DEBUG"]

/-- The variables that are set. -/
def environment : IO Fields :=
  settingVariables.filterMapM fun name => do
    return (← IO.getEnv name).map fun value => (name, Value.string value)

/-- The largest file whose text is read, in bytes. Of a larger one it only matters that it is
there. -/
def maxText : UInt64 := 1048576

/-- The files and directories below the working directory. What is no text is taken for empty. -/
def storedFiles : IO Storage := do
  let root ← IO.currentDir
  let mut files := #[]
  for path in ← root.walkDir do
    let relative := Path.ofString ((path.toString.drop (root.toString.length + 1)).toString)
    let info ← path.metadata
    let entry ← match info.type with
      | .dir => pure Entry.directory
      | _ =>
        if maxText < info.byteSize then pure (Entry.text "")
        else
          try pure (Entry.text (← IO.FS.readFile path))
          catch _ => pure (Entry.text "")
    files := files.push (relative, entry)
  return .ofList files.toList

/-- Write a file below the working directory. -/
def storeFile (file : String × String) : IO Unit := do
  let place := (Path.ofString file.1).parts
  IO.FS.createDirAll ("/".intercalate ("." :: place.dropLast))
  IO.FS.writeFile file.1 file.2

/-- An entry of the journal in writing. -/
def journalLine (e : JournalEntry) : String :=
  e.source ++ " - " ++ (match e.level with | .warning => "WARNING" | .error => "ERROR") ++ " - " ++
    e.text

/-- Do what the arguments ask for. -/
def runProgram (args : List String) : IO UInt32 := do
  let before ← storedFiles
  let session := { Session.of before [] [] with further := .missing }
  let (status, after) := (run args (← environment)).run.run session
  (after.files.writtenSince before).forM storeFile
  (after.files.removedSince before).forM fun path => IO.FS.removeFile path
  after.journal.forM fun e => IO.eprintln (journalLine e)
  IO.print after.printed
  match status with
  | .ok n => return n.toUInt32
  | .error f =>
    IO.eprintln (Json.pages (.object f.report))
    return 1

end Montage.CommandLine

/-- The program: its status is that of the task. -/
def main (args : List String) : IO UInt32 := Montage.CommandLine.runProgram args

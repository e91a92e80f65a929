import HostAbi.Command.Run

/-!
# The program

Does with real files and streams what `runCommand` does with a tree of files.
-/

namespace HostAbi

/-- The wording for an error number of the system, which may come negated. -/
def osWording (code : UInt32) (details : String) : String :=
  let number := min code.toNat (-code).toNat
  if number = 2 then OsError.notFound.message
  else if number = 20 then OsError.notDirectory.message
  else if number = 21 then OsError.isDirectory.message
  else details ++ " (os error " ++ number.repr ++ ")"

/-- What the system says against opening a file. -/
def osReason : IO.Error → String
  | .noFileOrDirectory _ code details => osWording code details
  | .inappropriateType _ code details => osWording code details
  | .permissionDenied _ code details => osWording code details
  | .resourceExhausted _ code details => osWording code details
  | .invalidArgument _ code details => osWording code details
  | .otherError code details => osWording code details
  | e => toString e

/-- Shows what is wrong with a file, and gives the exit code of a run that failed. -/
def reportError (e : FileError) : IO UInt32 := do
  IO.eprint e.report
  return 1

/-- Does with streams and files what `Answer.deliver` does with a tree. The trace comes first, so it
is seen even if the document cannot be written. -/
def showAnswer (a : Answer) : IO UInt32 := do
  IO.eprint a.trace
  match a.out with
  | none =>
    IO.print a.document
    return a.exitCode.toUInt32
  | some path =>
    try
      IO.FS.writeFile path a.document
      return a.exitCode.toUInt32
    catch e => reportError (.writing path (osReason e))

/-- Does what `runCommand` does, on the files of the system. Nothing is said about words that are no
texts. -/
def runWords (words : List String) : IO UInt32 := do
  match Request.ofWords words with
  | .error s =>
    IO.print s.stdout
    IO.eprint s.stderr
    return s.exitCode.toUInt32
  | .ok (.verify v) => showAnswer v.answer
  | .ok (.audit a) =>
    let bytes ← try pure (Except.ok (← IO.FS.readBinFile a.path)) catch e => pure (Except.error e)
    match bytes with
    | .ok bytes => showAnswer (a.answer bytes.data.toList)
    | .error e => reportError (.reading a.path (osReason e))

end HostAbi

def main (words : List String) : IO UInt32 := HostAbi.runWords words

import EventTrace.CommandLine.Command
/-! The command line. It only carries out what the command asks for. -/
namespace EventTrace.CommandLine

def systemReason (e : IO.Error) : String :=
  match e with
  | .noFileOrDirectory _ code details => s!"{details} (os error {code})"
  | .permissionDenied _ code details => s!"{details} (os error {code})"
  | .inappropriateType _ code details => s!"{details} (os error {code})"
  | .alreadyExists _ code details => s!"{details} (os error {code})"
  | .resourceExhausted _ code details => s!"{details} (os error {code})"
  | .otherError code details => s!"{details} (os error {code})"
  | e => toString e

def attempt {α : Type} (work : IO α) : IO (Except String α) := do
  try pure (.ok (← work)) catch e => pure (.error (systemReason e))

def obstacle (work : IO Unit) : IO (Option String) := do
  match ← attempt work with
  | .ok () => pure none
  | .error reason => pure (some reason)

def readAll (path : String) : IO ByteArray := do
  let file ← IO.FS.Handle.mk path .read
  file.readBinToEnd

def append (path : String) (bytes : List UInt8) : IO Unit := do
  let file ← IO.FS.Handle.mk path .append
  file.write ⟨bytes.toArray⟩

def Script.execute {α : Type} (logs : Log.Entry → Bool) : Script α → IO (Except Failure α)
  | .done result => pure result
  | .log entries rest => do
    (entries.filter logs).forM fun e => IO.eprintln e.line
    rest.execute logs
  | .read path next => do
    let answer ← attempt (readAll path)
    (next (answer.map (·.toList))).execute logs
  | .create path next => do
    let answer ← obstacle (IO.FS.writeBinFile path .empty)
    (next answer).execute logs
  | .write none bytes next => do
    let out ← IO.getStdout
    let answer ← obstacle (out.write ⟨bytes.toArray⟩)
    (next answer).execute logs
  | .write (some path) bytes next => do
    let answer ← obstacle (append path bytes)
    (next answer).execute logs

end EventTrace.CommandLine

open EventTrace.CommandLine in
def main (args : List String) : IO UInt32 := do
  match Options.ofArguments args with
  | .error .version => IO.println versionLine; pure 0
  | .error .help => usage.forM IO.println; pure 0
  | .error .refused => IO.eprintln "error: arguments not understood, see --help"; pure 2
  | .ok o =>
    let ending := Ending.ofResult (← (command o).execute o.logs)
    ending.lines.forM IO.eprintln
    pure (UInt32.ofNat ending.code)

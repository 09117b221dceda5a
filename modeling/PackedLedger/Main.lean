import PackedLedger.Command.Run
import Std.Time.DateTime.Timestamp

namespace PackedLedger

/-!
# The program

Commands put their questions to the operating system.  The working directory
is where relative paths lead.
-/

namespace Command

/-- The fault that an operating-system error stands for. -/
def FileFault.ofError : IO.Error -> FileFault
  | .noFileOrDirectory .. | .noSuchThing .. => .missing
  | .permissionDenied .. => .denied
  | .inappropriateType _ code details | .alreadyExists _ code details =>
    if code = 21 then .isDirectory
    else if code = 20 then .notDirectory
    else .other s!"{details} (os error {code})"
  | .userError _ => .notText
  | error => .other (toString error)

/-- Answer the questions of a dialogue from the operating system. -/
def Dialogue.perform {Result : Type} : Dialogue Result -> IO Result
  | .done result => return result
  | .variable name next => do (next (← IO.getEnv name)).perform
  | .now next => do
    let now ← Std.Time.Timestamp.now
    (next now.toSecondsSinceUnixEpoch.val.toNat).perform
  | .read path next => do
    let text ← (IO.FS.readFile path).toBaseIO
    (next (text.mapError FileFault.ofError)).perform
  | .present path next => do
    let found ← (IO.FS.Handle.mk path .read).toBaseIO
    let present := match found with
      | .ok _ => true
      | .error error => FileFault.ofError error != .missing
    (next present).perform
  | .write path text next => do
    match ← (IO.FS.writeFile path text).toBaseIO with
    | .ok () => (next none).perform
    | .error error => (next (some (FileFault.ofError error))).perform

end Command

end PackedLedger

open PackedLedger in
def main (arguments : List String) : IO UInt32 := do
  let response ← (Command.run arguments).perform
  IO.print response.output
  IO.eprint response.errors
  return UInt32.ofNat response.status

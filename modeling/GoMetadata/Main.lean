import GoMetadata.CommandLine

/-!
The program on a real machine. It has no means to start other programs, so every start is answered
as that of a program that is not there.
-/

namespace GoMetadata.Machine

def systemErrorOf (path : Path) : IO.Error → SystemError
  | .noFileOrDirectory .. => .missing (Text.quoted path.text)
  | .permissionDenied .. => .notPermitted (Text.quoted path.text)
  | .inappropriateType _ code _ =>
    if code = 20 then .notDirectory (Text.quoted path.text)
    else .isDirectory (Text.quoted path.text)
  | error => .plain (toString error)

def attempt {α : Type} (path : Path) (action : String → IO α) : IO (Except Refusal α) := do
  if path.hasNul then return .error .nulCharacter
  try
    return .ok (← action path.text)
  catch error => return .error (.failed (systemErrorOf path error))

def reserveLog (directory : Option Path) : IO (Except Refusal Path) := do
  let number ← IO.rand 0 (Nat.pow 2 60)
  let log := (directory.getD Host.logDirectory).join (.ofText (Host.logName number))
  attempt log fun text => do
    IO.FS.writeFile text ""
    return log

def reply : (question : Host.Ask) → IO (Host.Reply question)
  | .reserveLog directory => reserveLog directory
  | .start invocation =>
    return .error (if invocation.hasNul then .nulCharacter else .failed invocation.notFound)
  | .read path => attempt path fun text => return (← IO.FS.readBinFile text).toList
  | .removeFile path => discard (attempt path fun text => IO.FS.removeFile text)
  | .print notice => IO.eprint notice.text

def readInput : IO Bytes := do
  let input ← IO.getStdin
  let mut bytes := ByteArray.empty
  repeat
    let chunk ← input.read 65536
    if chunk.isEmpty then break
    bytes := bytes ++ chunk
  return bytes.toList

def readEnvironment : IO Environment := do
  let found ← Settings.variableNames.mapM fun name => return (name, ← IO.getEnv name)
  return found.filterMap fun (name, value) => value.map fun value => (name, value)

end GoMetadata.Machine

open GoMetadata in
def main (arguments : List String) : IO UInt32 := do
  let base := Path.ofText (← IO.currentDir).toString
  let session := CommandLine.run none base (← Machine.readEnvironment) arguments
    (← Machine.readInput)
  let ending ← session.holdIn Machine.reply
  IO.print ending.output
  if let some defect := ending.defect then
    IO.eprintln defect.message
  return UInt32.ofNat ending.exitCode

import GoMetadata.Dialogue
import GoMetadata.Error
import GoMetadata.FileTree

/-!
What a run asks of the machine that it runs on: to start programs, to keep event logs in files of
their own, to read files, and to show notices. The diagnostics are no terminal, so control sequences
are left out of what is shown.
-/

namespace GoMetadata

inductive Notice where
  | forwarded (text : String)
  | progress (text : String)
  | failure (text : String)
  deriving DecidableEq, Repr

namespace Notice

def isParameter (c : Char) : Bool :=
  c == ';' || c == '?' || c.isDigit

/-- What follows a control sequence at the head of a text: an escape, a bracket, parameters and a
letter. -/
def afterSequence? : List Char → Option (List Char)
  | '\x1b' :: '[' :: rest =>
    match rest.dropWhile isParameter with
    | c :: rest => if c.isAlpha then some rest else none
    | [] => none
  | _ => none

theorem length_dropWhile_le (holds : Char → Bool) (text : List Char) :
    (text.dropWhile holds).length ≤ text.length :=
  (List.dropWhile_sublist holds).length_le

theorem length_lt_of_afterSequence? {text rest : List Char}
    (found : afterSequence? text = some rest) : rest.length < text.length := by
  unfold afterSequence? at found
  split at found
  next tail =>
    have shorter := length_dropWhile_le isParameter tail
    split at found
    next c more same =>
      split at found
      · cases found
        simp only [same, List.length_cons] at shorter ⊢
        omega
      · cases found
    next => cases found
  next => cases found

def plain (text : List Char) : List Char :=
  match _found : afterSequence? text with
  | some rest => plain rest
  | none =>
    match text with
    | [] => []
    | c :: rest => c :: plain rest
termination_by text.length
decreasing_by
  · exact length_lt_of_afterSequence? _found
  · simp

def heading : String := "gopackagesdriver: "

def line (message : String) : String :=
  String.ofList (plain message.toList ++ ['\n'])

def closedLine (message : String) : String :=
  if message.toList.getLast? = some '\n' then String.ofList (plain message.toList)
  else line message

def text : Notice → String
  | forwarded message => closedLine message
  | progress message => closedLine (heading ++ message)
  | failure message => line (heading ++ message)

def isShown (verbose : Bool) : Notice → Bool
  | progress _ => verbose
  | _ => true

end Notice

/-! Questions to the machine -/

structure Invocation where
  command : List String
  directory : Option Path := none
  /-- Whether what the program says goes on to the diagnostics at once; else it is kept. -/
  streams : Bool := false
  deriving DecidableEq, Repr

def Invocation.hasNul (invocation : Invocation) : Bool :=
  invocation.command.any (·.toList.contains '\x00') || invocation.directory.any Path.hasNul

def Invocation.notFound (invocation : Invocation) : SystemError :=
  .missing (Text.quoted (invocation.command.headD ""))

structure Finished where
  exitCode : Int := 0
  output : Option String := none
  errors : Option String := none
  deriving DecidableEq, Repr

namespace Host

def logPrefix : String := "gopackagesdriver-bazel-bep-"

def logSuffix : String := ".bin"

def logName (number : Nat) : String :=
  logPrefix ++ toString number ++ logSuffix

def logDirectory : Path := .ofText "/tmp"

inductive Ask where
  | reserveLog (directory : Option Path)
  | start (invocation : Invocation)
  | read (path : Path)
  | removeFile (path : Path)
  | print (notice : Notice)
  deriving DecidableEq, Repr

abbrev Reply : Ask → Type
  | .reserveLog _ => Except Refusal Path
  | .start _ => Except Refusal Finished
  | .read _ => Except Refusal Bytes
  | .removeFile _ => Unit
  | .print _ => Unit

end Host

abbrev HostExchange := Exchange Host.Ask Host.Reply

namespace Host

def reserveLog (directory : Option Path) : HostExchange (Except Refusal Path) :=
  Exchange.put (Ask.reserveLog directory)

def start (invocation : Invocation) : HostExchange (Except Refusal Finished) :=
  Exchange.put (Ask.start invocation)

def read (path : Path) : HostExchange (Except Refusal Bytes) :=
  Exchange.put (Ask.read path)

def removeFile (path : Path) : HostExchange Unit :=
  Exchange.put (Ask.removeFile path)

def print (notice : Notice) : HostExchange Unit :=
  Exchange.put (Ask.print notice)

end Host

end GoMetadata

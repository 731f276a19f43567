import MonkeyLang.Console.Run

/-!
The command line. Files and standard streams are touched here and nowhere else.
-/
namespace MonkeyLang
namespace Console

/-- What the system says about an error. -/
def describe : IO.Error → String
  | .otherError code details | .resourceBusy code details | .resourceVanished code details
  | .unsupportedOperation code details | .hardwareFault code details
  | .unsatisfiedConstraints code details | .illegalOperation code details
  | .protocolError code details | .timeExpired code details | .interrupted _ code details
  | .noFileOrDirectory _ code details | .alreadyExists _ code details
  | .invalidArgument _ code details | .permissionDenied _ code details
  | .resourceExhausted _ code details | .inappropriateType _ code details
  | .noSuchThing _ code details => systemMessage details code.toNat
  | e => e.toString

def readAll (path : String) : IO ByteArray := do
  (← IO.FS.Handle.mk path .read).readBinToEnd

/-- Looks up what a path names. -/
def lookUp (path : String) : IO Entity := do
  match ← (readAll path).toBaseIO with
  | .ok content => return .file content.toList
  | .error e => return .failing (describe e)

/-- Reads up to the end of a line or of the stream. -/
partial def readLine (stream : IO.FS.Stream) (before : Array UInt8) : IO Bytes := do
  let chunk ← stream.read 1
  let line := before ++ chunk.data
  if chunk.isEmpty || chunk.data.back? = some 10 then return line.toList
  readLine stream line

/-- The next line of a stream, if there is one. -/
def nextLine (stream : IO.FS.Stream) : IO (Option (Except ReadError String)) := do
  match ← (readLine stream #[]).toBaseIO with
  | .ok line => return (lines line).head?.map Bytes.decode
  | .error e => return some (.error (.system (describe e)))

/-- Writes the last of a run. -/
def finish (out : Output) : IO UInt32 := do
  (← IO.getStdout).putStr out.stdout
  (← IO.getStderr).putStr out.stderr
  return UInt32.ofNat out.exit

/-- Takes turns with a stream as its lines come in. -/
partial def converseLive (mode : Mode) (stdin stdout : IO.FS.Stream) : IO UInt32 := do
  stdout.putStr prompt
  stdout.flush
  match turn mode (← nextLine stdin) with
  | .goesOn answer =>
    stdout.putStr answer
    converseLive mode stdin stdout
  | .ends last => finish last

def main (args : List String) : IO UInt32 := do
  match Request.ofArguments args with
  | .run mode none => converseLive mode (← IO.getStdin) (← IO.getStdout)
  | request =>
    let entity ←
      match request with
      | .run _ (some path) => lookUp path
      | _ => pure .missing
    finish (perform (fun _ => entity) [] request)

end Console
end MonkeyLang

def main (args : List String) : IO UInt32 := MonkeyLang.Console.main args

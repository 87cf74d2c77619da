import Lifeline.Cli.Help
import Lifeline.Cli.Run
import Std.Time.DateTime.Timestamp

/-! The program: reads its input, runs one command, prints what it gives. -/

set_option autoImplicit false

namespace Lifeline.Cli

def systemError : IO.Error → InputError
  | .noFileOrDirectory .. => .notFound
  | error => .system (toString error)

partial def drain (stream : IO.FS.Stream) (bytes : ByteArray) : IO ByteArray := do
  let chunk ← stream.read 65536
  if chunk.isEmpty then return bytes else drain stream (bytes ++ chunk)

def readInput (path : Option String) : IO (Except InputError String) := do
  try
    let bytes ← match path with
      | none | some "-" => drain (← IO.getStdin) .empty
      | some path => IO.FS.readBinFile path
    return decodeInput bytes
  catch error => return .error (systemError error)

def currentTime : IO String := do
  let now ← Std.Time.Timestamp.now
  let nanos := now.toNanosecondsSinceUnixEpoch.val
  return Timestamp.text ⟨Int.fdiv nanos 1000000000, (Int.fmod nanos 1000000000).toNat⟩

def perform (invocation : Invocation) : IO UInt32 := do
  let ending := invocation.run (← currentTime) (← readInput invocation.input)
  IO.print ending.output
  if let some failure := ending.failure then IO.eprintln failure.message
  return ending.status.toUInt32

end Lifeline.Cli

open Lifeline.Cli in
def main (args : List String) : IO UInt32 := do
  match ofArguments false args with
  | .run invocation => perform invocation
  | .version => IO.println versionText; return 0
  | .help full => IO.println (helpText full); return 0
  | .commandHelp command => IO.println (commandHelpText command); return 0
  | .helpHelp => IO.println helpHelpText; return 0
  | .misuse => IO.eprintln (helpText false); return 2

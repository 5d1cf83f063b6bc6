import BehaviorScript.CommandLine
import BehaviorScript.CommandLine.Duration

/-!
# The program

Reading standard input or a file, measuring time and printing.  Everything else is
decided by the modules that this one imports.
-/

namespace BehaviorScript
namespace Program

open CommandLine

def decode (bytes : ByteArray) : Except String String :=
  match String.fromUTF8? bytes with
  | some s => .ok s
  | none => .error "stream did not contain valid UTF-8"

def reasonText : IO.Error -> String
  | .noFileOrDirectory .. => "No such file or directory (os error 2)"
  | .permissionDenied .. => "Permission denied (os error 13)"
  | .inappropriateType .. => "Is a directory (os error 21)"
  | e => toString e

partial def readToEnd (stream : IO.FS.Stream) (before : ByteArray) : IO ByteArray := do
  let bytes ← stream.read 65536
  if bytes.isEmpty then
    return before
  readToEnd stream (before ++ bytes)

def readInput (input : Input) : IO (Except String String) := do
  try
    match input with
    | .stdin => return decode (← readToEnd (← IO.getStdin) .empty)
    | .file path => return decode (← IO.FS.readBinFile path)
  catch e =>
    return .error (reasonText e)

def timed {α : Type} (f : Unit -> α) : IO (α × Nat) := do
  let before ← IO.monoNanosNow
  let a ← IO.lazyPure f
  let after ← IO.monoNanosNow
  return (a, after - before)

def measure (source : String) : IO Timings := do
  let (scanned, lexTime) ← timed fun _ => scan source
  let (parsed, parseTime) ← timed fun _ => Script.ofTokens {} scanned.tokens
  let (resolved, resolveTime) ← timed fun _ => do
    ((← parsed).resolve {}).1
  let (_, buildTime) ← timed fun _ => do
    let registry ← (Registry.builtins Unit {}).mapError fun _ => CompileError.unreadable 0
    (← resolved).1.build {} registry
  let stage := fun name =>
    durationText <|
      if name = "lex" then lexTime
      else if name = "parse" then parseTime
      else if name = "resolve" then resolveTime
      else buildTime
  return ⟨stage, durationText (lexTime + parseTime + resolveTime + buildTime)⟩

def main (args : List String) : IO UInt32 := do
  let stdout ← IO.getStdout
  let stderr ← IO.getStderr
  let color ← stdout.isTty
  let text ← match Arguments.read color args with
    | .error _ => pure (.ok "")
    | .ok a => readInput a.input
  let timings ← measure (text.toOption.getD "")
  let outcome := CommandLine.run color timings (fun _ => text) args
  stdout.putStr outcome.stdout
  stderr.putStr outcome.stderr
  return outcome.exitCode.toUInt32

end Program
end BehaviorScript

def main (args : List String) : IO UInt32 :=
  BehaviorScript.Program.main args

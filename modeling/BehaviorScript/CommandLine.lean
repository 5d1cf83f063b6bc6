import BehaviorScript.CommandLine.Report

/-!
# The command line

The program compiles a script and ticks it if asked to.  It ends with code 0 after a
success, with code 1 after a failed compilation or a fatal fault while ticking, and
with code 2 after a mistake in its arguments or without a script.  If there can be no room for
the rows of a session, it breaks off with code 101 before the first tick.
-/

namespace BehaviorScript
namespace CommandLine

structure Outcome where
  exitCode : Nat
  stdout : String := ""
  stderr : String := ""
  deriving DecidableEq, Repr

def versionText : String :=
  "statescript 0.1.0"

def helpText : String :=
  unlines
    [versionText, "",
      "Compile a behavior script and optionally tick it.", "",
      "Usage:",
      "  statescript [OPTIONS] [<script>]", "",
      "  Reads the script from stdin when <script> is omitted or '-'.", "",
      "Options:",
      "  -t, --ticks <n>            Tick a fresh context n times after compiling.",
      "                             Default: 0 (compile only).",
      "  -s, --send <key@tick>      Deliver message <key> right before tick <tick>.",
      "                             Use key:value@tick to attach a value. Repeatable.",
      "  --color                    Force ANSI color output.",
      "  --no-color                 Disable ANSI color output.",
      "  -h, --help                 Show this help message.",
      "  -V, --version              Print version information.", "",
      "Environment:",
      "  STATESCRIPT_LOG            Log filter (tracing syntax). Default: warn.", "",
      "Exit codes:",
      "  0  Success.",
      "  1  Compile error, or a fatal runtime error while ticking.",
      "  2  Invalid arguments or missing script."]

def UsageError.message : UsageError -> String
  | ticksWithoutValue => "error: --ticks expects a value"
  | sendWithoutValue => "error: --send expects a value"
  | invalidTicks value =>
      s!"error: invalid --ticks '{value}' (expected a non-negative integer)"
  | invalidSend value =>
      s!"error: invalid --send '{value}' (expected key@tick or key:value@tick)"
  | invalidSendTick value => s!"error: invalid tick in --send '{value}'"
  | secondScript => "error: script provided multiple times"
  | unknownOption arg => s!"error: unknown option '{arg}'"
  | neverSent send ticks =>
      s!"error: --send '{send.key}' is scheduled for tick {send.tick} but only {ticks} tick(s) run"
  | unreadableInput .stdin reason => s!"error: failed to read stdin: {reason}"
  | unreadableInput (.file path) reason => s!"error: cannot read '{path}': {reason}"
  | noScript => "error: no script provided\n\n" ++ helpText

def Stop.outcome : Stop -> Outcome
  | help => { exitCode := 0, stdout := unlines [helpText] }
  | version => { exitCode := 0, stdout := unlines [versionText] }
  | mistake e => { exitCode := 2, stderr := unlines [e.message] }

/--
The script to compile.  A script of blank characters only is none.
-/
def readScript (read : Input -> Except String String) (input : Input) : Except UsageError String :=
  match read input with
  | .error reason => .error (.unreadableInput input reason)
  | .ok source => if source.toList.all Text.isBlank then .error .noScript else .ok source

def execute (timings : Timings) (registry : Registry Unit) (a : Arguments) (source : String) :
    Outcome :=
  let p : Palette := ⟨a.color⟩
  match (compile {} registry source).result with
  | .error e => { exitCode := 1, stderr := errorReport p a.input.name source e }
  | .ok b =>
      let compiled := compileReport p timings a.input.name b
      if a.ticks = 0 then { exitCode := 0, stdout := compiled }
      else
        match Session.run b.machine a.ticks a.sends with
        | none => { exitCode := 101, stdout := compiled, stderr := unlines ["capacity overflow"] }
        | some rows =>
            { exitCode := if TickRow.anyFatal rows then 1 else 0
              stdout := compiled ++ tickReport p rows }

/--
The whole program, given how inputs are read, how long a compilation takes, and whether colors
are wanted where no option says so.
-/
def run (color : Bool) (timings : Timings) (read : Input -> Except String String)
    (args : List String) : Outcome :=
  match Arguments.read color args with
  | .error stop => stop.outcome
  | .ok a =>
      match readScript read a.input with
      | .error e => (Stop.mistake e).outcome
      | .ok source =>
          match Registry.builtins Unit {} with
          | .error e => { exitCode := 1, stderr := unlines ["error: " ++ e.message] }
          | .ok registry => execute timings registry a source

end CommandLine
end BehaviorScript

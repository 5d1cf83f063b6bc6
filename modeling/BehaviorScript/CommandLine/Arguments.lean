import BehaviorScript.Value

/-!
# Arguments

The command line takes options and at most one script.  Options are read from left to
right, and the first mistake ends the reading.  Help and version requests are answered
at once, whatever follows them.
-/

namespace BehaviorScript
namespace CommandLine

structure Send where
  key : String
  value : Option Value
  tick : Nat
  deriving DecidableEq, Repr

inductive Input where
  | stdin
  | file (path : String)
  deriving DecidableEq, Repr

namespace Input

def name : Input -> String
  | stdin => "<stdin>"
  | file path => path

end Input

structure Arguments where
  script : Option String := none
  ticks : Nat := 0
  sends : List Send := []
  color : Bool := false
  deriving DecidableEq, Repr

namespace Arguments

/--
The place to read the script from.  A hyphen stands for standard input, and so does no script at
all.
-/
def input (a : Arguments) : Input :=
  match a.script with
  | none => .stdin
  | some path => if path = "-" then .stdin else .file path

end Arguments

inductive UsageError where
  | ticksWithoutValue
  | sendWithoutValue
  | invalidTicks (value : String)
  | invalidSend (value : String)
  | invalidSendTick (value : String)
  | secondScript
  | unknownOption (arg : String)
  | neverSent (send : Send) (ticks : Nat)
  | unreadableInput (input : Input) (reason : String)
  | noScript
  deriving DecidableEq, Repr

inductive Stop where
  | help
  | version
  | mistake (error : UsageError)
  deriving DecidableEq, Repr

/-!
## Values of options
-/

def readTicks (value : String) : Except UsageError Nat :=
  match Number.readCount? value.toList with
  | some n => .ok n
  | none => .error (.invalidTicks value)

/--
The value of the first type that the literal can be read as: whole number, floating-point number,
truth value, and failing all of these text.
-/
def typedValue (literal : String) : Value :=
  ((Literal.toInt? literal).or ((Literal.toFloat? literal).or (Literal.toBool? literal))).getD
    (.text literal)

def isKeyChar (c : Char) : Bool :=
  c != '@' && c != ':' && !Text.isBlank c

/--
The parts of `key@tick` or `key:value@tick`.  The tick is a row of decimal digits of any writing
system.
-/
def splitSend? (cs : List Char) : Option (List Char × Option (List Char) × List Char) :=
  let key := cs.takeWhile isKeyChar
  let (value, rest) :=
    match cs.dropWhile isKeyChar with
    | ':' :: rest => (some (rest.takeWhile (· ≠ '@')), rest.dropWhile (· ≠ '@'))
    | rest => (none, rest)
  match rest with
  | '@' :: tick =>
      if key ≠ [] ∧ tick ≠ [] ∧ tick.all Text.isDecimalDigit then some (key, value, tick) else none
  | _ => none

/--
A message to be sent.  Its tick is written in ASCII digits and fits into a 64-bit word.
-/
def readSend (value : String) : Except UsageError Send :=
  match splitSend? value.toList with
  | none => .error (.invalidSend value)
  | some (key, literal, tick) =>
      match Number.readCount? tick with
      | none => .error (.invalidSendTick value)
      | some n =>
          .ok { key := String.ofList key
                value := literal.map fun cs => typedValue (String.ofList cs)
                tick := n }

/-!
## Arguments from left to right
-/

/--
Take a name away from the front of the characters as often as it stands there, at most `limit`
times.
-/
def dropRepeated (name : List Char) : Nat -> List Char -> List Char
  | 0, cs => cs
  | limit + 1, cs =>
      if name.isPrefixOf cs then dropRepeated name limit (cs.drop name.length) else cs

def inlineValue? (name arg : String) : Option String :=
  if name.toList.isPrefixOf arg.toList then
    some (String.ofList (dropRepeated name.toList arg.toList.length arg.toList))
  else none

def Arguments.withTicks (a : Arguments) (value : String) : Except Stop Arguments :=
  match readTicks value with
  | .ok n => .ok { a with ticks := n }
  | .error e => .error (.mistake e)

def Arguments.withSend (a : Arguments) (value : String) : Except Stop Arguments :=
  match readSend value with
  | .ok send => .ok { a with sends := a.sends ++ [send] }
  | .error e => .error (.mistake e)

def Arguments.withScript (a : Arguments) (path : String) : Except Stop Arguments :=
  match a.script with
  | none => .ok { a with script := some path }
  | some _ => .error (.mistake .secondScript)

def Arguments.withSingle (a : Arguments) (arg : String) : Except Stop Arguments :=
  if arg = "-h" ∨ arg = "--help" then .error .help
  else if arg = "-V" ∨ arg = "--version" then .error .version
  else if arg = "--color" then .ok { a with color := true }
  else if arg = "--no-color" then .ok { a with color := false }
  else
    match inlineValue? "--ticks=" arg, inlineValue? "--send=" arg with
    | some value, _ => a.withTicks value
    | none, some value => a.withSend value
    | none, none =>
        if arg = "-" then a.withScript arg
        else if arg.toList.head? = some '-' then .error (.mistake (.unknownOption arg))
        else a.withScript arg

def Arguments.readAll (a : Arguments) : List String -> Except Stop Arguments
  | [] => .ok a
  | arg :: rest =>
      if arg = "--ticks" ∨ arg = "-t" then
        match rest with
        | [] => .error (.mistake .ticksWithoutValue)
        | value :: rest =>
            match a.withTicks value with
            | .error stop => .error stop
            | .ok a => a.readAll rest
      else if arg = "--send" ∨ arg = "-s" then
        match rest with
        | [] => .error (.mistake .sendWithoutValue)
        | value :: rest =>
            match a.withSend value with
            | .error stop => .error stop
            | .ok a => a.readAll rest
      else
        match a.withSingle arg with
        | .error stop => .error stop
        | .ok a => a.readAll rest

/--
The first message for which there is no tick.
-/
def Arguments.neverSent? (a : Arguments) : Option Send :=
  a.sends.find? fun s => s.tick == 0 || a.ticks < s.tick

def Arguments.read (color : Bool) (args : List String) : Except Stop Arguments :=
  match Arguments.readAll { color := color } args with
  | .error stop => .error stop
  | .ok a =>
      match a.neverSent? with
      | some send => .error (.mistake (.neverSent send a.ticks))
      | none => .ok a

end CommandLine
end BehaviorScript

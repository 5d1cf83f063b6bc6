import BehaviorScript.CommandLine.Session
import BehaviorScript.Compiler

/-!
# Reports

The texts that the command line prints: what a compilation produced, why it failed,
and how the ticks went.  Every part of a report has its own style, which shows only
where colors are wanted.
-/

namespace BehaviorScript
namespace CommandLine

/-!
## Styles and columns
-/

inductive Style where
  | bold
  | dim
  | red
  | green
  | yellow
  | blue
  | cyan
  | gray
  deriving DecidableEq, Repr

def Style.code : Style -> String
  | bold => "1"
  | dim => "2"
  | red => "31"
  | green => "32"
  | yellow => "33"
  | blue => "34"
  | cyan => "36"
  | gray => "90"

structure Palette where
  enabled : Bool
  deriving DecidableEq, Repr

def Palette.paint (p : Palette) (style : Style) (s : String) : String :=
  if p.enabled then "\x1b[" ++ style.code ++ "m" ++ s ++ "\x1b[0m" else s

def Palette.strong (p : Palette) (style : Style) (s : String) : String :=
  p.paint .bold (p.paint style s)

def padRight (width : Nat) (s : String) : String :=
  s ++ String.ofList (List.replicate (width - s.length) ' ')

def padLeft (width : Nat) (s : String) : String :=
  String.ofList (List.replicate (width - s.length) ' ') ++ s

def unlines (lines : List String) : String :=
  String.join (lines.map fun line => line ++ "\n")

/-!
## Compilations
-/

/--
How long a compilation took, in words: each of its stages, and all of it.
-/
structure Timings where
  stage : String -> String
  total : String

def heading (p : Palette) (title : String) : String :=
  p.paint .gray ("━━━ " ++ title ++ " ━━━")

def stageLine (p : Palette) (timings : Timings) (stage : String) (produced : Nat) : String :=
  "  " ++ p.paint .blue (padRight 9 stage) ++ " " ++
    p.paint .green ("✓ " ++ padLeft 4 (toString produced)) ++ "  " ++
    p.paint .dim (timings.stage stage)

def stateLines (p : Palette) (row : StateRow) : List String :=
  let counts := s!"enter {row.enterActions}  run {row.runActions}  exit {row.exitActions}"
  let line := "  " ++ p.paint .gray s!"[{row.id.toInt}]" ++ " " ++ p.strong .green row.name ++ "  " ++
    p.paint .dim "│" ++ " " ++ p.paint .yellow counts
  if row.messages = [] then [line]
  else
    [line, "      " ++ p.paint .dim "on:" ++ " " ++
      p.paint .cyan (", ".intercalate row.messages)]

def compileReport {σ : Type} (p : Palette) (timings : Timings) (name : String) (b : Build σ) :
    String :=
  let title := "⚙  Compiled: " ++ name ++ " (machine '" ++ b.machine.name ++ "')"
  let rows := b.machine.rows
  let none := if rows = [] then [p.paint .dim "  No states declared"] else []
  let totals := "  Total: " ++ p.paint .green timings.total ++
    "  │  Tokens: " ++ p.paint .blue (toString b.tokens) ++
    "  │  Actions: " ++ p.paint .blue (toString b.actions) ++
    "  │  Transitions: " ++ p.paint .dim (toString b.transitions)
  unlines <|
    ["", p.strong .cyan title, "", heading p "Stages"] ++
      b.stages.map (fun (stage, produced) => stageLine p timings stage produced) ++
      ["", heading p "States"] ++ none ++ rows.flatMap (stateLines p) ++
      ["", heading p "Timing", totals, ""]

/-!
## Diagnostics
-/

def splitLines : List Char -> List (List Char)
  | [] => [[]]
  | c :: cs =>
      if c = '\n' then [] :: splitLines cs
      else
        match splitLines cs with
        | [] => [[c]]
        | line :: rest => (c :: line) :: rest

def dropReturn (line : List Char) : List Char :=
  if line.getLast? = some '\r' then line.dropLast else line

/--
The physical lines of a source, without their ends.  A line ends with a line feed, or with a
carriage return and a line feed.  Behind the last line feed there is a line only if it has
characters.
-/
def sourceLines (cs : List Char) : List (List Char) :=
  let lines := splitLines cs
  lines.dropLast.map dropReturn ++ lines.getLast?.toList.filter (· ≠ [])

def errorReport (p : Palette) (name source : String) (e : CompileError) : String :=
  let quoted :=
    match (sourceLines source.toList)[e.line - 1]? with
    | some line => ["  " ++ p.paint .gray (padLeft 4 (toString e.line) ++ " │") ++ " " ++
        String.ofList line]
    | none => []
  unlines <|
    [p.strong .red "error:" ++ " " ++ name ++ ": " ++ e.message] ++ quoted ++
      ["  " ++ p.paint .dim ("code: " ++ e.code.name)]

/-!
## Ticks
-/

def faultText (p : Palette) : Option Fault -> String
  | none => ""
  | some fault =>
      if fault.isFatal then "  " ++ p.strong .red ("✗ " ++ fault.text)
      else "  " ++ p.paint .yellow ("! " ++ fault.text)

def deliveryLine (p : Palette) (d : Delivery) : String :=
  "       " ++ p.paint .cyan "✉" ++ " " ++ p.paint .blue d.key ++ " " ++
    p.paint .dim ("→ " ++ d.result.text) ++ faultText p d.error

def tickLines (p : Palette) (row : TickRow) : List String :=
  let state :=
    match row.state with
    | some name => p.paint .green name
    | none => p.paint .dim s!"<state {row.position.stateId.toInt}>"
  row.deliveries.map (deliveryLine p) ++
    ["  " ++ p.paint .gray ("#" ++ padRight 4 (toString row.tick)) ++ " " ++ state ++ " " ++
      p.paint .dim "│" ++ " " ++ p.paint .yellow s!"action {row.position.actionIndex.toNat}" ++
      faultText p row.error]

def tickReport (p : Palette) (rows : List TickRow) : String :=
  unlines ([heading p "Ticks"] ++ rows.flatMap (tickLines p) ++ [""])

end CommandLine
end BehaviorScript

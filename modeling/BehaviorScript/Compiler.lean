import BehaviorScript.Builtin
import BehaviorScript.Script.Build
import BehaviorScript.Script.Parse
import BehaviorScript.Script.Resolve
import BehaviorScript.Token.Scan

/-!
# Compiling

A source is scanned, parsed, resolved and built, and each stage tells of its success.
The first stage that fails ends the compilation.  A compiler can be used for many
sources: it keeps its registry, its options, and what it found out about the last
source, which each stage drops before it takes up the next.
-/

namespace BehaviorScript

structure Build (σ : Type) where
  machine : Machine σ
  tokens : Nat
  states : Nat
  transitions : Nat
  actions : Nat

structure Compilation (σ : Type) where
  result : Except CompileError (Build σ)
  events : List Event

/--
What a compiler keeps of the last source: its tokens and the names of its states.
-/
structure Workspace where
  lexer : Lexer := {}
  names : NameTable := {}
  deriving DecidableEq, Repr

def ScanEnd.event (tokens : Nat) : ScanEnd -> Event
  | .complete line => .scanEnded tokens line
  | .stuck offset line => .scanStuck offset line

namespace Compilation

def building {σ : Type} (options : Options) (registry : Registry σ) (tokens transitions : Nat)
    (script : Script) (events : List Event) : Compilation σ :=
  match script.build options registry with
  | .error e => ⟨.error e, events⟩
  | .ok machine =>
      { result := .ok
          { machine := machine
            tokens := tokens
            states := script.states.length
            transitions := transitions
            actions := script.actions.length }
        events := events ++ [.generated machine.name machine.states.length] }

/--
Compile a source, in a workspace that may hold what is left of another one.
-/
def run {σ : Type} (options : Options) (registry : Registry σ) (workspace : Workspace)
    (source : String) : Compilation σ × Workspace :=
  let (lexer, finish) := workspace.lexer.scan source
  let workspace := { workspace with lexer := lexer }
  let tokens := lexer.tokens.length
  match lexer.stuckAt with
  | some (_, line) => (⟨.error (.unreadable line), [finish.event tokens]⟩, workspace)
  | none =>
      let lexed := [finish.event tokens, .lexed tokens]
      match Script.ofTokens options lexer.tokens with
      | .error e => (⟨.error e, lexed⟩, workspace)
      | .ok script =>
          let parsed := lexed ++ [.parsed script.name script.states.length]
          match script.resolve workspace.names with
          | (.error e, names) => (⟨.error e, parsed⟩, { workspace with names := names })
          | (.ok (script, transitions), names) =>
              let resolved := parsed ++ [.resolved names.size transitions]
              (building options registry tokens transitions script resolved,
                { workspace with names := names })

end Compilation

def compile {σ : Type} (options : Options) (registry : Registry σ) (source : String) :
    Compilation σ :=
  (Compilation.run options registry {} source).1

/-!
## Reusable compilers
-/

/--
A compiler that is used for one source after another.
-/
structure Compiler (σ : Type) where
  options : Options
  registry : Registry σ
  workspace : Workspace := {}

namespace Compiler

def compile {σ : Type} (c : Compiler σ) (source : String) : Compilation σ × Compiler σ :=
  let (compilation, workspace) := Compilation.run c.options c.registry c.workspace source
  (compilation, { c with workspace := workspace })

def register {σ : Type} (c : Compiler σ) (s : Schema σ) :
    Except RegistryError Unit × Compiler σ :=
  let (result, registry) := c.registry.register s
  (result, { c with registry := registry })

end Compiler

/-!
## What a compilation shows
-/

namespace Build

def stages {σ : Type} (b : Build σ) : List (String × Nat) :=
  [("lex", b.tokens), ("parse", b.states), ("resolve", b.transitions), ("generate", b.actions)]

end Build

structure StateRow where
  id : Int32
  name : String
  enterActions : Nat
  runActions : Nat
  exitActions : Nat
  messages : List String
  deriving DecidableEq, Repr

def State.row {σ : Type} (s : State σ) (id : Int32) : StateRow :=
  { id := id
    name := s.name
    enterActions := s.enter.length
    runActions := s.run.length
    exitActions := s.exit.length
    messages := s.messageKeys }

def Machine.rows {σ : Type} (m : Machine σ) : List StateRow :=
  m.states.zipIdx.map fun (s, id) => s.row (Int32.ofNat id)

end BehaviorScript

import BehaviorScript.Proofs.Grammar
import BehaviorScript.Token.Scan

/-!
# Printing scripts

A script is written back line by line: the machine with its first action, and for every
state its name and then its sections, each with one line for its keyword and one for
every action.  The pieces of a line stand one space apart, names bare, and keys and values
in quotes.

Every script can be printed, but not every one can be read again.  Names have to be bare
words, and keys and values must fit between quotes, which have no escapes.  Printing forgets
the lines that a script came from, so what is read again has the lines that it was printed on.
-/

namespace BehaviorScript

/-!
## Pieces of a line
-/

inductive Piece where
  | keyword (k : Keyword)
  | word (text : String)
  | quoted (text : String)
  | operator (op : Operator)
  deriving DecidableEq, Repr

namespace Piece

def kind : Piece -> TokenKind
  | keyword k => .keyword k
  | word _ => .word
  | quoted _ => .quoted
  | operator op => .operator op

def text : Piece -> String
  | keyword k => k.symbol
  | word text => text
  | quoted text => text
  | operator op => op.symbol

def write (quote : String -> Char) : Piece -> String
  | quoted text => String.singleton (quote text) ++ text ++ String.singleton (quote text)
  | p => p.text

end Piece

def Param.pieces (options : Options) (x : Param) : List Piece :=
  if x.name = options.defaultParam then
    match x.op with
    | .assign => [.quoted x.value]
    | .transition => [.operator .transition, .quoted x.value]
  else [.word x.name, .operator x.op, .quoted x.value]

namespace ActionLine

/--
The target of an action that is printed as a bare arrow: the reserved action with one parameter,
given by an arrow and without a label.
-/
def arrow? (options : Options) (a : ActionLine) : Option String :=
  match a.params with
  | [x] =>
      if a.name = options.transitionAction ∧ x.name = options.defaultParam ∧ x.op = .transition then
        some x.value
      else none
  | _ => none

theorem arrow?_eq_some {options : Options} {a : ActionLine} {target : String}
    (h : a.arrow? options = some target) :
    a.name = options.transitionAction ∧
      exists x, a.params = [x] ∧ x.name = options.defaultParam ∧ x.op = .transition ∧
        x.value = target := by
  unfold arrow? at h
  split at h
  · next x hparams =>
      split at h
      · next harrow =>
          cases h
          exact ⟨harrow.1, x, hparams, harrow.2.1, harrow.2.2, rfl⟩
      · cases h
  · cases h

def keyPieces (a : ActionLine) : List Piece :=
  match a.message with
  | some key => [.quoted key, .operator .assign]
  | none => []

def commandPieces (options : Options) (a : ActionLine) : List Piece :=
  match a.arrow? options with
  | some target => [.operator .transition, .quoted target]
  | none => .word a.name :: a.params.flatMap (Param.pieces options)

def pieces (options : Options) (a : ActionLine) : List Piece :=
  a.keyPieces ++ a.commandPieces options

theorem pieces_ne_nil (options : Options) (a : ActionLine) : a.pieces options ≠ [] := by
  unfold pieces commandPieces
  split <;> simp

end ActionLine

/-!
## Lines of a script
-/

namespace StateBlock

def sections (s : StateBlock) : List (SectionKind × Block) :=
  [.enter, .exit, .run, .on].filterMap fun kind => (s.get? kind).map fun block => (kind, block)

def sectionLines (options : Options) (kind : SectionKind) (block : Block) : List (List Piece) :=
  [.keyword kind.keyword] :: block.actions.map (ActionLine.pieces options)

def lines (options : Options) (s : StateBlock) : List (List Piece) :=
  [.keyword .state, .word s.name] ::
    s.sections.flatMap fun (kind, block) => sectionLines options kind block

end StateBlock

namespace Script

def lines (options : Options) (s : Script) : List (List Piece) :=
  (.keyword .machine :: .word s.name :: s.action.pieces options) ::
    s.states.flatMap (StateBlock.lines options)

def print (options : Options) (quote : String -> Char) (s : Script) : String :=
  String.join
    ((s.lines options).map fun ps => " ".intercalate (ps.map (Piece.write quote)) ++ "\n")

end Script

/-!
## Line numbers
-/

def Param.atLine (n : Nat) (x : Param) : Param :=
  { x with line := n }

def ActionLine.atLine (n : Nat) (a : ActionLine) : ActionLine :=
  { a with line := n, params := a.params.map (Param.atLine n) }

def ActionLine.atLines (n : Nat) : List ActionLine -> List ActionLine
  | [] => []
  | a :: rest => a.atLine n :: atLines (n + 1) rest

def StateBlock.sectionsAt (n : Nat) : List (SectionKind × Block) -> List (SectionKind × Block)
  | [] => []
  | (kind, block) :: rest =>
      (kind, ⟨n, ActionLine.atLines (n + 1) block.actions⟩) ::
        sectionsAt (n + (block.actions.length + 1)) rest

def StateBlock.atLine (n : Nat) (s : StateBlock) : StateBlock :=
  Grammar.stateOf n s.name (sectionsAt (n + 1) s.sections)

def StateBlock.atLines (options : Options) (n : Nat) : List StateBlock -> List StateBlock
  | [] => []
  | s :: rest => s.atLine n :: atLines options (n + (s.lines options).length) rest

/--
The script with the lines that it is printed on.
-/
def Script.numbered (options : Options) (s : Script) : Script :=
  { line := 1
    name := s.name
    action := s.action.atLine 1
    states := StateBlock.atLines options 2 s.states }

def Block.eraseLines (b : Block) : Block :=
  ⟨0, b.actions.map (ActionLine.atLine 0)⟩

def StateBlock.eraseLines (s : StateBlock) : StateBlock :=
  { line := 0
    name := s.name
    enter := s.enter.map Block.eraseLines
    exit := s.exit.map Block.eraseLines
    run := s.run.map Block.eraseLines
    on := s.on.map Block.eraseLines }

def Script.eraseLines (s : Script) : Script :=
  { line := 0
    name := s.name
    action := s.action.atLine 0
    states := s.states.map StateBlock.eraseLines }

/-!
## What can be read again
-/

/--
Bare words are made of letters, digits, underscores, points, dollar signs and hyphens.  A hyphen
alone is none.
-/
def IsBareWord (w : String) : Prop :=
  w ≠ "" ∧ w ≠ "-" ∧ w.toList.all (fun c => Lexeme.isWordChar c || c == '-') = true

def IsQuotable (v : String) : Prop :=
  '\n' ∉ v.toList ∧ ¬ ('\'' ∈ v.toList ∧ '"' ∈ v.toList)

instance (w : String) : Decidable (IsBareWord w) :=
  inferInstanceAs (Decidable (_ ∧ _ ∧ _))

instance (v : String) : Decidable (IsQuotable v) :=
  inferInstanceAs (Decidable (_ ∧ _))

def IsQuoting (quote : String -> Char) : Prop :=
  forall v, IsQuotable v -> (quote v = '\'' ∨ quote v = '"') ∧ quote v ∉ v.toList

def quoteFor (v : String) : Char :=
  if '"' ∈ v.toList then '\'' else '"'

theorem isQuoting_quoteFor : IsQuoting quoteFor := by
  intro v hv
  unfold quoteFor
  split
  · next hdouble => exact ⟨Or.inl rfl, fun hsingle => hv.2 ⟨hsingle, hdouble⟩⟩
  · next hdouble => exact ⟨Or.inr rfl, hdouble⟩

structure Param.IsPrintable (options : Options) (x : Param) : Prop where
  label : x.name ≠ options.defaultParam -> IsBareWord x.name
  value : IsQuotable x.value
  resolved : x.resolved = none

/--
The name of an action that is printed as an arrow does not appear.  An action has a key inside a
message section, and nowhere else.
-/
structure ActionLine.IsPrintable (options : Options) (inOn : Bool) (a : ActionLine) : Prop where
  name : a.arrow? options = none -> IsBareWord a.name
  message : a.message.isSome = inOn
  key : forall key, key ∈ a.message -> IsQuotable key
  params : forall x, x ∈ a.params -> x.IsPrintable options

structure StateBlock.IsPrintable (options : Options) (s : StateBlock) : Prop where
  name : IsBareWord s.name
  actions : forall entry, entry ∈ s.sections -> forall a, a ∈ entry.2.actions ->
    a.IsPrintable options (entry.1 == .on)

structure Script.IsPrintable (options : Options) (s : Script) : Prop where
  name : IsBareWord s.name
  action : s.action.IsPrintable options false
  states : forall b, b ∈ s.states -> b.IsPrintable options

instance (options : Options) (x : Param) : Decidable (x.IsPrintable options) :=
  decidable_of_iff ((x.name ≠ options.defaultParam -> IsBareWord x.name) ∧ IsQuotable x.value ∧
    x.resolved = none) ⟨fun h => ⟨h.1, h.2.1, h.2.2⟩, fun h => ⟨h.1, h.2, h.3⟩⟩

instance (options : Options) (inOn : Bool) (a : ActionLine) :
    Decidable (a.IsPrintable options inOn) :=
  decidable_of_iff ((a.arrow? options = none -> IsBareWord a.name) ∧ a.message.isSome = inOn ∧
    (forall key, key ∈ a.message -> IsQuotable key) ∧
    forall x, x ∈ a.params -> x.IsPrintable options)
    ⟨fun h => ⟨h.1, h.2.1, h.2.2.1, h.2.2.2⟩, fun h => ⟨h.1, h.2, h.3, h.4⟩⟩

instance (options : Options) (s : StateBlock) : Decidable (s.IsPrintable options) :=
  decidable_of_iff (IsBareWord s.name ∧ forall entry, entry ∈ s.sections ->
    forall a, a ∈ entry.2.actions -> a.IsPrintable options (entry.1 == .on))
    ⟨fun h => ⟨h.1, h.2⟩, fun h => ⟨h.1, h.2⟩⟩

instance (options : Options) (s : Script) : Decidable (s.IsPrintable options) :=
  decidable_of_iff (IsBareWord s.name ∧ s.action.IsPrintable options false ∧
    forall b, b ∈ s.states -> b.IsPrintable options)
    ⟨fun h => ⟨h.1, h.2.1, h.2.2⟩, fun h => ⟨h.1, h.2, h.3⟩⟩

end BehaviorScript

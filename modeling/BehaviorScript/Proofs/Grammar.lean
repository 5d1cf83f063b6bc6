import BehaviorScript.Script.Parse

/-!
# The grammar of scripts

A grammar says which tokens make up a script and which script they make up, without
saying how to find out.  Each judgment below relates some tokens, the tokens that stand
after them, and the part of a script that they denote:

    file     ::=  NL* @machine NL* word action (NL* state)* NL*
    state    ::=  @state NL* word (NL* section)*
    section  ::=  keyword (NL* action)*
    action   ::=  (literal ':')? ('->' literal | word param*)
    param    ::=  word (':' | '->') literal | literal | '->' literal

What stands after matters in three places only.  An action is followed by the end of the
tokens, a line end or a keyword.  A word that begins a parameter is a value only when no
operator follows it, and a quoted value only when no colon does.  A message key stands
before every action of a message section and before no other action.
-/

namespace BehaviorScript
namespace Grammar

def next? (rest : List Token) : Option TokenKind :=
  rest.head?.map Token.kind

def AreNewlines (ts : List Token) : Prop :=
  forall t, t ∈ ts -> t.kind = .newline

def EndsAction (rest : List Token) : Prop :=
  rest = [] ∨ next? rest = some .newline ∨ exists k, next? rest = some (.keyword k)

/-!
## Parameters and actions
-/

/--
The tokens `ts`, standing before `rest`, are the parameter.
-/
inductive IsParam (options : Options) : List Token -> List Token -> Param -> Prop where
  | labeled {label op value : Token} {k : Operator} {rest : List Token} :
      label.kind = .word ->
      op.kind = .operator k ->
      value.kind.isLiteral = true ->
      IsParam options [label, op, value] rest
        { line := label.line, name := label.text, op := k, value := value.text }
  | word {t : Token} {rest : List Token} :
      t.kind = .word ->
      (forall k, next? rest ≠ some (.operator k)) ->
      IsParam options [t] rest
        { line := t.line, name := options.defaultParam, op := .assign, value := t.text }
  | quoted {t : Token} {rest : List Token} :
      t.kind = .quoted ->
      next? rest ≠ some (.operator .assign) ->
      IsParam options [t] rest
        { line := t.line, name := options.defaultParam, op := .assign, value := t.text }
  | arrow {arrow target : Token} {rest : List Token} :
      arrow.kind = .operator .transition ->
      target.kind.isLiteral = true ->
      IsParam options [arrow, target] rest
        { line := arrow.line, name := options.defaultParam, op := .transition,
          value := target.text }

inductive AreParams (options : Options) : List Token -> List Token -> List Param -> Prop where
  | nil {rest : List Token} : AreParams options [] rest []
  | cons {ts us rest : List Token} {x : Param} {xs : List Param} :
      IsParam options ts (us ++ rest) x ->
      AreParams options us rest xs ->
      AreParams options (ts ++ us) rest (x :: xs)

inductive IsCommand (options : Options) :
    List Token -> List Token -> Nat -> String -> List Param -> Prop where
  | arrow {arrow target : Token} {rest : List Token} :
      arrow.kind = .operator .transition ->
      target.kind.isLiteral = true ->
      IsCommand options [arrow, target] rest arrow.line options.transitionAction
        [{ line := target.line, name := options.defaultParam, op := .transition,
           value := target.text }]
  | call {name : Token} {ts rest : List Token} {params : List Param} :
      name.kind = .word ->
      AreParams options ts rest params ->
      IsCommand options (name :: ts) rest name.line name.text params

/--
The tokens are an action, with a message key inside a message section and without one elsewhere.
-/
inductive IsAction (options : Options) :
    Bool -> List Token -> List Token -> ActionLine -> Prop where
  | keyed {key colon : Token} {ts rest : List Token} {line : Nat} {name : String}
      {params : List Param} :
      key.kind.isLiteral = true ->
      colon.kind = .operator .assign ->
      IsCommand options ts rest line name params ->
      EndsAction rest ->
      IsAction options true (key :: colon :: ts) rest
        { line := key.line, name := name, message := some key.text, params := params }
  | plain {ts rest : List Token} {line : Nat} {name : String} {params : List Param} :
      IsCommand options ts rest line name params ->
      EndsAction rest ->
      IsAction options false ts rest
        { line := line, name := name, message := none, params := params }

inductive AreActions (options : Options) (inOn : Bool) :
    List Token -> List Token -> List ActionLine -> Prop where
  | nil {rest : List Token} : AreActions options inOn [] rest []
  | cons {nl ts us rest : List Token} {a : ActionLine} {as : List ActionLine} :
      AreNewlines nl ->
      IsAction options inOn ts (us ++ rest) a ->
      AreActions options inOn us rest as ->
      AreActions options inOn (nl ++ ts ++ us) rest (a :: as)

/-!
## Sections, states and files
-/

inductive AreSections (options : Options) :
    List Token -> List Token -> List (SectionKind × Block) -> Prop where
  | nil {rest : List Token} : AreSections options [] rest []
  | cons {nl ts us rest : List Token} {t : Token} {kind : SectionKind}
      {actions : List ActionLine} {sections : List (SectionKind × Block)} :
      AreNewlines nl ->
      t.kind = .keyword kind.keyword ->
      AreActions options (kind == .on) ts (us ++ rest) actions ->
      AreSections options us rest sections ->
      AreSections options (nl ++ t :: ts ++ us) rest ((kind, ⟨t.line, actions⟩) :: sections)

def stateOf (line : Nat) (name : String) (sections : List (SectionKind × Block)) : StateBlock :=
  { line := line
    name := name
    enter := sections.lookup .enter
    exit := sections.lookup .exit
    run := sections.lookup .run
    on := sections.lookup .on }

/--
The tokens are a state, with at most one section of each kind.
-/
inductive IsState (options : Options) : List Token -> List Token -> StateBlock -> Prop where
  | mk {t name : Token} {nl ts rest : List Token} {sections : List (SectionKind × Block)} :
      t.kind = .keyword .state ->
      AreNewlines nl ->
      name.kind = .word ->
      AreSections options ts rest sections ->
      (sections.map Prod.fst).Nodup ->
      IsState options (t :: nl ++ name :: ts) rest (stateOf t.line name.text sections)

inductive AreStates (options : Options) :
    List Token -> List Token -> List StateBlock -> Prop where
  | nil {rest : List Token} : AreStates options [] rest []
  | cons {nl ts us rest : List Token} {s : StateBlock} {ss : List StateBlock} :
      AreNewlines nl ->
      IsState options ts (us ++ rest) s ->
      AreStates options us rest ss ->
      AreStates options (nl ++ ts ++ us) rest (s :: ss)

inductive IsFile (options : Options) : List Token -> Script -> Prop where
  | mk {nl₁ nl₂ nl₃ ts us : List Token} {t name : Token} {action : ActionLine}
      {states : List StateBlock} :
      AreNewlines nl₁ ->
      t.kind = .keyword .machine ->
      AreNewlines nl₂ ->
      name.kind = .word ->
      IsAction options false ts (us ++ nl₃) action ->
      AreStates options us nl₃ states ->
      AreNewlines nl₃ ->
      IsFile options (nl₁ ++ t :: nl₂ ++ name :: ts ++ us ++ nl₃)
        { line := t.line, name := name.text, action := action, states := states }

end Grammar
end BehaviorScript

import BehaviorScript.Diagnostic

/-!
# Parsing

The tokens of a source are read into a script from left to right, with at most two
tokens of lookahead.  The first fault ends the parse; what is reported is the fault
together with the tokens that had not been taken yet.

A line ends an action, and so does a keyword.  Line ends are skipped before and after
the names of the machine and of states, between sections and between actions.
-/

namespace BehaviorScript

/--
A parse that failed: the diagnostic, and the tokens from the place where it gave up.
-/
structure ParseFailure where
  error : CompileError
  rest : List Token
  deriving DecidableEq, Repr

abbrev Parsed (α : Type) : Type :=
  Except ParseFailure (α × List Token)

/--
What parsing needs to know beside the tokens: the reserved names, and the line that faults
at the end of the tokens are reported on.
-/
structure Parser where
  options : Options
  endLine : Nat
  deriving DecidableEq, Repr

namespace Parser

/-!
## Looking ahead
-/

def lineAt (p : Parser) : List Token -> Nat
  | [] => p.endLine
  | t :: _ => t.line

def isKeyword (t : Token) : Bool :=
  match t.kind with
  | .keyword _ => true
  | _ => false

def atActionEnd : List Token -> Bool
  | [] => true
  | t :: _ => t.kind == .newline || isKeyword t

def atBlockEnd : List Token -> Bool
  | [] => true
  | t :: _ => isKeyword t

def skipNewlines (ts : List Token) : List Token :=
  ts.dropWhile fun t => t.kind == .newline

def unexpected {α : Type} (p : Parser) (fault : Found -> ParseFault) (ts : List Token) : Parsed α :=
  .error ⟨.malformed (p.lineAt ts) (fault (Found.ofTokens ts)), ts⟩

def literal (p : Parser) (fault : Found -> ParseFault) (ts : List Token) : Parsed Token :=
  match ts with
  | [] => p.unexpected fault ts
  | t :: rest => if t.kind.isLiteral then .ok (t, rest) else p.unexpected fault ts

def word (p : Parser) (fault : Found -> ParseFault) (ts : List Token) : Parsed Token :=
  match ts with
  | [] => p.unexpected fault ts
  | t :: rest => if t.kind = .word then .ok (t, rest) else p.unexpected fault ts

/-!
## Parameters
-/

def operandFault : Operator -> Found -> ParseFault
  | .assign => .valueExpected
  | .transition => .targetExpected

/--
Take one parameter.  A word right before an operator is a label; without a label the
parameter goes by the reserved name.
-/
def param (p : Parser) : List Token -> Parsed Param
  | [] => .error ⟨.malformed p.endLine .paramMissing, []⟩
  | t :: rest =>
      match t.kind, rest.head?.map Token.kind with
      | .operator .transition, _ =>
          (p.literal .targetExpected rest).map fun (target, rest) =>
            ({ line := t.line, name := p.options.defaultParam, op := .transition,
               value := target.text }, rest)
      | .word, some (.operator op) =>
          (p.literal (operandFault op) rest.tail).map fun (value, rest) =>
            ({ line := t.line, name := t.text, op := op, value := value.text }, rest)
      | .quoted, some (.operator .assign) =>
          .error ⟨.malformed t.line (.quotedLabel t.text), rest⟩
      | .word, _ =>
          .ok ({ line := t.line, name := p.options.defaultParam, op := .assign,
                 value := t.text }, rest)
      | .quoted, _ =>
          .ok ({ line := t.line, name := p.options.defaultParam, op := .assign,
                 value := t.text }, rest)
      | .operator .assign, _ => .error ⟨.malformed t.line .strayColon, rest⟩
      | .keyword _, _ => .error ⟨.malformed t.line .paramExpected, rest⟩
      | .newline, _ => .error ⟨.malformed t.line .paramExpected, rest⟩

theorem literal_eq_ok {p : Parser} {fault : Found -> ParseFault} {ts rest : List Token} {t : Token}
    (h : p.literal fault ts = .ok (t, rest)) : ts = t :: rest ∧ t.kind.isLiteral = true := by
  cases ts with
  | nil => simp [literal, unexpected] at h
  | cons u us =>
      by_cases hu : u.kind.isLiteral = true
      · simp [literal, hu] at h
        rcases h with ⟨rfl, rfl⟩
        exact ⟨rfl, hu⟩
      · simp [literal, hu, unexpected] at h

theorem word_eq_ok {p : Parser} {fault : Found -> ParseFault} {ts rest : List Token} {t : Token}
    (h : p.word fault ts = .ok (t, rest)) : ts = t :: rest ∧ t.kind = .word := by
  cases ts with
  | nil => simp [word, unexpected] at h
  | cons u us =>
      by_cases hu : u.kind = .word
      · simp [word, hu] at h
        rcases h with ⟨rfl, rfl⟩
        exact ⟨rfl, hu⟩
      · simp [word, hu, unexpected] at h

theorem map_eq_ok {α β : Type} {x : Parsed α} {f : α × List Token -> β × List Token}
    {b : β × List Token} (h : x.map f = .ok b) : exists a, x = .ok a ∧ f a = b := by
  cases x with
  | error e => simp [Except.map] at h
  | ok a => exact ⟨a, rfl, by simpa [Except.map] using h⟩

theorem length_param_lt {p : Parser} {ts rest : List Token} {x : Param}
    (h : p.param ts = .ok (x, rest)) : rest.length < ts.length := by
  cases ts with
  | nil => simp [param] at h
  | cons t us =>
      rw [param] at h
      split at h
      · rcases map_eq_ok h with ⟨⟨target, r⟩, hl, hr⟩
        rcases literal_eq_ok hl with ⟨rfl, -⟩
        simp at hr
        simp only [← hr.2, List.length_cons]
        omega
      · rcases map_eq_ok h with ⟨⟨value, r⟩, hl, hr⟩
        have htail := congrArg List.length (literal_eq_ok hl).1
        simp at hr htail
        simp [← hr.2]
        omega
      all_goals
        simp at h
        try simp [← h.2]

def params (p : Parser) (ts : List Token) : Parsed (List Param) :=
  if atActionEnd ts then .ok ([], ts)
  else
    match _h : p.param ts with
    | .error e => .error e
    | .ok (x, rest) => (p.params rest).map fun (xs, rest) => (x :: xs, rest)
termination_by ts.length
decreasing_by exact length_param_lt _h

theorem length_params_le {p : Parser} {ts rest : List Token} {xs : List Param}
    (h : p.params ts = .ok (xs, rest)) : rest.length ≤ ts.length := by
  fun_induction params p ts generalizing xs rest with
  | case1 ts hend =>
      simp at h
      simp [h.2]
  | case2 => simp at h
  | case3 ts hend x r hx ih =>
      rcases map_eq_ok h with ⟨⟨ys, r'⟩, hp, hr⟩
      have hlt := length_param_lt hx
      have hle := ih hp
      simp at hr
      rw [← hr.2]
      omega

/-!
## Actions
-/

/--
Take the key of the message that the action answers.  Inside a message section there must
be one, and nowhere else may there be one.
-/
def messageKey (p : Parser) (inOn : Bool) (ts : List Token) : Parsed (Option String) :=
  match ts with
  | key :: colon :: rest =>
      if key.kind.isLiteral ∧ colon.kind = .operator .assign then
        if inOn then .ok (some key.text, rest)
        else .error ⟨.malformed key.line (.keyOutsideOn key.text), ts⟩
      else if inOn then .error ⟨.malformed key.line .keyMissing, ts⟩
      else .ok (none, ts)
  | _ =>
      if inOn then .error ⟨.malformed (p.lineAt ts) .keyMissing, ts⟩
      else .ok (none, ts)

/--
Take the name of an action with its parameters.  A bare arrow calls the reserved action.
-/
def command (p : Parser) (line : Nat) (ts : List Token) : Parsed (String × List Param) :=
  match ts with
  | [] => .error ⟨.malformed line (.actionExpected (Found.ofTokens ts)), ts⟩
  | t :: rest =>
      match t.kind with
      | .operator .transition =>
          (p.literal .targetExpected rest).map fun (target, rest) =>
            ((p.options.transitionAction,
              [{ line := target.line, name := p.options.defaultParam, op := .transition,
                 value := target.text }]), rest)
      | .word => (p.params rest).map fun (xs, rest) => ((t.text, xs), rest)
      | _ => .error ⟨.malformed line (.actionExpected (Found.ofTokens ts)), ts⟩

def action (p : Parser) (inOn : Bool) (ts : List Token) : Parsed ActionLine :=
  match p.messageKey inOn ts with
  | .error e => .error e
  | .ok (message, afterKey) =>
      match p.command (p.lineAt ts) afterKey with
      | .error e => .error e
      | .ok ((name, params), rest) =>
          if atActionEnd rest then
            .ok ({ line := p.lineAt ts, name := name, message := message, params := params }, rest)
          else p.unexpected .leftover rest

theorem length_messageKey_le {p : Parser} {inOn : Bool} {ts rest : List Token} {key : Option String}
    (h : p.messageKey inOn ts = .ok (key, rest)) : rest.length ≤ ts.length := by
  unfold messageKey at h
  split at h
  · split at h
    · split at h
      · simp at h
        simp [← h.2]
        omega
      · simp at h
    · split at h
      · simp at h
      · simp at h
        simp [← h.2]
  · split at h
    · simp at h
    · simp at h
      simp [← h.2]

theorem length_command_lt {p : Parser} {line : Nat} {ts rest : List Token} {c : String × List Param}
    (h : p.command line ts = .ok (c, rest)) : rest.length < ts.length := by
  cases ts with
  | nil => simp [command] at h
  | cons t us =>
      rw [command] at h
      split at h
      · rcases map_eq_ok h with ⟨⟨target, r⟩, hl, hr⟩
        rcases literal_eq_ok hl with ⟨rfl, -⟩
        simp at hr
        simp only [← hr.2, List.length_cons]
        omega
      · rcases map_eq_ok h with ⟨⟨xs, r⟩, hp, hr⟩
        have hle := length_params_le hp
        simp at hr
        rw [← hr.2]
        simp
        omega
      · simp at h

theorem length_action_lt {p : Parser} {inOn : Bool} {ts rest : List Token} {a : ActionLine}
    (h : p.action inOn ts = .ok (a, rest)) : rest.length < ts.length := by
  unfold action at h
  split at h
  · simp at h
  · next message afterKey hkey =>
      split at h
      · simp at h
      · next name params r hc =>
          have hle := length_messageKey_le hkey
          have hlt := length_command_lt hc
          split at h
          · simp at h
            rw [← h.2]
            omega
          · simp [unexpected] at h

theorem length_skipNewlines_le (ts : List Token) : (skipNewlines ts).length ≤ ts.length :=
  (List.dropWhile_sublist _).length_le

def actions (p : Parser) (inOn : Bool) (ts : List Token) : Parsed (List ActionLine) :=
  if atBlockEnd (skipNewlines ts) then .ok ([], skipNewlines ts)
  else
    match _h : p.action inOn (skipNewlines ts) with
    | .error e => .error e
    | .ok (x, rest) => (p.actions inOn rest).map fun (xs, rest) => (x :: xs, rest)
termination_by ts.length
decreasing_by
  have hlt := length_action_lt _h
  have hle := length_skipNewlines_le ts
  omega

theorem length_actions_le {p : Parser} {inOn : Bool} {ts rest : List Token} {xs : List ActionLine}
    (h : p.actions inOn ts = .ok (xs, rest)) : rest.length ≤ ts.length := by
  fun_induction actions p inOn ts generalizing xs rest with
  | case1 ts hend =>
      simp at h
      rw [← h.2]
      exact length_skipNewlines_le ts
  | case2 => simp at h
  | case3 ts hend x r hx ih =>
      rcases map_eq_ok h with ⟨⟨ys, r'⟩, hp, hr⟩
      have hlt := length_action_lt hx
      have hskip := length_skipNewlines_le ts
      have hle := ih hp
      simp at hr
      rw [← hr.2]
      omega

/-!
## States
-/

def sections (p : Parser) (state : StateBlock) (ts : List Token) : Parsed StateBlock :=
  match _hs : skipNewlines ts with
  | [] => .ok (state, [])
  | t :: rest =>
      match t.kind with
      | .keyword k =>
          match SectionKind.ofKeyword? k with
          | none => .ok (state, t :: rest)
          | some kind =>
              if (state.get? kind).isSome then
                .error ⟨.duplicateSection t.line state.name kind, t :: rest⟩
              else
                match _h : p.actions (kind == .on) rest with
                | .error e => .error e
                | .ok (xs, rest) => p.sections (state.set kind ⟨t.line, xs⟩) rest
      | _ => p.unexpected (.sectionExpected state.name) (t :: rest)
termination_by ts.length
decreasing_by
  have hle := length_actions_le _h
  have hskip := length_skipNewlines_le ts
  rw [_hs] at hskip
  simp at hskip
  omega

def stateBody (p : Parser) (line : Nat) (ts : List Token) : Parsed StateBlock :=
  match p.word .stateNameExpected (skipNewlines ts) with
  | .error e => .error e
  | .ok (name, rest) => p.sections { line := line, name := name.text } rest

theorem length_sections_le {p : Parser} {state s : StateBlock} {ts rest : List Token}
    (h : p.sections state ts = .ok (s, rest)) : rest.length ≤ ts.length := by
  fun_induction sections p state ts with
  | case1 => simp_all
  | case2 state ts t us hs =>
      have hskip := length_skipNewlines_le ts
      simp_all
  | case3 => simp_all
  | case4 => simp_all
  | case5 state ts t us hs k hk kind hkind hnew xs r hr ih =>
      have hle := length_actions_le hr
      have hskip := length_skipNewlines_le ts
      rw [hs] at hskip
      simp at hskip
      have := ih h
      omega
  | case6 => simp_all [unexpected]

theorem length_stateBody_le {p : Parser} {line : Nat} {ts rest : List Token} {s : StateBlock}
    (h : p.stateBody line ts = .ok (s, rest)) : rest.length ≤ ts.length := by
  unfold stateBody at h
  split at h
  · simp at h
  · next name r hw =>
      have hlen := congrArg List.length (word_eq_ok hw).1
      have hskip := length_skipNewlines_le ts
      have hle := length_sections_le h
      simp at hlen
      omega

def states (p : Parser) (ts : List Token) : Parsed (List StateBlock) :=
  match _hs : skipNewlines ts with
  | [] => .ok ([], [])
  | t :: rest =>
      if t.kind = .keyword .state then
        match _h : p.stateBody t.line rest with
        | .error e => .error e
        | .ok (x, rest) => (p.states rest).map fun (xs, rest) => (x :: xs, rest)
      else p.unexpected .stateExpected (t :: rest)
termination_by ts.length
decreasing_by
  have hle := length_stateBody_le _h
  have hskip := length_skipNewlines_le ts
  rw [_hs] at hskip
  simp at hskip
  omega

/-!
## Whole scripts
-/

def machineBody (p : Parser) (line : Nat) (ts : List Token) : Parsed Script :=
  match p.word (fun _ => .machineNameMissing) (skipNewlines ts) with
  | .error e => .error e
  | .ok (name, afterName) =>
      if atActionEnd afterName then p.unexpected (fun _ => .firstTransitionMissing) afterName
      else
        match p.action false afterName with
        | .error e => .error e
        | .ok (action, afterAction) =>
            (p.states afterAction).map fun (states, rest) =>
              ({ line := line, name := name.text, action := action, states := states }, rest)

def machine (p : Parser) (ts : List Token) : Parsed Script :=
  match skipNewlines ts with
  | [] => p.unexpected .machineExpected []
  | t :: rest =>
      if t.kind = .keyword .machine then p.machineBody t.line rest
      else p.unexpected .machineExpected (t :: rest)

end Parser

/--
The parse of some tokens.  Faults at their end are reported on the line of the last of them.
-/
def parseTokens (options : Options) (ts : List Token) : Parsed Script :=
  Parser.machine { options := options, endLine := (ts.getLast?.map Token.line).getD 1 } ts

def Script.ofTokens (options : Options) (ts : List Token) : Except CompileError Script :=
  match parseTokens options ts with
  | .error failure => .error failure.error
  | .ok (script, _) => .ok script

end BehaviorScript

import BehaviorScript.Proofs.Seams
import BehaviorScript.Proofs.Compilation

/-!
# Places do not matter

A token knows the bytes it came from, and nothing after the scan asks for them.  The parser looks
at kinds, texts and lines only, and the stages behind it do not see tokens at all.  So two sources
whose scans differ in places alone compile to the same result.
-/

namespace BehaviorScript

/-!
## Tokens without their places
-/

def Token.unplaced (t : Token) : Token :=
  { t with start := 0, size := 0 }

def unplaced (ts : List Token) : List Token :=
  ts.map Token.unplaced

@[simp] theorem unplaced_nil : unplaced [] = [] :=
  rfl

@[simp] theorem unplaced_cons (t : Token) (ts : List Token) :
    unplaced (t :: ts) = t.unplaced :: unplaced ts :=
  rfl

@[simp] theorem Token.kind_unplaced (t : Token) : t.unplaced.kind = t.kind :=
  rfl

theorem Found.ofTokens_unplaced (ts : List Token) :
    Found.ofTokens (unplaced ts) = Found.ofTokens ts := by
  cases ts with
  | nil => rfl
  | cons t ts => rfl

namespace Parser

variable {p : Parser}

theorem lineAt_unplaced (ts : List Token) : p.lineAt (unplaced ts) = p.lineAt ts := by
  cases ts with
  | nil => rfl
  | cons t ts => rfl

theorem atActionEnd_unplaced (ts : List Token) :
    atActionEnd (unplaced ts) = atActionEnd ts := by
  cases ts with
  | nil => rfl
  | cons t ts => rfl

theorem atBlockEnd_unplaced (ts : List Token) : atBlockEnd (unplaced ts) = atBlockEnd ts := by
  cases ts with
  | nil => rfl
  | cons t ts => rfl

theorem skipNewlines_unplaced (ts : List Token) :
    skipNewlines (unplaced ts) = unplaced (skipNewlines ts) := by
  rw [skipNewlines, unplaced, List.dropWhile_map]
  rfl

/-!
## Parsing

Every function of the parser comes to the same on tokens without places.  Only in what it leaves
over are the places gone.
-/

def forget {α : Type} : Parsed α -> Parsed α
  | .error f => .error ⟨f.error, unplaced f.rest⟩
  | .ok (a, rest) => .ok (a, unplaced rest)

theorem forget_map {α β : Type} (f : α -> β) (x : Parsed α) :
    (forget x).map (fun (a, rest) => (f a, rest)) =
      forget (x.map fun (a, rest) => (f a, rest)) := by
  cases x with
  | error e => rfl
  | ok a => rfl

theorem unexpected_unplaced {α : Type} (fault : Found -> ParseFault) (ts : List Token) :
    (p.unexpected fault (unplaced ts) : Parsed α) = forget (p.unexpected fault ts) := by
  rw [unexpected, lineAt_unplaced, Found.ofTokens_unplaced]
  rfl

theorem literal_unplaced (fault : Found -> ParseFault) (ts : List Token) :
    p.literal fault (unplaced ts) =
      (forget (p.literal fault ts)).map fun (t, rest) => (t.unplaced, rest) := by
  cases ts with
  | nil => rfl
  | cons t ts =>
      rw [unplaced_cons, literal, literal, Token.kind_unplaced]
      by_cases hliteral : t.kind.isLiteral = true
      · rw [if_pos hliteral, if_pos hliteral]
        rfl
      · rw [if_neg hliteral, if_neg hliteral]
        rfl

theorem param_unplaced (ts : List Token) : p.param (unplaced ts) = forget (p.param ts) := by
  cases ts with
  | nil => rfl
  | cons t ts =>
      have hnext : (unplaced ts).head?.map Token.kind = ts.head?.map Token.kind := by
        cases ts with
        | nil => rfl
        | cons u us => rfl
      have htail : (unplaced ts).tail = unplaced ts.tail := by
        cases ts with
        | nil => rfl
        | cons u us => rfl
      rw [unplaced_cons, param, param, hnext, htail, Token.kind_unplaced]
      split
      · rw [literal_unplaced]
        cases p.literal .targetExpected ts with
        | error e => rfl
        | ok found => rfl
      · next op _ _ =>
          rw [literal_unplaced]
          cases p.literal (operandFault op) ts.tail with
          | error e => rfl
          | ok found => rfl
      all_goals rfl

theorem params_unplaced (ts : List Token) : p.params (unplaced ts) = forget (p.params ts) := by
  fun_induction params p ts with
  | case1 ts hend =>
      rw [params, atActionEnd_unplaced, if_pos hend]
      rfl
  | case2 ts hend e he =>
      rw [params, atActionEnd_unplaced, if_neg hend, param_unplaced, he]
      rfl
  | case3 ts hend x rest hx ih =>
      rw [params, atActionEnd_unplaced, if_neg hend, param_unplaced, hx]
      show (p.params (unplaced rest)).map _ = _
      rw [ih, forget_map]

theorem messageKey_unplaced (inOn : Bool) (ts : List Token) :
    p.messageKey inOn (unplaced ts) = forget (p.messageKey inOn ts) := by
  cases ts with
  | nil => cases inOn <;> rfl
  | cons key ts =>
      cases ts with
      | nil => cases inOn <;> rfl
      | cons colon rest =>
          rw [unplaced_cons, unplaced_cons, messageKey, messageKey]
          by_cases hkey : key.kind.isLiteral = true ∧ colon.kind = .operator .assign
          · have hkey' : key.unplaced.kind.isLiteral = true ∧
                colon.unplaced.kind = .operator .assign := hkey
            rw [if_pos hkey, if_pos hkey']
            cases inOn <;> rfl
          · have hkey' : ¬ (key.unplaced.kind.isLiteral = true ∧
                colon.unplaced.kind = .operator .assign) := hkey
            rw [if_neg hkey, if_neg hkey']
            cases inOn <;> rfl

theorem command_unplaced (line : Nat) (ts : List Token) :
    p.command line (unplaced ts) = forget (p.command line ts) := by
  cases ts with
  | nil => rfl
  | cons t ts =>
      rw [unplaced_cons, command, command, Token.kind_unplaced]
      split
      · rw [literal_unplaced]
        cases p.literal .targetExpected ts with
        | error e => rfl
        | ok found => rfl
      · rw [params_unplaced]
        cases p.params ts with
        | error e => rfl
        | ok found => rfl
      · rfl

theorem action_unplaced (inOn : Bool) (ts : List Token) :
    p.action inOn (unplaced ts) = forget (p.action inOn ts) := by
  rw [action, action, messageKey_unplaced, lineAt_unplaced]
  cases p.messageKey inOn ts with
  | error e => rfl
  | ok keyed =>
      rcases keyed with ⟨message, afterKey⟩
      simp only [forget, command_unplaced]
      cases p.command (p.lineAt ts) afterKey with
      | error e => rfl
      | ok commanded =>
          rcases commanded with ⟨⟨name, params⟩, rest⟩
          simp only [atActionEnd_unplaced]
          split
          · rfl
          · exact unexpected_unplaced _ _

theorem actions_unplaced (inOn : Bool) (ts : List Token) :
    p.actions inOn (unplaced ts) = forget (p.actions inOn ts) := by
  fun_induction actions p inOn ts with
  | case1 ts hend =>
      rw [actions, skipNewlines_unplaced, atBlockEnd_unplaced, if_pos hend]
      rfl
  | case2 ts hend e he =>
      rw [actions, skipNewlines_unplaced, atBlockEnd_unplaced, if_neg hend, action_unplaced, he]
      rfl
  | case3 ts hend x rest hx ih =>
      rw [actions, skipNewlines_unplaced, atBlockEnd_unplaced, if_neg hend, action_unplaced, hx]
      show (p.actions inOn (unplaced rest)).map _ = _
      rw [ih, forget_map]

theorem sections_unplaced (state : StateBlock) (ts : List Token) :
    p.sections state (unplaced ts) = forget (p.sections state ts) := by
  fun_induction sections p state ts with
  | case1 state ts hskip =>
      rw [sections, skipNewlines_unplaced, hskip]
      rfl
  | case2 state ts t rest hskip k hk hkind =>
      rw [sections, skipNewlines_unplaced, hskip]
      simp only [unplaced_cons, Token.kind_unplaced, hk, hkind]
      rfl
  | case3 state ts t rest hskip k hk kind hkind htaken =>
      rw [sections, skipNewlines_unplaced, hskip]
      simp only [unplaced_cons, Token.kind_unplaced, hk, hkind]
      rw [if_pos htaken]
      rfl
  | case4 state ts t rest hskip k hk kind hkind hfree e he =>
      rw [sections, skipNewlines_unplaced, hskip]
      simp only [unplaced_cons, Token.kind_unplaced, hk, hkind]
      rw [if_neg hfree, actions_unplaced, he]
      rfl
  | case5 state ts t rest hskip k hk kind hkind hfree xs after hxs ih =>
      rw [sections, skipNewlines_unplaced, hskip]
      simp only [unplaced_cons, Token.kind_unplaced, hk, hkind]
      rw [if_neg hfree, actions_unplaced, hxs]
      exact ih
  | case6 state ts t rest hskip hother =>
      rw [sections, skipNewlines_unplaced, hskip]
      simp only [unplaced_cons, Token.kind_unplaced]
      exact unexpected_unplaced _ (t :: rest)

theorem word_unplaced (fault : Found -> ParseFault) (ts : List Token) :
    p.word fault (unplaced ts) =
      (forget (p.word fault ts)).map fun (t, rest) => (t.unplaced, rest) := by
  cases ts with
  | nil => rfl
  | cons t ts =>
      rw [unplaced_cons, word, word, Token.kind_unplaced]
      by_cases hword : t.kind = .word
      · rw [if_pos hword, if_pos hword]
        rfl
      · rw [if_neg hword, if_neg hword]
        rfl

theorem stateBody_unplaced (line : Nat) (ts : List Token) :
    p.stateBody line (unplaced ts) = forget (p.stateBody line ts) := by
  rw [stateBody, stateBody, skipNewlines_unplaced, word_unplaced]
  cases p.word .stateNameExpected (skipNewlines ts) with
  | error e => rfl
  | ok found => exact sections_unplaced _ found.2

theorem states_unplaced (ts : List Token) : p.states (unplaced ts) = forget (p.states ts) := by
  fun_induction states p ts with
  | case1 ts hskip =>
      rw [states, skipNewlines_unplaced, hskip]
      rfl
  | case2 ts t rest hskip hkind e he =>
      have hbody : p.stateBody t.unplaced.line (unplaced rest) = forget (.error e) := by
        rw [stateBody_unplaced, ← he]
        rfl
      rw [states, skipNewlines_unplaced, hskip]
      simp only [unplaced_cons]
      rw [if_pos (show t.unplaced.kind = .keyword .state from hkind), hbody]
      rfl
  | case3 ts t rest hskip hkind x after hx ih =>
      have hbody : p.stateBody t.unplaced.line (unplaced rest) = forget (.ok (x, after)) := by
        rw [stateBody_unplaced, ← hx]
        rfl
      rw [states, skipNewlines_unplaced, hskip]
      simp only [unplaced_cons]
      rw [if_pos (show t.unplaced.kind = .keyword .state from hkind), hbody]
      show (p.states (unplaced after)).map _ = _
      rw [ih, forget_map]
  | case4 ts t rest hskip hkind =>
      rw [states, skipNewlines_unplaced, hskip]
      simp only [unplaced_cons]
      rw [if_neg (show ¬ t.unplaced.kind = .keyword .state from hkind)]
      exact unexpected_unplaced _ (t :: rest)

theorem machineBody_unplaced (line : Nat) (ts : List Token) :
    p.machineBody line (unplaced ts) = forget (p.machineBody line ts) := by
  rw [machineBody, machineBody, skipNewlines_unplaced, word_unplaced]
  cases p.word (fun _ => .machineNameMissing) (skipNewlines ts) with
  | error e => rfl
  | ok found =>
      rcases found with ⟨name, afterName⟩
      simp only [forget, Except.map, atActionEnd_unplaced]
      split
      · exact unexpected_unplaced _ afterName
      · rw [action_unplaced]
        cases p.action false afterName with
        | error e => rfl
        | ok acted =>
            rcases acted with ⟨action, afterAction⟩
            simp only [forget, states_unplaced]
            cases p.states afterAction with
            | error e => rfl
            | ok found => rfl

theorem machine_unplaced (ts : List Token) : p.machine (unplaced ts) = forget (p.machine ts) := by
  rw [machine, machine, skipNewlines_unplaced]
  cases skipNewlines ts with
  | nil => rfl
  | cons t rest =>
      by_cases hkind : t.kind = .keyword .machine
      · simp only [unplaced_cons, if_pos hkind]
        rw [if_pos (show t.unplaced.kind = .keyword .machine from hkind)]
        exact machineBody_unplaced t.line rest
      · simp only [unplaced_cons, if_neg hkind]
        rw [if_neg (show ¬ t.unplaced.kind = .keyword .machine from hkind)]
        exact unexpected_unplaced _ (t :: rest)

end Parser

theorem Script.ofTokens_unplaced (options : Options) (ts : List Token) :
    Script.ofTokens options (unplaced ts) = Script.ofTokens options ts := by
  have hend : (unplaced ts).getLast?.map Token.line = ts.getLast?.map Token.line := by
    rw [unplaced, List.getLast?_map, Option.map_map]
    rfl
  rw [Script.ofTokens, Script.ofTokens, parseTokens, parseTokens, hend, Parser.machine_unplaced]
  cases Parser.machine _ ts with
  | error f => rfl
  | ok parsed => rfl

/-!
## Compiling
-/

def ScanEnd.unplaced : ScanEnd -> ScanEnd
  | complete line => complete line
  | stuck _ line => stuck 0 line

/--
The scan without the places of its tokens and without the place where it got stuck.  Lines stay.
-/
def Scan.unplaced (s : Scan) : Scan :=
  { tokens := BehaviorScript.unplaced s.tokens, finish := s.finish.unplaced }

theorem result_eq_of_unplaced_eq {σ : Type} (options : Options) (registry : Registry σ)
    {source other : String} (h : (scan source).unplaced = (scan other).unplaced) :
    (compile options registry source).result = (compile options registry other).result := by
  have htokens : unplaced (scan source).tokens = unplaced (scan other).tokens :=
    congrArg Scan.tokens h
  have hfinish : (scan source).finish.unplaced = (scan other).finish.unplaced :=
    congrArg Scan.finish h
  have hlength : (scan source).tokens.length = (scan other).tokens.length := by
    simpa [unplaced] using congrArg List.length htokens
  have hparse : Script.ofTokens options (scan source).tokens =
      Script.ofTokens options (scan other).tokens := by
    rw [← Script.ofTokens_unplaced, htokens, Script.ofTokens_unplaced]
  unfold compile Compilation.run
  simp only [Lexer.scan_eq, Scan.stuck?, hparse, hlength]
  cases hs : (scan source).finish with
  | stuck offset line =>
      cases ho : (scan other).finish with
      | stuck offset' line' =>
          rw [hs, ho] at hfinish
          cases hfinish
          rfl
      | complete line' =>
          rw [hs, ho] at hfinish
          cases hfinish
  | complete line =>
      cases ho : (scan other).finish with
      | stuck offset' line' =>
          rw [hs, ho] at hfinish
          cases hfinish
      | complete line' =>
          rw [hs, ho] at hfinish
          cases hfinish
          dsimp only
          cases Script.ofTokens options (scan other).tokens with
          | error e => rfl
          | ok script =>
              dsimp only
              rcases script.resolve {} with ⟨e | resolved, table⟩
              · rfl
              · rfl

end BehaviorScript

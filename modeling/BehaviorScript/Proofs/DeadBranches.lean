import BehaviorScript.Proofs.BareArrows
import BehaviorScript.Proofs.Lookahead

/-!
# Branches that are never taken

Two faults of the parser are there for parameters that are asked for where none can be: at the end
of the tokens, and at a line end or a keyword.  The loop that reads parameters looks for these
first, so no tokens bring up either fault.  Every part of the parser stays inside the tokens, and
the parts that its loops repeat take at least one.

The parser gives a message key to every action of a message section and to no other action.  So
when a script is built, there is always a key to build a handler under, and the one that stands in
for a missing key is not used.
-/

namespace BehaviorScript

variable {α β : Type}

/-!
## Faults that the parser never reports
-/

def CompileError.IsLive (e : CompileError) : Prop :=
  forall line, e ≠ .malformed line .paramExpected ∧ e ≠ .malformed line .paramMissing

theorem CompileError.isLive_malformed {line : Nat} {fault : ParseFault}
    (h : fault ≠ .paramExpected ∧ fault ≠ .paramMissing) : (malformed line fault).IsLive := by
  intro other
  constructor
  · intro heq
    cases heq
    exact h.1 rfl
  · intro heq
    cases heq
    exact h.2 rfl

def Parsed.IsLive (r : Parsed α) : Prop :=
  forall failure, r = .error failure -> failure.error.IsLive

namespace Parser

open Parsed (IsLive)

theorem isLive_ok (x : α × List Token) : IsLive (.ok x) := by
  intro failure h
  cases h

theorem isLive_error {line : Nat} {fault : ParseFault} (rest : List Token)
    (h : fault ≠ .paramExpected ∧ fault ≠ .paramMissing) :
    IsLive (.error ⟨.malformed line fault, rest⟩ : Parsed α) := by
  intro failure heq
  cases heq
  exact CompileError.isLive_malformed h

theorem isLive_map {r : Parsed α} (h : IsLive r) (f : α × List Token -> β × List Token) :
    IsLive (r.map f) := by
  intro failure heq
  exact h failure (except_map_eq_error heq)

theorem isLive_andThen {f : List Token -> Parsed α} {next : α -> List Token -> Parsed β}
    {ts : List Token} (hf : IsLive (f ts))
    (hnext : forall a rest, f ts = .ok (a, rest) -> IsLive (next a rest)) :
    IsLive (andThen f next ts) := by
  rw [andThen]
  cases hr : f ts with
  | error failure =>
      intro failure' heq
      cases heq
      exact hf failure hr
  | ok x => exact hnext x.1 x.2 hr

section Parts

variable (p : Parser)

theorem unexpected_isLive {fault : Found -> ParseFault}
    (h : forall found, fault found ≠ .paramExpected ∧ fault found ≠ .paramMissing)
    (ts : List Token) : IsLive (p.unexpected fault ts : Parsed α) :=
  isLive_error ts (h _)

theorem literal_isLive {fault : Found -> ParseFault}
    (h : forall found, fault found ≠ .paramExpected ∧ fault found ≠ .paramMissing)
    (ts : List Token) : IsLive (p.literal fault ts) := by
  unfold literal
  split
  · exact p.unexpected_isLive h _
  · split
    · exact isLive_ok _
    · exact p.unexpected_isLive h _

theorem word_isLive {fault : Found -> ParseFault}
    (h : forall found, fault found ≠ .paramExpected ∧ fault found ≠ .paramMissing)
    (ts : List Token) : IsLive (p.word fault ts) := by
  unfold word
  split
  · exact p.unexpected_isLive h _
  · split
    · exact isLive_ok _
    · exact p.unexpected_isLive h _

theorem param_isLive {ts : List Token} (hend : ¬ atActionEnd ts = true) : IsLive (p.param ts) := by
  cases ts with
  | nil => exact absurd rfl hend
  | cons t rest =>
      rw [param]
      split
      · exact isLive_map (p.literal_isLive (by simp) _) _
      · next op _ _ =>
          apply isLive_map (p.literal_isLive _ _)
          cases op with
          | assign => simp [operandFault]
          | transition => simp [operandFault]
      · exact isLive_error _ (by simp)
      · exact isLive_ok _
      · exact isLive_ok _
      · exact isLive_error _ (by simp)
      · next hkind => exact absurd (by simp [atActionEnd, isKeyword, hkind]) hend
      · next hkind => exact absurd (by simp [atActionEnd, hkind]) hend

theorem params_isLive (ts : List Token) : IsLive (p.params ts) := by
  rw [params_eq]
  split
  · exact isLive_ok _
  · next hend =>
      apply isLive_andThen (p.param_isLive hend)
      intro x rest _h
      exact isLive_map (params_isLive rest) _
termination_by ts.length
decreasing_by exact length_param_lt _h

theorem messageKey_isLive (inOn : Bool) (ts : List Token) : IsLive (p.messageKey inOn ts) := by
  unfold messageKey
  split
  · split
    · split
      · exact isLive_ok _
      · exact isLive_error _ (by simp)
    · split
      · exact isLive_error _ (by simp)
      · exact isLive_ok _
  · split
    · exact isLive_error _ (by simp)
    · exact isLive_ok _

theorem command_isLive (line : Nat) (ts : List Token) : IsLive (p.command line ts) := by
  unfold command
  split
  · exact isLive_error _ (by simp)
  · split
    · exact isLive_map (p.literal_isLive (by simp) _) _
    · exact isLive_map (p.params_isLive _) _
    · exact isLive_error _ (by simp)

theorem action_isLive (inOn : Bool) (ts : List Token) : IsLive (p.action inOn ts) := by
  rw [action_eq]
  apply isLive_andThen (p.messageKey_isLive inOn ts)
  intro message afterKey _
  apply isLive_andThen (p.command_isLive _ afterKey)
  intro c rest _
  unfold endAction
  split
  · exact isLive_ok _
  · exact p.unexpected_isLive (by simp) rest

theorem actions_isLive (inOn : Bool) (ts : List Token) : IsLive (p.actions inOn ts) := by
  rw [actions_eq, actionsAt]
  split
  · exact isLive_ok _
  · apply isLive_andThen (p.action_isLive inOn _)
    intro x rest _h
    exact isLive_map (actions_isLive inOn rest) _
termination_by ts.length
decreasing_by exact Nat.lt_of_lt_of_le (length_action_lt _h) (length_skipNewlines_le ts)

theorem sections_isLive (state : StateBlock) (ts : List Token) : IsLive (p.sections state ts) := by
  rw [sections_eq]
  cases _hs : skipNewlines ts with
  | nil => exact isLive_ok _
  | cons t rest =>
      rw [sectionsAt]
      split
      · split
        · exact isLive_ok _
        · next kind _ =>
            split
            · intro failure heq line
              cases heq
              simp
            · apply isLive_andThen (p.actions_isLive _ rest)
              intro xs rest' _h
              exact sections_isLive _ rest'
      · exact p.unexpected_isLive (by simp) _
termination_by ts.length
decreasing_by
  have hle := length_actions_le _h
  have hskip := length_skipNewlines_le ts
  rw [_hs] at hskip
  exact Nat.lt_of_le_of_lt hle hskip

theorem stateBody_isLive (line : Nat) (ts : List Token) : IsLive (p.stateBody line ts) := by
  rw [stateBody_eq]
  apply isLive_andThen (p.word_isLive (by simp) _)
  intro name rest _
  exact p.sections_isLive _ rest

theorem states_isLive (ts : List Token) : IsLive (p.states ts) := by
  rw [states_eq]
  cases _hs : skipNewlines ts with
  | nil => exact isLive_ok _
  | cons t rest =>
      rw [statesAt]
      split
      · apply isLive_andThen (p.stateBody_isLive t.line rest)
        intro x rest' _h
        exact isLive_map (states_isLive rest') _
      · exact p.unexpected_isLive (by simp) _
termination_by ts.length
decreasing_by
  have hle := length_stateBody_le _h
  have hskip := length_skipNewlines_le ts
  rw [_hs] at hskip
  exact Nat.lt_of_le_of_lt hle hskip

theorem machineBody_isLive (line : Nat) (ts : List Token) : IsLive (p.machineBody line ts) := by
  rw [machineBody_eq]
  apply isLive_andThen (p.word_isLive (by simp) _)
  intro name rest _
  unfold machineParts
  split
  · exact p.unexpected_isLive (by simp) rest
  · apply isLive_andThen (p.action_isLive false rest)
    intro action rest' _
    exact isLive_map (p.states_isLive rest') _

theorem machine_isLive (ts : List Token) : IsLive (p.machine ts) := by
  unfold machine
  split
  · exact p.unexpected_isLive (by simp) _
  · split
    · exact p.machineBody_isLive _ _
    · exact p.unexpected_isLive (by simp) _

end Parts

/-!
## Where the parser is
-/

def StaysInside (f : List Token -> Parsed α) : Prop :=
  forall ts, (f ts).rest <:+ ts

def Advances (f : List Token -> Parsed α) : Prop :=
  forall ts a rest, f ts = .ok (a, rest) -> exists taken, taken ≠ [] ∧ ts = taken ++ rest

theorem StaysInside.advances {f : List Token -> Parsed α} (h : StaysInside f)
    (hless : forall {ts a rest}, f ts = .ok (a, rest) -> rest.length < ts.length) :
    Advances f := by
  intro ts a rest hok
  have hsuffix := h ts
  rw [hok] at hsuffix
  rcases hsuffix with ⟨taken, htaken⟩
  refine ⟨taken, ?_, htaken.symm⟩
  rintro rfl
  have hlt := hless hok
  rw [← htaken] at hlt
  exact Nat.lt_irrefl _ hlt

/--
No part of the parser leaves the tokens.
-/
structure IsInBounds (p : Parser) : Prop where
  param : StaysInside p.param
  params : StaysInside p.params
  action : forall inOn, StaysInside (p.action inOn)
  actions : forall inOn, StaysInside (p.actions inOn)
  sections : forall state, StaysInside (p.sections state)
  stateBody : forall line, StaysInside (p.stateBody line)
  states : StaysInside p.states
  machineBody : forall line, StaysInside (p.machineBody line)
  machine : StaysInside p.machine

theorem isInBounds (p : Parser) : p.IsInBounds where
  param ts := (param_isLocal p p rfl ts).suffix
  params ts := (params_isLocal p p rfl ts).suffix
  action inOn ts := (action_isLocal p p rfl inOn ts).suffix
  actions inOn ts := (actions_isLocal p p rfl inOn ts).suffix
  sections state ts := (sections_isLocal p p rfl state ts).suffix
  stateBody line ts := (stateBody_isLocal p p rfl line ts).suffix
  states ts := (states_isLocal p p rfl ts).suffix
  machineBody line ts := (machineBody_isLocal p p rfl line ts).suffix
  machine ts := (machine_isLocal p p rfl ts).suffix

end Parser

/-!
## Keys of messages
-/

/--
The actions of message sections have a key, and no other actions have one.
-/
structure Script.IsKeyed (s : Script) : Prop where
  first : s.action.message = none
  sections : forall state, state ∈ s.states -> forall kind block, state.get? kind = some block ->
    forall a, a ∈ block.actions -> (a.message.isSome = true <-> kind = .on)

namespace Grammar

variable {options : Options}

theorem IsAction.isSome_message {inOn : Bool} {ts rest : List Token} {a : ActionLine}
    (h : IsAction options inOn ts rest a) : a.message.isSome = inOn := by
  cases h with
  | keyed => rfl
  | plain => rfl

theorem AreActions.isSome_message {inOn : Bool} {ts rest : List Token} {as : List ActionLine}
    (h : AreActions options inOn ts rest as) {a : ActionLine} (ha : a ∈ as) :
    a.message.isSome = inOn := by
  induction h with
  | nil => cases ha
  | cons _ haction _ ih =>
      rcases List.mem_cons.mp ha with rfl | hlater
      · exact haction.isSome_message
      · exact ih hlater

theorem AreSections.isSome_message {ts rest : List Token}
    {sections : List (SectionKind × Block)} (h : AreSections options ts rest sections)
    {kind : SectionKind} {block : Block} (hblock : (kind, block) ∈ sections) {a : ActionLine}
    (ha : a ∈ block.actions) : a.message.isSome = (kind == .on) := by
  induction h with
  | nil => cases hblock
  | cons _ _ hactions _ ih =>
      rcases List.mem_cons.mp hblock with heq | hlater
      · cases heq
        exact hactions.isSome_message ha
      · exact ih hlater

theorem get?_stateOf (line : Nat) (name : String) (sections : List (SectionKind × Block))
    (kind : SectionKind) : (stateOf line name sections).get? kind = sections.lookup kind := by
  cases kind with
  | enter | exit | run | on => rfl

theorem IsState.isSome_message {ts rest : List Token} {s : StateBlock}
    (h : IsState options ts rest s) {kind : SectionKind} {block : Block}
    (hblock : s.get? kind = some block) {a : ActionLine} (ha : a ∈ block.actions) :
    a.message.isSome = (kind == .on) := by
  cases h with
  | mk _ _ _ hsections _ =>
      rw [get?_stateOf] at hblock
      exact hsections.isSome_message (mem_of_lookup_eq_some hblock) ha

theorem AreStates.exists_isState {ts rest : List Token} {ss : List StateBlock}
    (h : AreStates options ts rest ss) {s : StateBlock} (hs : s ∈ ss) :
    exists us rest, IsState options us rest s := by
  induction h with
  | nil => cases hs
  | cons _ hstate _ ih =>
      rcases List.mem_cons.mp hs with rfl | hlater
      · exact ⟨_, _, hstate⟩
      · exact ih hlater

theorem IsFile.isKeyed {ts : List Token} {script : Script} (h : IsFile options ts script) :
    script.IsKeyed := by
  cases h with
  | mk _ _ _ _ haction hstates _ =>
      constructor
      · cases haction with
        | plain => rfl
      · intro state hstate kind block hblock a ha
        rcases hstates.exists_isState hstate with ⟨_, _, hderived⟩
        rw [hderived.isSome_message hblock ha, beq_iff_eq]

end Grammar

theorem StateBlock.get?_mapParams (f : Param -> Param) (s : StateBlock) (kind : SectionKind) :
    (s.mapParams f).get? kind = (s.get? kind).map (Block.mapParams f) := by
  cases kind with
  | enter | exit | run | on => rfl

theorem Script.IsKeyed.mapParams {s : Script} (h : s.IsKeyed) (f : Param -> Param) :
    (s.mapParams f).IsKeyed := by
  constructor
  · exact h.first
  · intro state hstate kind block hblock a ha
    rcases List.mem_map.mp hstate with ⟨old, hold, rfl⟩
    rw [StateBlock.get?_mapParams] at hblock
    rcases Option.map_eq_some_iff.mp hblock with ⟨b, hb, rfl⟩
    rcases List.mem_map.mp ha with ⟨x, hx, rfl⟩
    exact h.sections old hold kind b hb x hx

/-!
## Keys of handlers
-/

section Handlers

variable {σ : Type} (options : Options) (registry : Registry σ)

/--
The state with its message handlers, with a given key in place of missing ones.
-/
def ActionLine.buildHandlersOr (fallback : String) :
    List String -> State σ -> List ActionLine -> Except CompileError (State σ)
  | _, s, [] => .ok s
  | keys, s, a :: rest =>
      let key := a.message.getD fallback
      if key ∈ keys then .error (.duplicateMessage a.line key)
      else
        match a.build options registry with
        | .error e => .error e
        | .ok action => buildHandlersOr fallback (key :: keys) (s.addHandler key action) rest

theorem ActionLine.buildHandlersOr_eq {fallback : String} {as : List ActionLine}
    (h : forall a, a ∈ as -> a.message.isSome = true ∨ fallback = "")
    (keys : List String) (s : State σ) :
    buildHandlersOr options registry fallback keys s as =
      buildHandlers options registry keys s as := by
  induction as generalizing keys s with
  | nil => rfl
  | cons a rest ih =>
      have hkey : a.message.getD fallback = a.message.getD "" := by
        rcases h a List.mem_cons_self with hsome | rfl
        · rcases Option.isSome_iff_exists.mp hsome with ⟨key, hkey⟩
          rw [hkey, Option.getD_some, Option.getD_some]
        · rfl
      have hrest := ih fun b hb => h b (List.mem_cons_of_mem _ hb)
      rw [buildHandlersOr, buildHandlers, hkey]
      cases a.build options registry with
      | error e => rfl
      | ok action => simp only [hrest]

theorem Script.IsKeyed.buildHandlersOr_eq {s : Script} (h : s.IsKeyed) {state : StateBlock}
    (hstate : state ∈ s.states) (fallback : String) (keys : List String) (built : State σ) :
    ActionLine.buildHandlersOr options registry fallback keys built (Block.actionsOf state.on) =
      ActionLine.buildHandlers options registry keys built (Block.actionsOf state.on) := by
  apply ActionLine.buildHandlersOr_eq
  intro a ha
  cases hblock : state.on with
  | none =>
      rw [hblock] at ha
      cases ha
  | some block =>
      rw [hblock] at ha
      exact Or.inl ((h.sections state hstate .on block hblock a ha).mpr rfl)

end Handlers

/--
No tokens bring up the faults of a missing parameter.  Parameters and actions take at least one
token each, and no part of the parser leaves the tokens.  In the scripts that the parser gives, the
actions of message sections have a key and no others do, and resolving keeps this, so no handler
is built under the empty key that stands in for a missing one.
-/
theorem defensive_branches_are_dead (σ : Type) (options : Options) (ts : List Token) :
    (forall failure, parseTokens options ts = .error failure -> failure.error.IsLive) ∧
      (forall (p : Parser) inOn, Parser.Advances (p.action inOn)) ∧
      (forall p : Parser, Parser.Advances p.param) ∧
      (forall p : Parser, p.IsInBounds) ∧
      Parser.StaysInside (parseTokens options) ∧
      (forall script rest, parseTokens options ts = .ok (script, rest) ->
        script.IsKeyed ∧
          forall tree,
            tree = script ∨ (exists names told, (script.resolve names).1 = .ok (tree, told)) ->
            tree.IsKeyed ∧
              forall state, state ∈ tree.states ->
              forall (building : Options) (registry : Registry σ) fallback keys built,
                ActionLine.buildHandlersOr building registry fallback keys built
                    (Block.actionsOf state.on) =
                  ActionLine.buildHandlers building registry keys built
                    (Block.actionsOf state.on)) ∧
      forall (building : Options) (registry : Registry σ) keys built lines,
        ActionLine.buildHandlersOr building registry "" keys built lines =
          ActionLine.buildHandlers building registry keys built lines := by
  refine ⟨Parser.machine_isLive _ ts, fun p inOn => ?_, fun p => ?_, Parser.isInBounds,
    fun us => (parseTokens_isLocal options us).suffix, ?_, ?_⟩
  · exact (p.isInBounds.action inOn).advances Parser.length_action_lt
  · exact p.isInBounds.param.advances Parser.length_param_lt
  · intro script rest hparse
    have hkeyed : script.IsKeyed := (Grammar.isFile_of_machine hparse).isKeyed
    refine ⟨hkeyed, fun tree htree => ?_⟩
    have htree : tree.IsKeyed := by
      rcases htree with rfl | ⟨names, told, hresolve⟩
      · exact hkeyed
      · rcases Script.isResolvable_of_resolve hresolve with ⟨_, rfl⟩
        exact hkeyed.mapParams _
    refine ⟨htree, fun state hstate building registry fallback keys built => ?_⟩
    exact htree.buildHandlersOr_eq building registry hstate fallback keys built
  · intro building registry keys built lines
    exact ActionLine.buildHandlersOr_eq building registry (fun _ _ => Or.inr rfl) keys built

/--
A row of tokens that ends in the middle of a parameter, and one with a message section, in which
the handlers are the same whatever stands in for a missing key.
-/
theorem defensive_branches_are_dead_cut_off :
    let machine : Token := ⟨.keyword .machine, 0, 8, 1, "@machine"⟩
    let name : Token := ⟨.word, 9, 1, 1, "m"⟩
    let go : Token := ⟨.word, 11, 2, 1, "go"⟩
    let arrow : Token := ⟨.operator .transition, 14, 2, 1, "->"⟩
    let state : Token := ⟨.keyword .state, 17, 6, 2, "@state"⟩
    let on : Token := ⟨.keyword .on, 24, 3, 3, "@on"⟩
    let key : Token := ⟨.quoted, 29, 1, 4, "k"⟩
    let colon : Token := ⟨.operator .assign, 31, 1, 4, ":"⟩
    let fault := CompileError.malformed 1 (.targetExpected .endOfInput)
    let line : ActionLine := { line := 4, name := "go", message := some "k", params := [] }
    parseTokens {} [machine, name, go, arrow] = .error ⟨fault, []⟩ ∧ fault.IsLive ∧
      exists script, parseTokens {} [machine, name, go, state, name, on, key, colon, go] =
          .ok (script, []) ∧
        script.states.map StateBlock.on = [some ⟨3, [line]⟩] ∧ script.IsKeyed ∧
        forall state, state ∈ script.states -> forall (registry : Registry Unit) fallback built,
          ActionLine.buildHandlersOr {} registry fallback [] built (Block.actionsOf state.on) =
            ActionLine.buildHandlers {} registry [] built (Block.actionsOf state.on) := by
  intro machine name go arrow state on key colon fault line
  have hfault : parseTokens {} [machine, name, go, arrow] = .error ⟨fault, []⟩ := by
    decide +kernel
  have hlive := (defensive_branches_are_dead Unit {} _).1 _ hfault
  have heval : (parseTokens {} [machine, name, go, state, name, on, key, colon, go]).toOption.map
      (fun parsed => (parsed.1.states.map StateBlock.on, parsed.2)) =
        some ([some ⟨3, [line]⟩], []) := by
    decide +kernel
  rcases exists_of_toOption_map_eq_some heval with ⟨⟨script, rest⟩, hscript, hon⟩
  rcases Prod.mk.inj hon with ⟨hstates, rfl⟩
  have hparsed := (defensive_branches_are_dead Unit {} _).2.2.2.2.2.1 _ _ hscript
  refine ⟨hfault, hlive, script, hscript, hstates, hparsed.1, ?_⟩
  intro block hblock registry fallback built
  exact (hparsed.2 script (Or.inl rfl)).2 block hblock {} registry fallback [] built

end BehaviorScript

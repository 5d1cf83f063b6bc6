import BehaviorScript.Proofs.Parsing

/-!
# How far the parser looks ahead

The parser decides by the tokens that it takes and by the two tokens behind them.  So its result
is the same for all lists of tokens that agree up to two tokens past the place where it ends, and
an error is reported in the same words whatever follows it.

Two runs are compared, on two lists of tokens.  The parsers of the two runs may report faults at
the end of the tokens on different lines: such a fault does not have two tokens behind it.
-/

namespace BehaviorScript

variable {α β : Type}

/-!
## Results and what follows them
-/

namespace Parsed

def rest : Parsed α -> List Token
  | .error failure => failure.rest
  | .ok (_, rest) => rest

def setRest (r : Parsed α) (us : List Token) : Parsed α :=
  match r with
  | .error failure => .error ⟨failure.error, us⟩
  | .ok (a, _) => .ok (a, us)

end Parsed

namespace Parser

def BeginAlike (ts ts' : List Token) : Prop :=
  exists x y us us', ts = x :: y :: us ∧ ts' = x :: y :: us'

namespace BeginAlike

variable {ts ts' : List Token}

theorem append_left (h : BeginAlike ts ts') (front : List Token) :
    BeginAlike (front ++ ts) (front ++ ts') := by
  rcases h with ⟨x, y, us, us', rfl, rfl⟩
  cases front with
  | nil => exact ⟨x, y, us, us', rfl, rfl⟩
  | cons t front =>
      cases front with
      | nil => exact ⟨t, x, y :: us, y :: us', rfl, rfl⟩
      | cons u front => exact ⟨t, u, _, _, rfl, rfl⟩

theorem of_take (h : 2 ≤ ts.length) (us : List Token) : BeginAlike ts (ts.take 2 ++ us) := by
  rcases ts with _ | ⟨x, _ | ⟨y, ts⟩⟩
  · exact absurd h (by decide)
  · exact absurd h (Nat.not_succ_le_self 1)
  · exact ⟨x, y, ts, us, rfl, rfl⟩

theorem next?_eq (h : BeginAlike ts ts') : Grammar.next? ts' = Grammar.next? ts := by
  rcases h with ⟨x, y, us, us', rfl, rfl⟩
  rfl

theorem exists_cons {t : Token} (h : BeginAlike (t :: ts) ts') : exists us, ts' = t :: us := by
  rcases h with ⟨x, y, us, us', hts, rfl⟩
  cases hts
  exact ⟨_, rfl⟩

theorem exists_cons_cons {x y : Token} (h : BeginAlike (x :: y :: ts) ts') :
    exists us, ts' = x :: y :: us := by
  rcases h with ⟨x, y, us, us', hts, rfl⟩
  cases hts
  exact ⟨us', rfl⟩

theorem two_le_length (h : BeginAlike ts ts') : 2 ≤ ts.length := by
  rcases h with ⟨x, y, us, us', rfl, _⟩
  exact Nat.le_add_left 2 us.length

theorem atActionEnd_eq (h : BeginAlike ts ts') : atActionEnd ts' = atActionEnd ts := by
  rcases h with ⟨x, y, us, us', rfl, rfl⟩
  rfl

theorem atBlockEnd_eq (h : BeginAlike ts ts') : atBlockEnd ts' = atBlockEnd ts := by
  rcases h with ⟨x, y, us, us', rfl, rfl⟩
  rfl

theorem lineAt_eq (h : BeginAlike ts ts') (p q : Parser) : q.lineAt ts' = p.lineAt ts := by
  rcases h with ⟨x, y, us, us', rfl, rfl⟩
  rfl

theorem ofTokens_eq (h : BeginAlike ts ts') : Found.ofTokens ts' = Found.ofTokens ts := by
  rcases h with ⟨x, y, us, us', rfl, rfl⟩
  rfl

end BeginAlike

/--
The first parse of the tokens and the second parse of any others end in the same way at the same
place, provided that the tokens agree up to two tokens past that place.
-/
structure IsLocal (f g : List Token -> Parsed α) (ts : List Token) : Prop where
  suffix : (f ts).rest <:+ ts
  same : forall taken us, ts = taken ++ (f ts).rest -> BeginAlike (f ts).rest us ->
    g (taken ++ us) = (f ts).setRest us

/-!
## Parses put together
-/

def andThen (f : List Token -> Parsed α) (next : α -> List Token -> Parsed β) (ts : List Token) :
    Parsed β :=
  match f ts with
  | .error failure => .error failure
  | .ok (a, rest) => next a rest

namespace IsLocal

theorem short {f g : List Token -> Parsed α} {ts : List Token} (hsuffix : (f ts).rest <:+ ts)
    (hshort : ts.length < 2) : IsLocal f g ts := by
  constructor
  · exact hsuffix
  · intro taken us _ halike
    have hlong := Nat.le_trans halike.two_le_length hsuffix.length_le
    exact absurd hshort (Nat.not_lt.mpr hlong)

theorem after {f g F G : List Token -> Parsed α} {front ts : List Token}
    (hf : f (front ++ ts) = F ts)
    (hg : forall us, BeginAlike ts us -> g (front ++ us) = G us) (h : IsLocal F G ts) :
    IsLocal f g (front ++ ts) := by
  constructor
  · rw [hf]
    exact h.suffix.trans (List.suffix_append front ts)
  · intro taken us htaken halike
    rw [hf] at htaken halike ⊢
    rcases h.suffix with ⟨inner, hinner⟩
    have hfront : front ++ inner = taken := by
      apply (List.append_left_inj (F ts).rest).mp
      rw [List.append_assoc, hinner, htaken]
    have hbegin : BeginAlike ts (inner ++ us) := hinner ▸ halike.append_left inner
    rw [← hfront, List.append_assoc, hg _ hbegin]
    exact h.same inner us hinner.symm halike

theorem now {f g F G : List Token -> Parsed α} {ts : List Token} (hf : f ts = F ts)
    (hg : forall us, BeginAlike ts us -> g us = G us) (h : IsLocal F G ts) : IsLocal f g ts := by
  show IsLocal f g ([] ++ ts)
  exact after hf hg h

theorem look {f g F G : List Token -> Parsed α} {t : Token} {ts : List Token}
    (hf : forall us, f (t :: us) = F (t :: us)) (hg : forall us, g (t :: us) = G (t :: us))
    (h : IsLocal F G (t :: ts)) : IsLocal f g (t :: ts) := by
  apply now (hf ts) _ h
  intro us halike
  rcases halike.exists_cons with ⟨us, rfl⟩
  exact hg us

theorem cons {f g F G : List Token -> Parsed α} {t : Token} {ts : List Token}
    (hf : forall us, f (t :: us) = F us) (hg : forall us, g (t :: us) = G us)
    (h : IsLocal F G ts) : IsLocal f g (t :: ts) := by
  show IsLocal f g ([t] ++ ts)
  exact after (hf ts) (fun us _ => hg us) h

theorem choose {c : List Token -> Bool} {f g F G : List Token -> Parsed α} {ts : List Token}
    (hc : forall us, BeginAlike ts us -> c us = c ts) (hf : IsLocal f g ts)
    (hF : IsLocal F G ts) :
    IsLocal (fun ts => if c ts then f ts else F ts) (fun ts => if c ts then g ts else G ts) ts := by
  by_cases hts : c ts = true
  · apply now (if_pos hts) _ hf
    exact fun us halike => if_pos ((hc us halike).trans hts)
  · apply now (if_neg hts) _ hF
    exact fun us halike => if_neg fun hus => hts ((hc us halike).symm.trans hus)

theorem give (a : α) (ts : List Token) :
    IsLocal (fun ts => .ok (a, ts)) (fun ts => .ok (a, ts)) ts := by
  constructor
  · exact List.suffix_refl ts
  · intro taken us htaken _
    have hnil : taken = [] := List.append_left_eq_self.mp htaken.symm
    rw [hnil]
    rfl

theorem fail (e : CompileError) (ts : List Token) :
    IsLocal (fun ts => (.error ⟨e, ts⟩ : Parsed α)) (fun ts => .error ⟨e, ts⟩) ts := by
  constructor
  · exact List.suffix_refl ts
  · intro taken us htaken _
    have hnil : taken = [] := List.append_left_eq_self.mp htaken.symm
    rw [hnil]
    rfl

theorem bind {f g : List Token -> Parsed α} {F G : α -> List Token -> Parsed β} {ts : List Token}
    (hf : IsLocal f g ts)
    (hF : forall a rest, f ts = .ok (a, rest) -> IsLocal (F a) (G a) rest) :
    IsLocal (andThen f F) (andThen g G) ts := by
  cases hr : f ts with
  -- a failure of the first part is the failure of the whole, at the same place
  | error failure =>
      have hthen : andThen f F ts = .error failure := by
        rw [andThen, hr]
      constructor
      · have hsuffix := hf.suffix
        rw [hr] at hsuffix
        rw [hthen]
        exact hsuffix
      · intro taken us htaken halike
        have hsame := hf.same taken us
        rw [hr] at hsame
        rw [hthen] at htaken halike ⊢
        rw [andThen, hsame htaken halike]
        rfl
  | ok x =>
      rcases x with ⟨a, rest⟩
      have hthen : andThen f F ts = F a rest := by
        rw [andThen, hr]
      rcases hf.suffix with ⟨front, hfront⟩
      rw [hr] at hfront
      have hfront : front ++ rest = ts := hfront
      rw [← hfront]
      -- the second run takes the same front, because what is left still agrees in two tokens
      apply after (F := F a) (G := G a)
      · rw [hfront]
        exact hthen
      · intro us halike
        have hsame := hf.same front us
        rw [hr] at hsame
        rw [andThen, hsame hfront.symm halike]
        rfl
      · exact hF a rest hr

theorem map {f g : List Token -> Parsed α} {ts : List Token} (hf : IsLocal f g ts) (k : α -> β) :
    IsLocal (fun ts => (f ts).map fun (a, rest) => (k a, rest))
      (fun ts => (g ts).map fun (a, rest) => (k a, rest)) ts := by
  have hthen (f : List Token -> Parsed α) (ts : List Token) :
      ((f ts).map fun (a, rest) => (k a, rest)) =
        andThen f (fun a rest => .ok (k a, rest)) ts := by
    rw [andThen]
    cases f ts with
    | error failure => rfl
    | ok x => rfl
  apply now (hthen f ts) (fun us _ => hthen g us)
  exact hf.bind fun a rest _ => give (k a) rest

theorem next?_skipNewlines (ts : List Token) :
    Grammar.next? (skipNewlines ts) ≠ some .newline := by
  have hhead := List.head?_dropWhile_not (fun t : Token => t.kind == .newline) ts
  intro hnext
  cases hskip : skipNewlines ts with
  | nil => simp [hskip, Grammar.next?] at hnext
  | cons t rest =>
      rw [skipNewlines] at hskip
      rw [hskip] at hhead
      simp_all [skipNewlines, Grammar.next?]

theorem skip {f g F G : List Token -> Parsed α} {ts : List Token}
    (hf : forall ts, f ts = F (skipNewlines ts)) (hg : forall ts, g ts = G (skipNewlines ts))
    (h : IsLocal F G (skipNewlines ts)) : IsLocal f g ts := by
  rcases Grammar.skipNewlines_split ts with ⟨nl, hnl, hts⟩
  have hnext := next?_skipNewlines ts
  rw [hts]
  apply after _ _ h
  · rw [hf, Grammar.skipNewlines_append hnl hnext]
  · intro us halike
    rw [← halike.next?_eq] at hnext
    rw [hg, Grammar.skipNewlines_append hnl hnext]

end IsLocal

/-!
## The parser in steps
-/

section Steps

variable (p : Parser)

theorem params_eq (ts : List Token) :
    p.params ts = if atActionEnd ts then .ok ([], ts)
      else andThen p.param (fun x rest =>
        (p.params rest).map fun (xs, rest) => (x :: xs, rest)) ts := by
  rw [params, andThen]
  split
  · rfl
  · split
    · next h => rw [h]
    · next h => rw [h]

def endAction (line : Nat) (message : Option String) (c : String × List Param)
    (rest : List Token) : Parsed ActionLine :=
  if atActionEnd rest then
    .ok ({ line := line, name := c.1, message := message, params := c.2 }, rest)
  else p.unexpected .leftover rest

theorem action_eq (inOn : Bool) (ts : List Token) :
    p.action inOn ts = andThen (p.messageKey inOn) (fun message =>
      andThen (p.command (p.lineAt ts)) (p.endAction (p.lineAt ts) message)) ts := by
  rw [action, andThen]
  cases p.messageKey inOn ts with
  | error failure => rfl
  | ok x =>
      simp only [andThen]
      cases p.command (p.lineAt ts) x.2 with
      | error failure => rfl
      | ok y => rfl

def actionsAt (inOn : Bool) (ts : List Token) : Parsed (List ActionLine) :=
  if atBlockEnd ts then .ok ([], ts)
  else andThen (p.action inOn) (fun x rest =>
    (p.actions inOn rest).map fun (xs, rest) => (x :: xs, rest)) ts

theorem actions_eq (inOn : Bool) (ts : List Token) :
    p.actions inOn ts = p.actionsAt inOn (skipNewlines ts) := by
  rw [actions, actionsAt, andThen]
  split
  · rfl
  · split
    · next h => rw [h]
    · next h => rw [h]

def sectionsAt (state : StateBlock) (ts : List Token) : Parsed StateBlock :=
  match ts with
  | [] => .ok (state, [])
  | t :: rest =>
      match t.kind with
      | .keyword k =>
          match SectionKind.ofKeyword? k with
          | none => .ok (state, t :: rest)
          | some kind =>
              if (state.get? kind).isSome then
                .error ⟨.duplicateSection t.line state.name kind, t :: rest⟩
              else
                andThen (p.actions (kind == .on))
                  (fun xs => p.sections (state.set kind ⟨t.line, xs⟩)) rest
      | _ => p.unexpected (.sectionExpected state.name) (t :: rest)

theorem sections_eq (state : StateBlock) (ts : List Token) :
    p.sections state ts = p.sectionsAt state (skipNewlines ts) := by
  rw [sections.eq_def]
  split
  · next h => rw [h, sectionsAt]
  · next t rest h =>
      rw [h, sectionsAt]
      cases t.kind with
      | keyword k =>
          simp only
          cases SectionKind.ofKeyword? k with
          | none => rfl
          | some kind =>
              simp only [andThen]
              cases p.actions (kind == .on) rest with
              | error failure => rfl
              | ok x => rfl
      | word => rfl
      | quoted => rfl
      | operator op => rfl
      | newline => rfl

def statesAt (ts : List Token) : Parsed (List StateBlock) :=
  match ts with
  | [] => .ok ([], [])
  | t :: rest =>
      if t.kind = .keyword .state then
        andThen (p.stateBody t.line) (fun x rest =>
          (p.states rest).map fun (xs, rest) => (x :: xs, rest)) rest
      else p.unexpected .stateExpected (t :: rest)

theorem states_eq (ts : List Token) : p.states ts = p.statesAt (skipNewlines ts) := by
  rw [states.eq_def]
  split
  · next h => rw [h, statesAt]
  · next t rest h =>
      rw [h, statesAt, andThen]
      cases p.stateBody t.line rest with
      | error failure => rfl
      | ok x => rfl

theorem stateBody_eq (line : Nat) (ts : List Token) :
    p.stateBody line ts = andThen (p.word .stateNameExpected)
      (fun name => p.sections { line := line, name := name.text }) (skipNewlines ts) := by
  rw [stateBody, andThen]
  cases p.word .stateNameExpected (skipNewlines ts) with
  | error failure => rfl
  | ok x => rfl

def machineParts (line : Nat) (name : Token) (ts : List Token) : Parsed Script :=
  if atActionEnd ts then p.unexpected (fun _ => .firstTransitionMissing) ts
  else andThen (p.action false) (fun action rest =>
    (p.states rest).map fun (states, rest) =>
      ({ line := line, name := name.text, action := action, states := states }, rest)) ts

theorem machineBody_eq (line : Nat) (ts : List Token) :
    p.machineBody line ts = andThen (p.word fun _ => .machineNameMissing)
      (p.machineParts line) (skipNewlines ts) := by
  rw [machineBody, andThen]
  cases p.word (fun _ => .machineNameMissing) (skipNewlines ts) with
  | error failure => rfl
  | ok x =>
      simp only [machineParts, andThen]
      cases p.action false x.2 with
      | error failure => rfl
      | ok y => rfl

def machineAt (ts : List Token) : Parsed Script :=
  match ts with
  | [] => p.unexpected .machineExpected []
  | t :: rest =>
      if t.kind = .keyword .machine then p.machineBody t.line rest
      else p.unexpected .machineExpected (t :: rest)

theorem machine_eq (ts : List Token) : p.machine ts = p.machineAt (skipNewlines ts) := by
  rw [machine]
  cases skipNewlines ts with
  | nil => rfl
  | cons t rest => rfl

end Steps

/-!
## The parts of a script
-/

section Parts

variable (p q : Parser)

theorem unexpected_isLocal (fault : Found -> ParseFault) (ts : List Token) :
    IsLocal (p.unexpected fault : List Token -> Parsed α) (q.unexpected fault) ts := by
  have hfail := IsLocal.fail (α := α) (.malformed (p.lineAt ts) (fault (Found.ofTokens ts))) ts
  apply IsLocal.now _ _ hfail
  · rfl
  · intro us halike
    rw [unexpected, halike.lineAt_eq p q, halike.ofTokens_eq]

theorem take_isLocal {f g : List Token -> Parsed Token} {accepts : Token -> Prop}
    [DecidablePred accepts] (fault : Found -> ParseFault) (hnil : (f []).rest = [])
    (hf : forall t ts, f (t :: ts) =
      if accepts t then .ok (t, ts) else p.unexpected fault (t :: ts))
    (hg : forall t ts, g (t :: ts) =
      if accepts t then .ok (t, ts) else q.unexpected fault (t :: ts))
    (ts : List Token) : IsLocal f g ts := by
  cases ts with
  | nil => exact IsLocal.short (List.suffix_nil.mpr hnil) (by decide)
  | cons t ts =>
      by_cases ht : accepts t
      · apply IsLocal.cons _ _ (IsLocal.give t ts)
        · exact fun us => (hf t us).trans (if_pos ht)
        · exact fun us => (hg t us).trans (if_pos ht)
      · apply IsLocal.look _ _ (unexpected_isLocal p q fault (t :: ts))
        · exact fun us => (hf t us).trans (if_neg ht)
        · exact fun us => (hg t us).trans (if_neg ht)

theorem literal_isLocal (fault : Found -> ParseFault) (ts : List Token) :
    IsLocal (p.literal fault) (q.literal fault) ts :=
  take_isLocal p q fault rfl (fun _ _ => rfl) (fun _ _ => rfl) ts

theorem word_isLocal (fault : Found -> ParseFault) (ts : List Token) :
    IsLocal (p.word fault) (q.word fault) ts :=
  take_isLocal p q fault rfl (fun _ _ => rfl) (fun _ _ => rfl) ts

variable (hoptions : q.options = p.options)

include hoptions

theorem value_isLocal {t : Token} {ts : List Token} {x : Param}
    (h : forall us, Grammar.next? us = Grammar.next? ts -> Grammar.IsParam p.options [t] us x) :
    IsLocal p.param q.param ([t] ++ ts) := by
  apply IsLocal.after _ _ (IsLocal.give x ts)
  · exact Grammar.param_of_isParam (h ts rfl)
  · intro us halike
    have hparam : Grammar.IsParam q.options [t] us x := by
      rw [hoptions]
      exact h us halike.next?_eq
    exact Grammar.param_of_isParam hparam

theorem param_word_isLocal {t : Token} (ht : t.kind = .word) (ts : List Token) :
    IsLocal p.param q.param ([t] ++ ts) := by
  by_cases hnext : exists op, Grammar.next? ts = some (.operator op)
  · rcases hnext with ⟨op, hop⟩
    cases ts with
    | nil => cases hop
    | cons u ts =>
        have hu : u.kind = .operator op := Option.some.inj hop
        show IsLocal p.param q.param ([t, u] ++ ts)
        apply IsLocal.after _ _ ((literal_isLocal p q (operandFault op) ts).map fun value =>
          { line := t.line, name := t.text, op := op, value := value.text })
        · simp [param, ht, hu]
        · simp [param, ht, hu]
  · apply value_isLocal p q hoptions
    intro us hus
    exact Grammar.IsParam.word ht fun k hk => hnext ⟨k, hus ▸ hk⟩

theorem param_quoted_isLocal {t : Token} (ht : t.kind = .quoted) (ts : List Token) :
    IsLocal p.param q.param ([t] ++ ts) := by
  by_cases hnext : Grammar.next? ts = some (.operator .assign)
  · have hlabel (r : Parser) (us : List Token) (hus : Grammar.next? us = Grammar.next? ts) :
        r.param ([t] ++ us) = .error ⟨.malformed t.line (.quotedLabel t.text), us⟩ := by
      rw [hnext, Grammar.next?] at hus
      simp [param, ht, hus]
    apply IsLocal.after _ _ (IsLocal.fail (.malformed t.line (.quotedLabel t.text)) ts)
    · exact hlabel p ts rfl
    · exact fun us halike => hlabel q us halike.next?_eq
  · apply value_isLocal p q hoptions
    intro us hus
    exact Grammar.IsParam.quoted ht (hus ▸ hnext)

theorem param_isLocal (ts : List Token) : IsLocal p.param q.param ts := by
  cases ts with
  | nil => exact IsLocal.short (List.suffix_refl []) (by decide)
  | cons t ts =>
      cases hkind : t.kind with
      | word => exact param_word_isLocal p q hoptions hkind ts
      | quoted => exact param_quoted_isLocal p q hoptions hkind ts
      | operator op =>
          cases op with
          | assign =>
              apply IsLocal.cons _ _ (IsLocal.fail (.malformed t.line .strayColon) ts)
              · simp [param, hkind]
              · simp [param, hkind]
          | transition =>
              apply IsLocal.cons _ _ ((literal_isLocal p q .targetExpected ts).map fun target =>
                { line := t.line, name := p.options.defaultParam, op := .transition,
                  value := target.text })
              · simp [param, hkind]
              · simp [param, hkind, hoptions]
      | _ =>
          apply IsLocal.cons _ _ (IsLocal.fail (.malformed t.line .paramExpected) ts)
          · simp [param, hkind]
          · simp [param, hkind]

theorem params_isLocal (ts : List Token) : IsLocal p.params q.params ts := by
  have hmore := (param_isLocal p q hoptions ts).bind fun x rest (_h : p.param ts = .ok (x, rest)) =>
    (params_isLocal rest).map (List.cons x)
  have hends := IsLocal.choose (fun us halike => halike.atActionEnd_eq) (IsLocal.give [] ts) hmore
  exact IsLocal.now (p.params_eq ts) (fun us _ => q.params_eq us) hends
termination_by ts.length
decreasing_by exact length_param_lt _h

omit hoptions in
theorem messageKey_isLocal (inOn : Bool) (ts : List Token) :
    IsLocal (p.messageKey inOn) (q.messageKey inOn) ts := by
  rcases ts with _ | ⟨key, _ | ⟨colon, ts⟩⟩
  · cases inOn with
    | false => exact IsLocal.short (List.suffix_refl []) (by decide)
    | true => exact IsLocal.short (List.suffix_refl []) (by decide)
  · cases inOn with
    | false => exact IsLocal.short (List.suffix_refl [key]) (Nat.lt_succ_self 1)
    | true => exact IsLocal.short (List.suffix_refl [key]) (Nat.lt_succ_self 1)
  · by_cases hkey : key.kind.isLiteral ∧ colon.kind = .operator .assign
    · cases inOn with
      | true =>
          show IsLocal _ _ ([key, colon] ++ ts)
          apply IsLocal.after _ _ (IsLocal.give (some key.text) ts)
          · simp [messageKey, hkey]
          · simp [messageKey, hkey]
      | false =>
          apply IsLocal.now _ _ (IsLocal.fail (.malformed key.line (.keyOutsideOn key.text)) _)
          · simp [messageKey, hkey]
          · intro us halike
            rcases halike.exists_cons_cons with ⟨us, rfl⟩
            simp [messageKey, hkey]
    · cases inOn with
      | true =>
          apply IsLocal.now _ _ (IsLocal.fail (.malformed key.line .keyMissing) _)
          · simp only [messageKey, if_neg hkey, if_true]
          · intro us halike
            rcases halike.exists_cons_cons with ⟨us, rfl⟩
            simp only [messageKey, if_neg hkey, if_true]
      | false =>
          apply IsLocal.now _ _ (IsLocal.give none _)
          · simp only [messageKey, if_neg hkey]
            rfl
          · intro us halike
            rcases halike.exists_cons_cons with ⟨us, rfl⟩
            simp only [messageKey, if_neg hkey]
            rfl

theorem command_isLocal (line : Nat) (ts : List Token) :
    IsLocal (p.command line) (q.command line) ts := by
  cases ts with
  | nil => exact IsLocal.short (List.suffix_refl []) (by decide)
  | cons t ts =>
      have hother (h : forall (r : Parser) us, r.command line (t :: us) =
          .error ⟨.malformed line (.actionExpected (Found.ofTokens [t])), t :: us⟩) :
          IsLocal (p.command line) (q.command line) (t :: ts) :=
        IsLocal.look (h p) (h q) (IsLocal.fail _ _)
      cases hkind : t.kind with
      | word =>
          apply IsLocal.cons _ _ ((params_isLocal p q hoptions ts).map fun xs => (t.text, xs))
          · simp [command, hkind]
          · simp [command, hkind]
      | operator op =>
          cases op with
          | transition =>
              apply IsLocal.cons _ _ ((literal_isLocal p q .targetExpected ts).map fun target =>
                (p.options.transitionAction,
                  [{ line := target.line, name := p.options.defaultParam, op := .transition,
                     value := target.text }]))
              · simp [command, hkind]
              · simp [command, hkind, hoptions]
          | assign => exact hother fun r us => by simp [command, hkind, Found.ofTokens]
      | _ => exact hother fun r us => by simp [command, hkind, Found.ofTokens]

omit hoptions in
theorem endAction_isLocal (line : Nat) (message : Option String) (c : String × List Param)
    (ts : List Token) : IsLocal (p.endAction line message c) (q.endAction line message c) ts := by
  apply IsLocal.choose fun us halike => halike.atActionEnd_eq
  · exact IsLocal.give _ ts
  · exact unexpected_isLocal p q .leftover ts

theorem action_isLocal (inOn : Bool) (ts : List Token) :
    IsLocal (p.action inOn) (q.action inOn) ts := by
  have hparts := (messageKey_isLocal p q inOn ts).bind fun message rest _ =>
    (command_isLocal p q hoptions (p.lineAt ts) rest).bind fun c rest _ =>
      endAction_isLocal p q (p.lineAt ts) message c rest
  apply IsLocal.now _ _ hparts
  · exact p.action_eq inOn ts
  · intro us halike
    rw [action_eq, halike.lineAt_eq p q]

theorem actions_isLocal (inOn : Bool) (ts : List Token) :
    IsLocal (p.actions inOn) (q.actions inOn) ts := by
  apply IsLocal.skip (p.actions_eq inOn) (q.actions_eq inOn)
  apply IsLocal.choose fun us halike => halike.atBlockEnd_eq
  · exact IsLocal.give [] _
  · exact (action_isLocal p q hoptions inOn _).bind fun x rest _h =>
      (actions_isLocal inOn rest).map (List.cons x)
termination_by ts.length
decreasing_by exact Nat.lt_of_lt_of_le (length_action_lt _h) (length_skipNewlines_le ts)

theorem sections_isLocal (state : StateBlock) (ts : List Token) :
    IsLocal (p.sections state) (q.sections state) ts := by
  apply IsLocal.skip (p.sections_eq state) (q.sections_eq state)
  cases _hs : skipNewlines ts with
  | nil => exact IsLocal.short (List.suffix_refl []) (by decide)
  | cons t rest =>
      cases hkind : t.kind with
      | keyword k =>
          cases hsection : SectionKind.ofKeyword? k with
          | none =>
              apply IsLocal.look _ _ (IsLocal.give state _)
              · simp [sectionsAt, hkind, hsection]
              · simp [sectionsAt, hkind, hsection]
          | some kind =>
              by_cases hseen : (state.get? kind).isSome = true
              · apply IsLocal.look _ _
                  (IsLocal.fail (.duplicateSection t.line state.name kind) _)
                · simp [sectionsAt, hkind, hsection, hseen]
                · simp [sectionsAt, hkind, hsection, hseen]
              · have hmore := (actions_isLocal p q hoptions (kind == .on) rest).bind
                  fun xs rest' _h => sections_isLocal (state.set kind ⟨t.line, xs⟩) rest'
                apply IsLocal.cons _ _ hmore
                · simp [sectionsAt, hkind, hsection, hseen]
                · simp [sectionsAt, hkind, hsection, hseen]
      | _ =>
          apply IsLocal.look _ _ (unexpected_isLocal p q (.sectionExpected state.name) _)
          · simp [sectionsAt, hkind]
          · simp [sectionsAt, hkind]
termination_by ts.length
decreasing_by
  have hle := length_actions_le _h
  have hskip := length_skipNewlines_le ts
  rw [_hs] at hskip
  exact Nat.lt_of_le_of_lt hle hskip

theorem stateBody_isLocal (line : Nat) (ts : List Token) :
    IsLocal (p.stateBody line) (q.stateBody line) ts := by
  apply IsLocal.skip (p.stateBody_eq line) (q.stateBody_eq line)
  exact (word_isLocal p q .stateNameExpected _).bind fun name rest _ =>
    sections_isLocal p q hoptions { line := line, name := name.text } rest

theorem states_isLocal (ts : List Token) : IsLocal p.states q.states ts := by
  apply IsLocal.skip p.states_eq q.states_eq
  cases _hs : skipNewlines ts with
  | nil => exact IsLocal.short (List.suffix_refl []) (by decide)
  | cons t rest =>
      by_cases hkind : t.kind = .keyword .state
      · apply IsLocal.cons (fun _ => if_pos hkind) (fun _ => if_pos hkind)
        exact (stateBody_isLocal p q hoptions t.line rest).bind fun x rest' _h =>
          (states_isLocal rest').map (List.cons x)
      · apply IsLocal.look (fun _ => if_neg hkind) (fun _ => if_neg hkind)
        exact unexpected_isLocal p q .stateExpected _
termination_by ts.length
decreasing_by
  have hle := length_stateBody_le _h
  have hskip := length_skipNewlines_le ts
  rw [_hs] at hskip
  exact Nat.lt_of_le_of_lt hle hskip

theorem machineParts_isLocal (line : Nat) (name : Token) (ts : List Token) :
    IsLocal (p.machineParts line name) (q.machineParts line name) ts := by
  apply IsLocal.choose fun us halike => halike.atActionEnd_eq
  · exact unexpected_isLocal p q (fun _ => .firstTransitionMissing) ts
  · exact (action_isLocal p q hoptions false ts).bind fun action rest _ =>
      (states_isLocal p q hoptions rest).map fun states =>
        ({ line := line, name := name.text, action := action, states := states } : Script)

theorem machineBody_isLocal (line : Nat) (ts : List Token) :
    IsLocal (p.machineBody line) (q.machineBody line) ts := by
  apply IsLocal.skip (p.machineBody_eq line) (q.machineBody_eq line)
  exact (word_isLocal p q (fun _ => .machineNameMissing) _).bind fun name rest _ =>
    machineParts_isLocal p q hoptions line name rest

theorem machine_isLocal (ts : List Token) : IsLocal p.machine q.machine ts := by
  apply IsLocal.skip p.machine_eq q.machine_eq
  cases skipNewlines ts with
  | nil => exact IsLocal.short (List.suffix_refl []) (by decide)
  | cons t rest =>
      by_cases hkind : t.kind = .keyword .machine
      · apply IsLocal.cons (fun _ => if_pos hkind) (fun _ => if_pos hkind)
        exact machineBody_isLocal p q hoptions t.line rest
      · apply IsLocal.look (fun _ => if_neg hkind) (fun _ => if_neg hkind)
        exact unexpected_isLocal p q .machineExpected _

end Parts

end Parser

/-!
## Faults
-/

/--
A parse is local although faults at the end of the tokens are reported on the line of the last one.
-/
theorem parseTokens_isLocal (options : Options) (ts : List Token) :
    Parser.IsLocal (parseTokens options) (parseTokens options) ts := by
  have hlocal (line line' : Nat) :=
    Parser.machine_isLocal ⟨options, line⟩ ⟨options, line'⟩ rfl ts
  constructor
  · exact (hlocal _ 1).suffix
  · exact fun taken us => (hlocal _ _).same taken us

namespace ParseFailure

/--
The number of tokens that had been taken when the parse of the tokens gave up.
-/
def cursor (failure : ParseFailure) (ts : List Token) : Nat :=
  ts.length - failure.rest.length

theorem drop_cursor {failure : ParseFailure} {ts : List Token} (h : failure.rest <:+ ts) :
    ts.drop (failure.cursor ts) = failure.rest :=
  (List.suffix_iff_eq_drop.mp h).symm

theorem cursor_append (error : CompileError) (taken us : List Token) :
    cursor ⟨error, us⟩ (taken ++ us) = taken.length := by
  rw [cursor, List.length_append, Nat.add_sub_cancel]

end ParseFailure

/--
The first fault is reported in the same words, whatever follows the two tokens at the place where
the parse gave up.
-/
theorem first_fault_ignores_what_follows (options : Options) (ts : List Token)
    (failure : ParseFailure) (h : parseTokens options ts = .error failure) :
    ts.drop (failure.cursor ts) = failure.rest ∧
      (failure.cursor ts + 1 < ts.length -> forall us,
        Script.ofTokens options (ts.take (failure.cursor ts + 2) ++ us) = .error failure.error ∧
        exists again, parseTokens options (ts.take (failure.cursor ts + 2) ++ us) = .error again ∧
          again.error = failure.error ∧
          again.cursor (ts.take (failure.cursor ts + 2) ++ us) = failure.cursor ts) := by
  have hlocal := parseTokens_isLocal options ts
  have hsuffix := hlocal.suffix
  have hsame := hlocal.same (ts.take (failure.cursor ts))
  rw [h] at hsuffix hsame
  have hdrop : ts.drop (failure.cursor ts) = failure.rest := ParseFailure.drop_cursor hsuffix
  constructor
  · exact hdrop
  · intro hlook us
    have htake : ts.take (failure.cursor ts + 2) =
        ts.take (failure.cursor ts) ++ failure.rest.take 2 := by
      rw [List.take_add, hdrop]
    -- the cursor has two tokens behind it, and these are kept
    have halike : Parser.BeginAlike failure.rest (failure.rest.take 2 ++ us) := by
      apply Parser.BeginAlike.of_take
      rw [← hdrop, List.length_drop]
      exact Nat.le_sub_of_add_le' hlook
    have hagain : parseTokens options (ts.take (failure.cursor ts + 2) ++ us) =
        .error ⟨failure.error, failure.rest.take 2 ++ us⟩ := by
      rw [htake, List.append_assoc]
      apply hsame _ _ halike
      calc
        ts = ts.take (failure.cursor ts) ++ ts.drop (failure.cursor ts) :=
          (List.take_append_drop _ ts).symm
        _ = ts.take (failure.cursor ts) ++ failure.rest := by rw [hdrop]
    constructor
    · rw [Script.ofTokens, hagain]
    · refine ⟨_, hagain, rfl, ?_⟩
      rw [htake, List.append_assoc, ParseFailure.cursor_append, List.length_take]
      exact Nat.min_eq_left (Nat.sub_le _ _)

theorem first_fault_ignores_second_machine :
    let machine : Token := ⟨.keyword .machine, 0, 8, 1, "@machine"⟩
    let name : Token := ⟨.word, 9, 4, 1, "door"⟩
    let arrow : Token := ⟨.operator .transition, 14, 2, 1, "->"⟩
    let target : Token := ⟨.word, 17, 4, 1, "open"⟩
    let wide : Token := ⟨.word, 22, 4, 1, "wide"⟩
    let stop : Token := ⟨.newline, 26, 1, 1, "\n"⟩
    let state : Token := ⟨.keyword .state, 27, 6, 2, "@state"⟩
    let fault := CompileError.malformed 1 (.leftover (.text "wide"))
    parseTokens {} [machine, name, arrow, target, wide, stop, state] =
        .error ⟨fault, [wide, stop, state]⟩ ∧
      Script.ofTokens {} [machine, name, arrow, target, wide, stop, machine, name] =
        .error fault := by
  intro machine name arrow target wide stop state fault
  have hfault : parseTokens {} [machine, name, arrow, target, wide, stop, state] =
      .error ⟨fault, [wide, stop, state]⟩ := by
    decide
  have hsame := (first_fault_ignores_what_follows _ _ _ hfault).2 (by decide) [machine, name]
  exact ⟨hfault, hsame.1⟩

end BehaviorScript

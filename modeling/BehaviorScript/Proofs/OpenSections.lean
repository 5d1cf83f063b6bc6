import BehaviorScript.Proofs.AppendedStates
import BehaviorScript.Proofs.Lookahead
import BehaviorScript.Proofs.Tally

/-!
# Lines put into a section

When a script has been read up to a line inside a section, all that matters of the lines above is
the states before, the sections of the state so far, and the actions of the section so far.  What
follows is read on from these.  So a line that is put into a section becomes one more action of the
section, at its place, and the rest of the script is as it was.
-/

namespace BehaviorScript

variable {α β : Type}

/-!
## Parses up to a token
-/

def Token.IsBoundary (t : Token) : Prop :=
  t.kind = .newline ∨ exists k, t.kind = .keyword k

theorem AreInner.split {us ts more rest : List Token} {t : Token} (hus : AreInner us)
    (ht : t.IsBoundary) (h : ts ++ t :: more = us ++ rest) :
    exists front, ts = us ++ front ∧ rest = front ++ t :: more := by
  rcases List.append_eq_append_iff.mp h with ⟨between, hus', hrest⟩ | ⟨front, hts, hrest⟩
  · cases between with
    | nil => exact ⟨[], by simpa using hus'.symm, by simpa using hrest.symm⟩
    | cons u between =>
        -- the token itself would be part of the line
        cases hrest
        have hinner := hus t (by simp [hus'])
        rcases ht with hnewline | ⟨k, hk⟩
        · exact absurd hnewline hinner.2
        · exact absurd hk (hinner.1 k)
  · exact ⟨front, hts, hrest⟩

namespace Parser

theorem andThen_eq_ok {f : List Token -> Parsed α} {next : α -> List Token -> Parsed β}
    {ts rest : List Token} {b : β} (h : andThen f next ts = .ok (b, rest)) :
    exists a between, f ts = .ok (a, between) ∧ next a between = .ok (b, rest) := by
  rw [andThen] at h
  split at h
  · cases h
  · next a between hf => exact ⟨a, between, hf, h⟩

theorem andThen_of_ok {f : List Token -> Parsed α} {next : α -> List Token -> Parsed β}
    {ts between : List Token} {a : α} (h : f ts = .ok (a, between)) :
    andThen f next ts = next a between := by
  rw [andThen, h]

theorem andThen_of_map {f g : List Token -> Parsed α} {next : α -> List Token -> Parsed β}
    {k : α -> α} {ts us : List Token}
    (h : f ts = (g us).map fun (a, rest) => (k a, rest)) :
    andThen f next ts = andThen g (fun a => next (k a)) us := by
  rw [andThen, andThen, h]
  cases g us with
  | error failure => rfl
  | ok x => rfl

theorem skipNewlines_suffix (ts : List Token) : skipNewlines ts <:+ ts :=
  List.dropWhile_suffix _

theorem length_lt_of_suffix {front us ts : List Token} {u : Token} (hfront : front <:+ us)
    (hus : u :: us <:+ ts) : front.length < ts.length :=
  Nat.lt_of_lt_of_le (Nat.lt_succ_of_le hfront.length_le) hus.length_le

theorem skipNewlines_before_keyword {t : Token} {k : Keyword} (ht : t.kind = .keyword k)
    (ts more : List Token) : skipNewlines (ts ++ t :: more) = skipNewlines ts ++ t :: more := by
  rw [skipNewlines, skipNewlines, List.dropWhile_append]
  split
  · next hempty => simp [List.isEmpty_iff.mp hempty, ht]
  · rfl

theorem skipNewlines_before {ts us : List Token} {u : Token} (h : skipNewlines ts = u :: us)
    (more : List Token) : skipNewlines (ts ++ more) = u :: (us ++ more) := by
  rw [skipNewlines] at h ⊢
  rw [List.dropWhile_append, h]
  rfl

theorem skipNewlines_past {ts more : List Token} {e : Token} (he : e.kind = .newline)
    (h : skipNewlines ts = []) : skipNewlines (ts ++ e :: more) = skipNewlines more := by
  rw [skipNewlines] at h ⊢
  rw [List.dropWhile_append, h]
  simp [skipNewlines, he]

variable {p : Parser} {inOn : Bool} {ts more rest : List Token} {t e : Token}

theorem action_upTo {a : ActionLine} (ht : t.IsBoundary)
    (h : p.action inOn (ts ++ t :: more) = .ok (a, rest)) :
    exists front, rest = front ++ t :: more ∧ front <:+ ts ∧ front.length < ts.length ∧
      forall more', p.action inOn (ts ++ t :: more') = .ok (a, front ++ t :: more') := by
  rcases Grammar.isAction_of_action h with ⟨us, hts, haction⟩
  rcases haction.areInner.split ht hts with ⟨front, rfl, rfl⟩
  have hshorter := length_action_lt h
  simp only [List.length_append, List.length_cons] at hshorter
  refine ⟨front, rfl, List.suffix_append us front, ?_, fun more' => ?_⟩
  · rw [List.length_append]
    omega
  · have hsame : Grammar.MayReplace (front ++ t :: more) (front ++ t :: more') := by
      apply Grammar.MayReplace.append_left
      exact Or.inl rfl
    rw [List.append_assoc]
    exact Grammar.action_of_isAction (haction.replace hsame)

theorem word_upTo {k : Keyword} (ht : t.kind = .keyword k) {fault : Found -> ParseFault}
    {name : Token} (h : p.word fault (skipNewlines ts ++ t :: more) = .ok (name, rest)) :
    exists front, rest = front ++ t :: more ∧ front <:+ ts ∧
      forall more', p.word fault (skipNewlines ts ++ t :: more') =
        .ok (name, front ++ t :: more') := by
  rcases word_eq_ok h with ⟨hts, hname⟩
  have hsuffix := skipNewlines_suffix ts
  cases hskip : skipNewlines ts with
  | nil =>
      rw [hskip, List.nil_append] at hts
      cases hts
      rw [ht] at hname
      cases hname
  | cons u us =>
      rw [hskip, List.cons_append] at hts
      rw [hskip] at hsuffix
      rcases List.cons.inj hts with ⟨rfl, hrest⟩
      refine ⟨us, hrest.symm, (List.suffix_cons _ us).trans hsuffix, fun more' => ?_⟩
      rw [List.cons_append, Grammar.word_cons hname]

theorem atBlockEnd_upTo (ts more : List Token) (t : Token) :
    atBlockEnd (ts ++ t :: more) = atBlockEnd (ts ++ [t]) := by
  cases ts with
  | nil => rfl
  | cons u us => rfl

theorem atActionEnd_upTo (ts more : List Token) (t : Token) :
    atActionEnd (ts ++ t :: more) = atActionEnd (ts ++ [t]) := by
  cases ts with
  | nil => rfl
  | cons u us => rfl

theorem actions_upTo {k : Keyword} (ht : t.kind = .keyword k) {as : List ActionLine}
    (h : p.actions inOn (ts ++ t :: more) = .ok (as, rest)) :
    exists front, rest = front ++ t :: more ∧ front <:+ ts ∧
      forall more', p.actions inOn (ts ++ t :: more') = .ok (as, front ++ t :: more') := by
  induction hlength : ts.length using Nat.strong_induction_on generalizing ts as rest with
  | _ n ih =>
    have hsuffix := skipNewlines_suffix ts
    have hstep (more : List Token) : p.actions inOn (ts ++ t :: more) =
        p.actionsAt inOn (skipNewlines ts ++ t :: more) := by
      rw [actions_eq, skipNewlines_before_keyword ht]
    simp only [hstep, actionsAt, atBlockEnd_upTo (skipNewlines ts)] at h ⊢
    by_cases hend : atBlockEnd (skipNewlines ts ++ [t]) = true
    · simp only [if_pos hend] at h ⊢
      cases h
      exact ⟨skipNewlines ts, rfl, hsuffix, fun more' => rfl⟩
    · simp only [if_neg hend] at h ⊢
      rcases andThen_eq_ok h with ⟨a, between, haction, hactions⟩
      rcases action_upTo (Or.inr ⟨k, ht⟩) haction with ⟨front, rfl, hfront, hshorter, hsame⟩
      rcases map_eq_ok hactions with ⟨⟨as', rest'⟩, hactions', hx⟩
      cases hx
      have hless : front.length < n := hlength ▸ Nat.lt_of_lt_of_le hshorter hsuffix.length_le
      rcases ih _ hless hactions' rfl with ⟨front', hrest, hfront', hsame'⟩
      refine ⟨front', hrest, (hfront'.trans hfront).trans hsuffix, fun more' => ?_⟩
      rw [andThen_of_ok (hsame more'), hsame']
      rfl

/--
What follows some lines of a section is read as if it stood at the beginning of the section.
-/
theorem actions_past (he : e.kind = .newline) (hlines : forall u, u ∈ ts -> isKeyword u = false)
    {as : List ActionLine} (h : p.actions inOn (ts ++ e :: more) = .ok (as, rest)) :
    exists before, forall more', p.actions inOn (ts ++ e :: more') =
      (p.actions inOn more').map fun (as, rest) => (before ++ as, rest) := by
  induction hlength : ts.length using Nat.strong_induction_on generalizing ts as rest with
  | _ n ih =>
    have hsuffix := skipNewlines_suffix ts
    cases hskip : skipNewlines ts with
    | nil =>
        refine ⟨[], fun more' => ?_⟩
        rw [actions_eq, skipNewlines_past he hskip, ← actions_eq]
        cases p.actions inOn more' with
        | error failure => rfl
        | ok x => rfl
    | cons u us =>
        have hend : isKeyword u = false := hlines u (hsuffix.subset (by simp [hskip]))
        have hstep (more : List Token) : p.actions inOn (ts ++ e :: more) =
            andThen (p.action inOn) (fun x rest =>
              (p.actions inOn rest).map fun (xs, rest) => (x :: xs, rest))
              ((u :: us) ++ e :: more) := by
          rw [actions_eq, skipNewlines_before hskip, actionsAt, if_neg (by simp [atBlockEnd, hend])]
          rfl
        rw [hstep] at h
        rcases andThen_eq_ok h with ⟨a, between, haction, hactions⟩
        rcases action_upTo (Or.inl he) haction with ⟨front, rfl, hfront, hshorter, hsame⟩
        rcases map_eq_ok hactions with ⟨⟨as', rest'⟩, hactions', hx⟩
        cases hx
        rw [← hskip] at hfront hshorter
        have hless : front.length < n := hlength ▸ Nat.lt_of_lt_of_le hshorter hsuffix.length_le
        have hlines' : forall v, v ∈ front -> isKeyword v = false :=
          fun v hv => hlines v ((hfront.trans hsuffix).subset hv)
        rcases ih _ hless hlines' hactions' rfl with ⟨before, hbefore⟩
        refine ⟨a :: before, fun more' => ?_⟩
        rw [hstep, andThen_of_ok (hsame more'), hbefore]
        cases p.actions inOn more' with
        | error failure => rfl
        | ok x => rfl

/-!
## Sections that are not over
-/

/--
A section that has been read up to one of its lines: the state without the section, and the section
with the actions so far.
-/
structure OpenSection where
  state : StateBlock
  kind : SectionKind
  line : Nat
  actions : List ActionLine

namespace OpenSection

def close (o : OpenSection) (more : List ActionLine) : StateBlock :=
  o.state.set o.kind ⟨o.line, o.actions ++ more⟩

end OpenSection

def resumeState (p : Parser) (o : OpenSection) : List Token -> Parsed StateBlock :=
  andThen (p.actions (o.kind == .on)) fun more => p.sections (o.close more)

def resumeStates (p : Parser) (before : List StateBlock) (o : OpenSection) :
    List Token -> Parsed (List StateBlock) :=
  andThen (p.resumeState o) fun s rest =>
    (p.states rest).map fun (later, rest) => (before ++ s :: later, rest)

theorem sectionsAt_cons {kind : SectionKind} (ht : t.kind = .keyword kind.keyword)
    (state : StateBlock) (ts : List Token) :
    p.sectionsAt state (t :: ts) =
      if (state.get? kind).isSome then .error ⟨.duplicateSection t.line state.name kind, t :: ts⟩
      else andThen (p.actions (kind == .on))
        (fun xs => p.sections (state.set kind ⟨t.line, xs⟩)) ts := by
  simp only [sectionsAt, ht, Grammar.ofKeyword?_keyword]

section Opened

variable {kind : SectionKind} {lines : List Token}

/--
The sections of a state either lead into the section that the keyword opens, or end before the
keyword.
-/
theorem sections_into (ht : t.kind = .keyword kind.keyword) (he : e.kind = .newline)
    (hlines : forall u, u ∈ lines -> isKeyword u = false) {state s : StateBlock}
    (h : p.sections state (ts ++ t :: (lines ++ e :: more)) = .ok (s, rest)) :
    (exists o : OpenSection, o.kind = kind ∧ forall more',
        p.sections state (ts ++ t :: (lines ++ e :: more')) = p.resumeState o more') ∨
      exists front, rest = front ++ t :: (lines ++ e :: more) ∧ front <:+ ts ∧ forall more',
        p.sections state (ts ++ t :: more') = .ok (s, front ++ t :: more') := by
  induction hlength : ts.length using Nat.strong_induction_on generalizing ts state with
  | _ n ih =>
    have hsuffix := skipNewlines_suffix ts
    have hstep (more : List Token) : p.sections state (ts ++ t :: more) =
        p.sectionsAt state (skipNewlines ts ++ t :: more) := by
      rw [sections_eq, skipNewlines_before_keyword ht]
    simp only [hstep] at h ⊢
    cases hskip : skipNewlines ts with
    | nil =>
        simp only [hskip, List.nil_append, sectionsAt_cons ht] at h ⊢
        by_cases htwice : (state.get? kind).isSome = true
        · rw [if_pos htwice] at h
          cases h
        · simp only [if_neg htwice] at h ⊢
          rcases andThen_eq_ok h with ⟨as, between, hactions, _⟩
          rcases actions_past he hlines hactions with ⟨before, hbefore⟩
          refine Or.inl ⟨⟨state, kind, t.line, before⟩, rfl, fun more' => ?_⟩
          exact andThen_of_map (hbefore more')
    | cons u us =>
        rw [hskip] at hsuffix
        simp only [hskip, List.cons_append, sectionsAt] at h ⊢
        cases hu : u.kind with
        | keyword k =>
            simp only [hu] at h ⊢
            cases hk : SectionKind.ofKeyword? k with
            | none =>
                simp only [hk] at h ⊢
                cases h
                exact Or.inr ⟨u :: us, rfl, hsuffix, fun more' => rfl⟩
            | some other =>
                simp only [hk] at h ⊢
                by_cases htwice : (state.get? other).isSome = true
                · rw [if_pos htwice] at h
                  cases h
                · simp only [if_neg htwice] at h ⊢
                  rcases andThen_eq_ok h with ⟨as, between, hactions, hsections⟩
                  rcases actions_upTo ht hactions with ⟨front, rfl, hfront, hsame⟩
                  have hfront' : front <:+ ts :=
                    hfront.trans ((List.suffix_cons u us).trans hsuffix)
                  have hless : front.length < n := hlength ▸ length_lt_of_suffix hfront hsuffix
                  simp only [andThen_of_ok (hsame _)]
                  rcases ih _ hless hsections rfl with hinto | ⟨front', hrest, hfront'', hover⟩
                  · exact Or.inl hinto
                  · exact Or.inr ⟨front', hrest, hfront''.trans hfront', hover⟩
        | word | quoted | newline | operator op =>
            simp only [hu] at h
            cases h

theorem stateBody_into (ht : t.kind = .keyword kind.keyword) (he : e.kind = .newline)
    (hlines : forall u, u ∈ lines -> isKeyword u = false) {line : Nat} {s : StateBlock}
    (h : p.stateBody line (ts ++ t :: (lines ++ e :: more)) = .ok (s, rest)) :
    (exists o : OpenSection, o.kind = kind ∧ forall more',
        p.stateBody line (ts ++ t :: (lines ++ e :: more')) = p.resumeState o more') ∨
      exists front, rest = front ++ t :: (lines ++ e :: more) ∧ front <:+ ts ∧ forall more',
        p.stateBody line (ts ++ t :: more') = .ok (s, front ++ t :: more') := by
  simp only [stateBody_eq, skipNewlines_before_keyword ht] at h ⊢
  rcases andThen_eq_ok h with ⟨name, between, hword, hsections⟩
  rcases word_upTo ht hword with ⟨behind, rfl, hbehind, hsame⟩
  simp only [andThen_of_ok (hsame _)]
  rcases sections_into ht he hlines hsections with hinto | ⟨front, hrest, hfront, hover⟩
  · exact Or.inl hinto
  · exact Or.inr ⟨front, hrest, hfront.trans hbehind, hover⟩

theorem map_resumeStates (s : StateBlock) (before : List StateBlock) (o : OpenSection)
    (ts : List Token) :
    ((p.resumeStates before o ts).map fun (ss, rest) => (s :: ss, rest)) =
      p.resumeStates (s :: before) o ts := by
  simp only [resumeStates, andThen]
  cases p.resumeState o ts with
  | error failure => rfl
  | ok x =>
      simp only
      cases p.states x.2 with
      | error failure => rfl
      | ok y => rfl

theorem states_into (ht : t.kind = .keyword kind.keyword) (he : e.kind = .newline)
    (hlines : forall u, u ∈ lines -> isKeyword u = false) {ss : List StateBlock}
    (h : p.states (ts ++ t :: (lines ++ e :: more)) = .ok (ss, rest)) :
    exists before, exists o : OpenSection, o.kind = kind ∧ forall more',
      p.states (ts ++ t :: (lines ++ e :: more')) = p.resumeStates before o more' := by
  induction hlength : ts.length using Nat.strong_induction_on generalizing ts ss rest with
  | _ n ih =>
    have hsuffix := skipNewlines_suffix ts
    have hstep (more : List Token) : p.states (ts ++ t :: more) =
        p.statesAt (skipNewlines ts ++ t :: more) := by
      rw [states_eq, skipNewlines_before_keyword ht]
    simp only [hstep] at h ⊢
    cases hskip : skipNewlines ts with
    | nil =>
        have hstate : t.kind ≠ .keyword .state := by
          rw [ht]
          cases kind <;> simp [SectionKind.keyword]
        rw [hskip, List.nil_append, statesAt, if_neg hstate] at h
        cases h
    | cons u us =>
        rw [hskip] at hsuffix
        simp only [hskip, List.cons_append, statesAt] at h ⊢
        by_cases hu : u.kind = .keyword .state
        · simp only [if_pos hu] at h ⊢
          rcases andThen_eq_ok h with ⟨s, between, hbody, hstates⟩
          rcases stateBody_into ht he hlines hbody with ⟨o, ho, hinto⟩ | ⟨front, rfl, hfront, hover⟩
          · refine ⟨[], o, ho, fun more' => ?_⟩
            rw [resumeStates, andThen, andThen, hinto]
            rfl
          · rcases map_eq_ok hstates with ⟨⟨ss', rest'⟩, hstates', _⟩
            have hless : front.length < n := hlength ▸ length_lt_of_suffix hfront hsuffix
            rcases ih _ hless hstates' rfl with ⟨before, o, ho, hinto⟩
            refine ⟨s :: before, o, ho, fun more' => ?_⟩
            rw [andThen_of_ok (hover _), hinto, map_resumeStates]
        · rw [if_neg hu] at h
          cases h

/--
A script that can be read is read up to the line first, and what follows the line does not matter
for this.
-/
theorem machine_into (ht : t.kind = .keyword kind.keyword) (he : e.kind = .newline)
    (hlines : forall u, u ∈ lines -> isKeyword u = false) {script : Script}
    (h : p.machine (ts ++ t :: (lines ++ e :: more)) = .ok (script, rest)) :
    exists before, exists o : OpenSection, o.kind = kind ∧ forall more',
      p.machine (ts ++ t :: (lines ++ e :: more')) =
        (p.resumeStates before o more').map fun (ss, rest) =>
          ({ script with states := ss }, rest) := by
  simp only [machine_eq, skipNewlines_before_keyword ht] at h ⊢
  cases hskip : skipNewlines ts with
  | nil =>
      have hmachine : t.kind ≠ .keyword .machine := by
        rw [ht]
        cases kind <;> simp [SectionKind.keyword]
      rw [hskip, List.nil_append, machineAt, if_neg hmachine] at h
      cases h
  | cons u us =>
      simp only [hskip, List.cons_append, machineAt] at h ⊢
      by_cases hu : u.kind = .keyword .machine
      · simp only [if_pos hu, machineBody_eq, skipNewlines_before_keyword ht] at h ⊢
        rcases andThen_eq_ok h with ⟨name, between, hword, hparts⟩
        rcases word_upTo ht hword with ⟨behind, rfl, _, hname⟩
        simp only [andThen_of_ok (hname _), machineParts, atActionEnd_upTo behind] at hparts ⊢
        by_cases hend : atActionEnd (behind ++ [t]) = true
        · rw [if_pos hend] at hparts
          cases hparts
        · simp only [if_neg hend] at hparts ⊢
          rcases andThen_eq_ok hparts with ⟨a, between, haction, hstates⟩
          rcases action_upTo (Or.inr ⟨_, ht⟩) haction with ⟨front, rfl, _, _, hsame⟩
          rcases map_eq_ok hstates with ⟨⟨ss, rest'⟩, hstates', hx⟩
          cases hx
          rcases states_into ht he hlines hstates' with ⟨before, o, ho, hinto⟩
          refine ⟨before, o, ho, fun more' => ?_⟩
          rw [andThen_of_ok (hsame _), hinto]
      · rw [if_neg hu] at h
        cases h

end Opened

/-!
## One more action
-/

section Gains

open Grammar (AreNew withSections)

theorem withSections_set {kind : SectionKind} {sections : List (SectionKind × Block)}
    (h : kind ∉ sections.map Prod.fst) (state : StateBlock) (block block' : Block) :
    withSections (state.set kind block') sections =
      (withSections (state.set kind block) sections).set kind block' := by
  have hnone := Grammar.lookup_eq_none_of_not_mem h
  cases kind <;> simp [withSections, StateBlock.set, hnone]

theorem sections_set {state s : StateBlock} {kind : SectionKind} {block : Block}
    (h : p.sections (state.set kind block) ts = .ok (s, rest)) :
    s.get? kind = some block ∧ forall block',
      p.sections (state.set kind block') ts = .ok (s.set kind block', rest) := by
  rcases Grammar.areSections_of_sections h with
    ⟨us, nl, sections, hts, hnl, hsections, hnew, rfl, hend⟩
  have hkind := hnew.not_mem_of_set
  rw [hts]
  constructor
  · rw [withSections_set hkind state block block, Grammar.get?_set_self]
  · intro block'
    have hnew' : AreNew (state.set kind block') sections := by
      refine ⟨hnew.1, fun other hother => ?_⟩
      have hne : other ≠ kind := fun heq => hkind (heq ▸ hother)
      have hnone := hnew.2 other hother
      rw [Grammar.get?_set_of_ne _ _ hne] at hnone ⊢
      exact hnone
    rw [← withSections_set hkind]
    exact Grammar.sections_of_areSections hsections hnl hend hnew' rfl

theorem resumeStates_gains {before ss : List StateBlock} {o : OpenSection} {a : ActionLine}
    {ts' : List Token}
    (hactions : p.actions (o.kind == .on) ts' =
      (p.actions (o.kind == .on) ts).map fun (as, rest) => (a :: as, rest))
    (h : p.resumeStates before o ts = .ok (ss, rest)) :
    exists s later as, ss = before ++ s :: later ∧
      s.get? o.kind = some ⟨o.line, o.actions ++ as⟩ ∧
      p.resumeStates before o ts' =
        .ok (before ++ s.set o.kind ⟨o.line, o.actions ++ a :: as⟩ :: later, rest) := by
  rcases andThen_eq_ok h with ⟨s, behind, hstate, hstates⟩
  rcases andThen_eq_ok hstate with ⟨as, between, has, hsections⟩
  rcases map_eq_ok hstates with ⟨⟨later, rest'⟩, hlater, hx⟩
  cases hx
  rcases sections_set hsections with ⟨hget, hset⟩
  have has' : p.actions (o.kind == .on) ts' = .ok (a :: as, between) := by
    rw [hactions, has]
    rfl
  refine ⟨s, later, as, rfl, hget, ?_⟩
  have hstate' : p.resumeState o ts' =
      .ok (s.set o.kind ⟨o.line, o.actions ++ a :: as⟩, behind) := by
    rw [resumeState, andThen_of_ok has']
    exact hset _
  rw [resumeStates, andThen_of_ok hstate', hlater]
  rfl

theorem resumeStates_nil (before : List StateBlock) (o : OpenSection) :
    p.resumeStates before o [] = .ok (before ++ [o.close []], []) := by
  have hactions : p.actions (o.kind == .on) [] = .ok ([], []) := by
    rw [actions_eq]
    rfl
  have hsections : p.sections (o.close []) [] = .ok (o.close [], []) := by
    rw [sections_eq]
    rfl
  have hstates : p.states [] = .ok ([], []) := by
    rw [states_eq]
    rfl
  have hstate : p.resumeState o [] = .ok (o.close [], []) := by
    rw [resumeState, andThen_of_ok hactions, hsections]
  rw [resumeStates, andThen_of_ok hstate, hstates]
  rfl

theorem actions_gain {a : ActionLine} {us : List Token}
    (ha : Grammar.IsAction p.options inOn us rest a)
    (hrest : skipNewlines rest = skipNewlines more) :
    p.actions inOn (us ++ rest) =
      (p.actions inOn more).map fun (as, rest) => (a :: as, rest) := by
  have hskip : skipNewlines (us ++ rest) = us ++ rest := by
    have hnext : Grammar.next? (us ++ rest) ≠ some .newline := ha.next?_ne_newline
    exact Grammar.skipNewlines_append Grammar.areNewlines_nil hnext
  have hend : ¬ atBlockEnd (us ++ rest) = true :=
    fun hend => ha.not_endsBlock (Grammar.atBlockEnd_iff.mp hend)
  rw [actions_eq, hskip, actionsAt, if_neg hend, andThen_of_ok (Grammar.action_of_isAction ha),
    actions_eq, hrest, ← actions_eq]

end Gains

end Parser

/--
The third script is the second with one more action in one of its sections.  The first script is
what stands above the action: its last state is the one that has the section, and the actions of
that section are those before the new one.
-/
inductive Script.Gains (kind : SectionKind) (a : ActionLine) :
    Script -> Script -> Script -> Prop where
  | intro {script : Script} {before later : List StateBlock} {last s : StateBlock} {line : Nat}
      {as more : List ActionLine} :
      last.get? kind = some ⟨line, as⟩ ->
      s.get? kind = some ⟨line, as ++ more⟩ ->
      Gains kind a
        { script with states := before ++ [last] }
        { script with states := before ++ s :: later }
        { script with states := before ++ s.set kind ⟨line, as ++ a :: more⟩ :: later }

/--
Tokens of an action that are put behind a line of a section are read as an action of that section.
The line may be the one of the keyword itself.
-/
theorem Script.ofTokens_gains {options : Options} {ts lines more us rest : List Token} {t e : Token}
    {kind : SectionKind} {script : Script} {a : ActionLine}
    (ht : t.kind = .keyword kind.keyword) (he : e.kind = .newline)
    (hlines : forall u, u ∈ lines -> Parser.isKeyword u = false)
    (hscript : Script.ofTokens options (ts ++ t :: (lines ++ e :: more)) = .ok script)
    (ha : Grammar.IsAction options (kind == .on) us rest a)
    (hrest : Parser.skipNewlines rest = Parser.skipNewlines more) :
    exists above longer,
      Script.ofTokens options (ts ++ t :: (lines ++ e :: [])) = .ok above ∧
        Script.ofTokens options (ts ++ t :: (lines ++ e :: (us ++ rest))) = .ok longer ∧
        Gains kind a above script longer := by
  let p : Parser := ⟨options, 0⟩
  have hmachine := Grammar.machine_of_isFile (p := p) (Script.ofTokens_eq_ok_iff.mp hscript)
  rcases Parser.machine_into ht he hlines hmachine with ⟨before, o, rfl, hinto⟩
  rw [hinto] at hmachine
  rcases Parser.map_eq_ok hmachine with ⟨⟨ss, r⟩, hstates, hx⟩
  rcases Parser.resumeStates_gains (Parser.actions_gain (p := p) ha hrest) hstates with
    ⟨s, later, as, rfl, hget, hlonger⟩
  have habove := hinto []
  have hlong := hinto (us ++ rest)
  rw [Parser.resumeStates_nil] at habove
  rw [hlonger] at hlong
  refine ⟨_, _, Script.ofTokens_eq_ok_iff.mpr (Grammar.isFile_of_machine habove),
    Script.ofTokens_eq_ok_iff.mpr (Grammar.isFile_of_machine hlong), ?_⟩
  have hself : script = { script with states := before ++ s :: later } :=
    (congrArg Prod.fst hx).symm
  have hlast : (o.close []).get? o.kind = some ⟨o.line, o.actions⟩ := by
    rw [Parser.OpenSection.close, Grammar.get?_set_self, List.append_nil]
  have hgains : Gains o.kind a { script with states := before ++ [o.close []] }
      { script with states := before ++ s :: later }
      { script with states :=
          before ++ s.set o.kind ⟨o.line, o.actions ++ a :: as⟩ :: later } :=
    Gains.intro hlast hget
  rw [← hself] at hgains
  exact hgains

end BehaviorScript

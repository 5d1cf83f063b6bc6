import BehaviorScript.Proofs.Grammar
import Mathlib.Data.List.TakeWhile

/-!
# The parser decides the grammar

For every part of the language the parser succeeds exactly on the tokens that the grammar
derives, with the part that they denote, and leaves exactly the tokens after them.  Line
ends that follow the last part of a list are skipped by the parser and belong to what
comes next in the grammar, so the lists are stated with those line ends in between.
-/

namespace BehaviorScript
namespace Grammar

variable {p : Parser}

/-!
## Line ends
-/

theorem areNewlines_nil : AreNewlines [] := by
  intro t ht
  cases ht

theorem AreNewlines.append {ts us : List Token} (ht : AreNewlines ts) (hu : AreNewlines us) :
    AreNewlines (ts ++ us) := by
  intro t hmem
  rcases List.mem_append.mp hmem with h | h
  · exact ht t h
  · exact hu t h

theorem skipNewlines_append {nl rest : List Token} (hnl : AreNewlines nl)
    (hrest : next? rest ≠ some .newline) :
    Parser.skipNewlines (nl ++ rest) = rest := by
  induction nl with
  | nil =>
      cases rest with
      | nil => rfl
      | cons t ts =>
          have ht : t.kind ≠ .newline := fun h => hrest (by simp [next?, h])
          simp [Parser.skipNewlines, ht]
  | cons t nl ih =>
      have ht : t.kind = .newline := hnl t List.mem_cons_self
      have hskip := ih fun u hu => hnl u (List.mem_cons_of_mem _ hu)
      simpa [Parser.skipNewlines, ht] using hskip

theorem skipNewlines_split (ts : List Token) :
    exists nl, AreNewlines nl ∧ ts = nl ++ Parser.skipNewlines ts := by
  refine ⟨ts.takeWhile fun t => t.kind == .newline, ?_, ?_⟩
  · intro t ht
    simpa using List.mem_takeWhile_imp ht
  · exact (List.takeWhile_append_dropWhile).symm

/-!
## Parameters
-/

theorem atActionEnd_iff {rest : List Token} :
    Parser.atActionEnd rest = true <-> EndsAction rest := by
  cases rest with
  | nil => simp [Parser.atActionEnd, EndsAction]
  | cons t ts =>
      cases hk : t.kind <;> simp [Parser.atActionEnd, Parser.isKeyword, EndsAction, next?, hk]

theorem literal_cons {fault : Found -> ParseFault} {t : Token} {rest : List Token}
    (h : t.kind.isLiteral = true) :
    p.literal fault (t :: rest) = .ok (t, rest) := by
  simp [Parser.literal, h]

theorem isParam_of_param {ts rest : List Token} {x : Param} (h : p.param ts = .ok (x, rest)) :
    exists us, ts = us ++ rest ∧ IsParam p.options us rest x := by
  cases ts with
  | nil => simp [Parser.param] at h
  | cons t ts =>
      rw [Parser.param] at h
      split at h
      · next hkind =>
          rcases Parser.map_eq_ok h with ⟨⟨target, r⟩, hliteral, hx⟩
          rcases Parser.literal_eq_ok hliteral with ⟨rfl, htarget⟩
          cases hx
          exact ⟨[t, target], rfl, IsParam.arrow hkind htarget⟩
      · next k hkind hnext =>
          rcases Parser.map_eq_ok h with ⟨⟨value, r⟩, hliteral, hx⟩
          cases ts with
          | nil => simp at hnext
          | cons op ts =>
              rcases Parser.literal_eq_ok hliteral with ⟨htail, hvalue⟩
              simp only [List.tail_cons] at htail
              cases hx
              refine ⟨[t, op, value], by simp [htail], IsParam.labeled hkind ?_ hvalue⟩
              simpa using hnext
      · cases h
      · next hkind hnext =>
          cases h
          refine ⟨[t], rfl, IsParam.word hkind ?_⟩
          exact hnext
      · next hkind hnext =>
          cases h
          exact ⟨[t], rfl, IsParam.quoted hkind hnext⟩
      · cases h
      · cases h
      · cases h

theorem param_of_isParam {ts rest : List Token} {x : Param}
    (h : IsParam p.options ts rest x) :
    p.param (ts ++ rest) = .ok (x, rest) := by
  cases h with
  | labeled hlabel hop hvalue =>
      simp [Parser.param, hlabel, hop, literal_cons hvalue, Except.map]
  | word hkind hnext =>
      rw [List.singleton_append, Parser.param]
      split <;> simp_all [next?]
  | quoted hkind hnext =>
      rw [List.singleton_append, Parser.param]
      split <;> simp_all [next?]
  | arrow harrow htarget =>
      simp [Parser.param, harrow, literal_cons htarget, Except.map]

theorem IsParam.not_endsAction {options : Options} {ts rest : List Token} {x : Param}
    (h : IsParam options ts rest x) (us : List Token) :
    ¬ EndsAction (ts ++ us) := by
  cases h with
  | labeled hkind _ _ => simp [EndsAction, next?, hkind]
  | word hkind _ => simp [EndsAction, next?, hkind]
  | quoted hkind _ => simp [EndsAction, next?, hkind]
  | arrow hkind _ => simp [EndsAction, next?, hkind]

theorem areParams_of_params {ts rest : List Token} {xs : List Param}
    (h : p.params ts = .ok (xs, rest)) :
    exists us, ts = us ++ rest ∧ AreParams p.options us rest xs ∧ EndsAction rest := by
  fun_induction Parser.params p ts generalizing xs rest with
  | case1 ts hend =>
      cases h
      exact ⟨[], rfl, AreParams.nil, atActionEnd_iff.mp hend⟩
  | case2 => cases h
  | case3 ts hend x r hx ih =>
      rcases Parser.map_eq_ok h with ⟨⟨ys, r'⟩, hys, hxs⟩
      cases hxs
      rcases isParam_of_param hx with ⟨us, rfl, hparam⟩
      rcases ih hys with ⟨vs, rfl, hparams, hrest⟩
      exact ⟨us ++ vs, by simp, AreParams.cons hparam hparams, hrest⟩

theorem params_of_areParams {ts rest : List Token} {xs : List Param}
    (h : AreParams p.options ts rest xs) (hrest : EndsAction rest) :
    p.params (ts ++ rest) = .ok (xs, rest) := by
  induction h with
  | nil =>
      rw [Parser.params, List.nil_append, if_pos (atActionEnd_iff.mpr hrest)]
  | @cons ts us rest x xs hx _ ih =>
      have hend : ¬ Parser.atActionEnd (ts ++ (us ++ rest)) = true := fun h =>
        hx.not_endsAction _ (atActionEnd_iff.mp h)
      rw [List.append_assoc, Parser.params, if_neg hend, param_of_isParam hx]
      simp only [ih hrest, Except.map]

/-!
## Actions
-/

theorem AreParams.next?_ne_assign {options : Options} {ts rest : List Token} {xs : List Param}
    (h : AreParams options ts rest xs) (hrest : EndsAction rest) :
    next? (ts ++ rest) ≠ some (.operator .assign) := by
  cases h with
  | nil =>
      intro hnext
      rcases hrest with rfl | hrest | ⟨k, hrest⟩
      · cases hnext
      · simp [hrest] at hnext
      · simp [hrest] at hnext
  | cons hx _ =>
      cases hx with
      | labeled hkind _ _ => simp [next?, hkind]
      | word hkind _ => simp [next?, hkind]
      | quoted hkind _ => simp [next?, hkind]
      | arrow hkind _ => simp [next?, hkind]

theorem isCommand_of_command {line : Nat} {ts rest : List Token} {name : String}
    {params : List Param} (h : p.command line ts = .ok ((name, params), rest)) :
    exists us, ts = us ++ rest ∧ IsCommand p.options us rest (p.lineAt ts) name params := by
  cases ts with
  | nil => cases h
  | cons t ts =>
      rw [Parser.command] at h
      split at h
      · next hkind =>
          rcases Parser.map_eq_ok h with ⟨⟨target, r⟩, hliteral, hx⟩
          rcases Parser.literal_eq_ok hliteral with ⟨rfl, htarget⟩
          cases hx
          exact ⟨[t, target], rfl, IsCommand.arrow hkind htarget⟩
      · next hkind =>
          rcases Parser.map_eq_ok h with ⟨⟨xs, r⟩, hparams, hx⟩
          cases hx
          rcases areParams_of_params hparams with ⟨us, rfl, hus, _⟩
          exact ⟨t :: us, rfl, IsCommand.call hkind hus⟩
      · cases h

theorem command_of_isCommand {line line' : Nat} {ts rest : List Token} {name : String}
    {params : List Param} (h : IsCommand p.options ts rest line name params)
    (hrest : EndsAction rest) :
    p.command line' (ts ++ rest) = .ok ((name, params), rest) := by
  cases h with
  | arrow hkind htarget =>
      simp [Parser.command, hkind, literal_cons htarget, Except.map]
  | call hkind hparams =>
      simp [Parser.command, hkind, params_of_areParams hparams hrest, Except.map]

theorem IsCommand.line_eq {ts rest us : List Token} {line : Nat} {name : String}
    {params : List Param} (h : IsCommand p.options ts rest line name params) :
    p.lineAt (ts ++ us) = line := by
  cases h with
  | arrow => rfl
  | call => rfl

theorem messageKey_eq_ok {inOn : Bool} {ts rest : List Token} {message : Option String}
    (h : p.messageKey inOn ts = .ok (message, rest)) :
    (inOn = false ∧ message = none ∧ rest = ts) ∨
      exists key colon, inOn = true ∧ key.kind.isLiteral = true ∧
        colon.kind = .operator .assign ∧ message = some key.text ∧ ts = key :: colon :: rest := by
  unfold Parser.messageKey at h
  split at h
  · next key colon r =>
      split at h
      · next hkey =>
          split at h
          · next hon =>
              cases h
              exact Or.inr ⟨key, colon, hon, hkey.1, hkey.2, rfl, rfl⟩
          · cases h
      · split at h
        · cases h
        · next hon =>
            cases h
            exact Or.inl ⟨by simpa using hon, rfl, rfl⟩
  · split at h
    · cases h
    · next hon =>
        cases h
        exact Or.inl ⟨by simpa using hon, rfl, rfl⟩

theorem messageKey_of_isCommand {ts rest : List Token} {line : Nat} {name : String}
    {params : List Param} (h : IsCommand p.options ts rest line name params)
    (hrest : EndsAction rest) :
    p.messageKey false (ts ++ rest) = .ok (none, ts ++ rest) := by
  cases h with
  | arrow hkind _ => simp [Parser.messageKey, hkind, TokenKind.isLiteral]
  | @call t ts rest params hkind hparams =>
      have hnext := hparams.next?_ne_assign hrest
      cases hts : ts ++ rest with
      | nil => simp [Parser.messageKey, hts]
      | cons u us =>
          have hu : u.kind ≠ .operator .assign := fun hu => hnext (by simp [hts, next?, hu])
          simp [Parser.messageKey, hts, hu]

theorem isAction_of_action {inOn : Bool} {ts rest : List Token} {a : ActionLine}
    (h : p.action inOn ts = .ok (a, rest)) :
    exists us, ts = us ++ rest ∧ IsAction p.options inOn us rest a := by
  unfold Parser.action at h
  split at h
  · cases h
  · next message afterKey hkey =>
      split at h
      · cases h
      · next name params r hcommand =>
          split at h
          · next hend =>
              cases h
              have hrest := atActionEnd_iff.mp hend
              rcases isCommand_of_command hcommand with ⟨us, hus, hderived⟩
              rcases messageKey_eq_ok hkey with
                ⟨rfl, rfl, rfl⟩ | ⟨key, colon, rfl, hliteral, hcolon, rfl, rfl⟩
              · exact ⟨us, hus, IsAction.plain hderived hrest⟩
              · refine ⟨key :: colon :: us, by simp [hus], ?_⟩
                exact IsAction.keyed hliteral hcolon hderived hrest
          · cases h

theorem action_of_isAction {inOn : Bool} {ts rest : List Token} {a : ActionLine}
    (h : IsAction p.options inOn ts rest a) :
    p.action inOn (ts ++ rest) = .ok (a, rest) := by
  cases h with
  | keyed hkey hcolon hcommand hrest =>
      simp [Parser.action, Parser.messageKey, hkey, hcolon, command_of_isCommand hcommand hrest,
        atActionEnd_iff.mpr hrest, Parser.lineAt]
  | plain hcommand hrest =>
      simp [Parser.action, messageKey_of_isCommand hcommand hrest,
        command_of_isCommand hcommand hrest, atActionEnd_iff.mpr hrest, hcommand.line_eq]

def EndsBlock (rest : List Token) : Prop :=
  rest = [] ∨ exists k, next? rest = some (.keyword k)

theorem atBlockEnd_iff {rest : List Token} :
    Parser.atBlockEnd rest = true <-> EndsBlock rest := by
  cases rest with
  | nil => simp [Parser.atBlockEnd, EndsBlock]
  | cons t ts =>
      cases hk : t.kind <;> simp [Parser.atBlockEnd, Parser.isKeyword, EndsBlock, next?, hk]

theorem EndsBlock.next?_ne_newline {rest : List Token} (h : EndsBlock rest) :
    next? rest ≠ some .newline := by
  intro hnext
  rcases h with rfl | ⟨k, hk⟩
  · cases hnext
  · rw [hk] at hnext
    cases hnext

theorem IsAction.next?_eq {options : Options} {inOn : Bool} {ts rest : List Token}
    {a : ActionLine} (h : IsAction options inOn ts rest a) (us : List Token) :
    exists kind, next? (ts ++ us) = some kind ∧
      (kind = .operator .transition ∨ kind.isLiteral = true) := by
  cases h with
  | @keyed key _ _ _ _ _ _ hkey => exact ⟨key.kind, rfl, Or.inr hkey⟩
  | plain hcommand =>
      cases hcommand with
      | arrow hkind => exact ⟨_, rfl, Or.inl hkind⟩
      | @call name _ _ _ hkind => exact ⟨_, rfl, Or.inr (by rw [hkind]; rfl)⟩

theorem IsAction.next?_ne_newline {options : Options} {inOn : Bool} {ts rest us : List Token}
    {a : ActionLine} (h : IsAction options inOn ts rest a) :
    next? (ts ++ us) ≠ some .newline := by
  rcases h.next?_eq us with ⟨kind, hnext, hkind⟩
  rw [hnext]
  rcases hkind with rfl | hliteral
  · simp
  · intro heq
    cases heq
    cases hliteral

theorem IsAction.not_endsBlock {options : Options} {inOn : Bool} {ts rest us : List Token}
    {a : ActionLine} (h : IsAction options inOn ts rest a) :
    ¬ EndsBlock (ts ++ us) := by
  rcases h.next?_eq us with ⟨kind, hnext, hkind⟩
  rintro (hnil | ⟨k, hk⟩)
  · rw [hnil] at hnext
    cases hnext
  · rw [hnext] at hk
    cases hk
    rcases hkind with hno | hno <;> cases hno

theorem areActions_of_actions {inOn : Bool} {ts rest : List Token} {as : List ActionLine}
    (h : p.actions inOn ts = .ok (as, rest)) :
    exists us nl, ts = us ++ (nl ++ rest) ∧ AreNewlines nl ∧
      AreActions p.options inOn us (nl ++ rest) as ∧ EndsBlock rest := by
  fun_induction Parser.actions p inOn ts generalizing as rest with
  | case1 ts hend =>
      cases h
      rcases skipNewlines_split ts with ⟨nl, hnl, hts⟩
      exact ⟨[], nl, hts, hnl, AreActions.nil, atBlockEnd_iff.mp hend⟩
  | case2 => cases h
  | case3 ts hend a r ha ih =>
      rcases Parser.map_eq_ok h with ⟨⟨as', r'⟩, has, hcons⟩
      cases hcons
      rcases skipNewlines_split ts with ⟨nl, hnl, hts⟩
      rcases isAction_of_action ha with ⟨us, hus, haction⟩
      rcases ih has with ⟨vs, nl', rfl, hnl', hactions, hrest⟩
      refine ⟨nl ++ us ++ vs, nl', ?_, hnl', AreActions.cons hnl haction hactions, hrest⟩
      rw [hts, hus]
      simp

theorem actions_of_areActions {inOn : Bool} {ts rest nl : List Token} {as : List ActionLine}
    (h : AreActions p.options inOn ts (nl ++ rest) as) (hnl : AreNewlines nl)
    (hrest : EndsBlock rest) :
    p.actions inOn (ts ++ (nl ++ rest)) = .ok (as, rest) := by
  generalize hmore : nl ++ rest = more at h
  induction h with
  | nil =>
      have hskip := skipNewlines_append hnl hrest.next?_ne_newline
      rw [List.nil_append, ← hmore, Parser.actions, hskip, if_pos (atBlockEnd_iff.mpr hrest)]
  | @cons nl' ts us _ a as hnl' ha _ ih =>
      have hskip : Parser.skipNewlines (nl' ++ ts ++ us ++ (nl ++ rest)) =
          ts ++ (us ++ (nl ++ rest)) := by
        rw [List.append_assoc, List.append_assoc]
        exact skipNewlines_append hnl' ha.next?_ne_newline
      have hend : ¬ Parser.atBlockEnd (ts ++ (us ++ (nl ++ rest))) = true := fun h =>
        ha.not_endsBlock (atBlockEnd_iff.mp h)
      subst hmore
      rw [Parser.actions, hskip, if_neg hend, action_of_isAction ha]
      simp only [ih rfl, Except.map]

/-!
## Sections

The parser puts each section into the state as it comes, and the grammar collects them in
a list.  The two agree as long as no kind of section comes twice.
-/

def withSections (s : StateBlock) (sections : List (SectionKind × Block)) : StateBlock :=
  { s with
    enter := (sections.lookup .enter).or s.enter
    exit := (sections.lookup .exit).or s.exit
    run := (sections.lookup .run).or s.run
    on := (sections.lookup .on).or s.on }

theorem withSections_nil (s : StateBlock) : withSections s [] = s := by
  simp [withSections]

theorem stateOf_eq (line : Nat) (name : String) (sections : List (SectionKind × Block)) :
    stateOf line name sections = withSections { line := line, name := name } sections := by
  simp [stateOf, withSections]

theorem get?_set_of_ne (s : StateBlock) {kind other : SectionKind} (block : Block)
    (h : other ≠ kind) :
    (s.set kind block).get? other = s.get? other := by
  cases kind <;> cases other <;> first | rfl | exact absurd rfl h

theorem get?_set_self (s : StateBlock) (kind : SectionKind) (block : Block) :
    (s.set kind block).get? kind = some block := by
  cases kind <;> rfl

def AreNew (s : StateBlock) (sections : List (SectionKind × Block)) : Prop :=
  (sections.map Prod.fst).Nodup ∧ forall kind, kind ∈ sections.map Prod.fst -> s.get? kind = none

theorem AreNew.not_mem_of_set {s : StateBlock} {kind : SectionKind} {block : Block}
    {sections : List (SectionKind × Block)} (h : AreNew (s.set kind block) sections) :
    kind ∉ sections.map Prod.fst := by
  intro hmem
  have hnone := h.2 kind hmem
  rw [get?_set_self] at hnone
  cases hnone

theorem areNew_cons {s : StateBlock} {kind : SectionKind} {block : Block}
    {sections : List (SectionKind × Block)} :
    AreNew s ((kind, block) :: sections) <->
      s.get? kind = none ∧ AreNew (s.set kind block) sections := by
  constructor
  · rintro ⟨hnodup, hnone⟩
    rcases List.nodup_cons.mp hnodup with ⟨hkind, hlater⟩
    refine ⟨hnone kind List.mem_cons_self, hlater, ?_⟩
    intro other hother
    rw [get?_set_of_ne]
    · exact hnone other (List.mem_cons_of_mem _ hother)
    · rintro rfl
      exact hkind hother
  · rintro ⟨hfree, hnew⟩
    refine ⟨List.nodup_cons.mpr ⟨hnew.not_mem_of_set, hnew.1⟩, ?_⟩
    intro other hother
    rcases List.mem_cons.mp hother with rfl | hlater
    · exact hfree
    · have hnone := hnew.2 other hlater
      rwa [get?_set_of_ne] at hnone
      rintro rfl
      exact hnew.not_mem_of_set hlater

theorem lookup_eq_none_of_not_mem {kind : SectionKind} {sections : List (SectionKind × Block)}
    (h : kind ∉ sections.map Prod.fst) : sections.lookup kind = none := by
  rw [List.lookup_eq_none_iff]
  intro entry hmem
  simp only [bne_iff_ne]
  intro heq
  exact h (heq ▸ List.mem_map_of_mem hmem)

theorem withSections_cons {s : StateBlock} {kind : SectionKind} {block : Block}
    {sections : List (SectionKind × Block)} (h : AreNew (s.set kind block) sections) :
    withSections s ((kind, block) :: sections) = withSections (s.set kind block) sections := by
  have hnone := lookup_eq_none_of_not_mem h.not_mem_of_set
  cases kind <;> simp [withSections, StateBlock.set, List.lookup_cons, hnone] <;>
    exact ⟨rfl, rfl, rfl⟩

theorem ofKeyword?_keyword (kind : SectionKind) :
    SectionKind.ofKeyword? kind.keyword = some kind := by
  cases kind <;> rfl

theorem keyword_of_ofKeyword? {k : Keyword} {kind : SectionKind}
    (h : SectionKind.ofKeyword? k = some kind) : k = kind.keyword := by
  cases k <;> cases h <;> rfl

def EndsState (rest : List Token) : Prop :=
  rest = [] ∨ exists k, next? rest = some (.keyword k) ∧ SectionKind.ofKeyword? k = none

theorem EndsState.endsBlock {rest : List Token} (h : EndsState rest) : EndsBlock rest := by
  rcases h with hnil | ⟨k, hk, _⟩
  · exact Or.inl hnil
  · exact Or.inr ⟨k, hk⟩

/--
Line ends before some sections belong to the first of them, or stand before what follows when
there is none.
-/
theorem AreSections.absorb {options : Options} {nl us nl' rest : List Token}
    {sections : List (SectionKind × Block)}
    (h : AreSections options us (nl' ++ rest) sections) (hnl : AreNewlines nl)
    (hnl' : AreNewlines nl') :
    exists vs nl'', nl ++ (us ++ (nl' ++ rest)) = vs ++ (nl'' ++ rest) ∧ AreNewlines nl'' ∧
      AreSections options vs (nl'' ++ rest) sections := by
  cases h with
  | nil => exact ⟨[], nl ++ nl', by simp, hnl.append hnl', AreSections.nil⟩
  | @cons nl₁ ts us _ t kind actions sections hnl₁ hkind hactions hsections =>
      refine ⟨nl ++ nl₁ ++ t :: ts ++ us, nl', by simp, hnl', ?_⟩
      exact AreSections.cons (hnl.append hnl₁) hkind hactions hsections

theorem areSections_of_sections {state s : StateBlock} {ts rest : List Token}
    (h : p.sections state ts = .ok (s, rest)) :
    exists us nl sections, ts = us ++ (nl ++ rest) ∧ AreNewlines nl ∧
      AreSections p.options us (nl ++ rest) sections ∧ AreNew state sections ∧
      s = withSections state sections ∧ EndsState rest := by
  have hnil : forall state, AreNew state [] := fun state => ⟨List.nodup_nil, by simp⟩
  fun_induction Parser.sections p state ts with
  | case1 state ts hskip =>
      cases h
      rcases skipNewlines_split ts with ⟨nl, hnl, hts⟩
      rw [hskip] at hts
      exact ⟨[], nl, [], hts, hnl, AreSections.nil, hnil _, (withSections_nil _).symm, Or.inl rfl⟩
  | case2 state ts t us hskip k hk hkind =>
      cases h
      rcases skipNewlines_split ts with ⟨nl, hnl, hts⟩
      rw [hskip] at hts
      exact ⟨[], nl, [], hts, hnl, AreSections.nil, hnil _, (withSections_nil _).symm,
        Or.inr ⟨k, by simp [next?, hk], hkind⟩⟩
  | case3 => cases h
  | case4 => cases h
  | case5 state ts t us hskip k hk kind hkind hfree actions r hactions ih =>
      rcases skipNewlines_split ts with ⟨nl, hnl, hts⟩
      rw [hskip] at hts
      rcases areActions_of_actions hactions with ⟨vs, nl₁, hus, hnl₁, hderived, _⟩
      rcases ih h with ⟨ws, nl₂, sections, hr, hnl₂, hsections, hnew, hs, hrest⟩
      subst hr
      rcases hsections.absorb hnl₁ hnl₂ with ⟨xs, nl₃, hsplit, hnl₃, hsections⟩
      refine ⟨nl ++ t :: vs ++ xs, nl₃, (kind, ⟨t.line, actions⟩) :: sections, ?_, hnl₃, ?_, ?_,
        ?_, hrest⟩
      · rw [hts, hus, hsplit]
        simp
      · refine AreSections.cons hnl (hk.trans (by rw [keyword_of_ofKeyword? hkind])) ?_ hsections
        rw [← hsplit]
        exact hderived
      · exact areNew_cons.mpr ⟨by simpa using hfree, hnew⟩
      · rw [hs, withSections_cons hnew]
  | case6 => cases h

/--
The actions of a section end where the next section, the next state or the end of the tokens is.
-/
theorem AreSections.split {options : Options} {us nl rest : List Token}
    {sections : List (SectionKind × Block)}
    (h : AreSections options us (nl ++ rest) sections) (hnl : AreNewlines nl)
    (hrest : EndsBlock rest) :
    exists nl' rest', us ++ (nl ++ rest) = nl' ++ rest' ∧ AreNewlines nl' ∧ EndsBlock rest' := by
  cases h with
  | nil => exact ⟨nl, rest, rfl, hnl, hrest⟩
  | @cons nl₁ ts us _ t kind actions sections hnl₁ hkind hactions hsections =>
      refine ⟨nl₁, t :: ts ++ us ++ (nl ++ rest), by simp, hnl₁, Or.inr ⟨kind.keyword, ?_⟩⟩
      simp [next?, hkind]

theorem sections_of_areSections {state : StateBlock} {ts nl rest input : List Token}
    {sections : List (SectionKind × Block)}
    (h : AreSections p.options ts (nl ++ rest) sections) (hnl : AreNewlines nl)
    (hrest : EndsState rest) (hnew : AreNew state sections)
    (hinput : Parser.skipNewlines input = Parser.skipNewlines (ts ++ (nl ++ rest))) :
    p.sections state input = .ok (withSections state sections, rest) := by
  generalize hmore : nl ++ rest = more at h
  induction h generalizing state input with
  | nil =>
      rw [List.nil_append, skipNewlines_append hnl hrest.endsBlock.next?_ne_newline] at hinput
      rw [withSections_nil]
      rcases hrest with rfl | ⟨k, hk, hstop⟩
      · rw [Parser.sections, hinput]
      · cases rest with
        | nil => cases hk
        | cons t ts =>
            have hkind : t.kind = .keyword k := by simpa [next?] using hk
            rw [Parser.sections, hinput]
            simp only [hkind, hstop]
  | @cons nl' ts us _ t kind actions sections hnl' hkind hactions hsections ih =>
      subst hmore
      have hskip : Parser.skipNewlines input = t :: (ts ++ (us ++ (nl ++ rest))) := by
        rw [hinput, List.append_assoc, List.append_assoc, skipNewlines_append hnl']
        · rfl
        · simp [next?, hkind]
      rcases hsections.split hnl hrest.endsBlock with ⟨nl₁, rest₁, hsplit, hnl₁, hrest₁⟩
      have hparsed : p.actions (kind == .on) (ts ++ (us ++ (nl ++ rest))) =
          .ok (actions, rest₁) := by
        rw [hsplit] at hactions ⊢
        exact actions_of_areActions hactions hnl₁ hrest₁
      rcases areNew_cons.mp hnew with ⟨hfree, hlater⟩
      rw [Parser.sections, hskip]
      simp only [hkind, ofKeyword?_keyword, hfree]
      rw [if_neg (by simp), hparsed, withSections_cons hlater]
      refine ih hlater ?_ rfl
      rw [hsplit, skipNewlines_append hnl₁ hrest₁.next?_ne_newline]
      exact skipNewlines_append areNewlines_nil hrest₁.next?_ne_newline

/-!
## States
-/

theorem word_cons {fault : Found -> ParseFault} {t : Token} {rest : List Token}
    (h : t.kind = .word) :
    p.word fault (t :: rest) = .ok (t, rest) := by
  simp [Parser.word, h]

theorem isState_of_stateBody {t : Token} {ts rest : List Token} {s : StateBlock}
    (ht : t.kind = .keyword .state) (h : p.stateBody t.line ts = .ok (s, rest)) :
    exists us nl, t :: ts = us ++ (nl ++ rest) ∧ AreNewlines nl ∧
      IsState p.options us (nl ++ rest) s := by
  unfold Parser.stateBody at h
  split at h
  · cases h
  · next name r hname =>
      rcases Parser.word_eq_ok hname with ⟨hskip, hword⟩
      rcases skipNewlines_split ts with ⟨nl, hnl, hts⟩
      rw [hskip] at hts
      rcases areSections_of_sections h with
        ⟨us, nl', sections, rfl, hnl', hsections, hnew, rfl, _⟩
      refine ⟨t :: nl ++ name :: us, nl', by simp [hts], hnl', ?_⟩
      rw [← stateOf_eq]
      exact IsState.mk ht hnl hword hsections hnew.1

theorem stateBody_of_isState {ts nl rest : List Token} {s : StateBlock}
    (h : IsState p.options ts (nl ++ rest) s) (hnl : AreNewlines nl) (hrest : EndsState rest) :
    exists t us, ts = t :: us ∧ t.kind = .keyword .state ∧
      p.stateBody t.line (us ++ (nl ++ rest)) = .ok (s, rest) := by
  cases h with
  | @mk t name nl' us _ sections ht hnl' hname hsections hnodup =>
      refine ⟨t, nl' ++ name :: us, by simp, ht, ?_⟩
      have hskip : Parser.skipNewlines (nl' ++ name :: us ++ (nl ++ rest)) =
          name :: (us ++ (nl ++ rest)) := by
        rw [List.append_assoc]
        exact skipNewlines_append hnl' (by simp [next?, hname])
      rw [Parser.stateBody, hskip, word_cons hname, stateOf_eq]
      exact sections_of_areSections hsections hnl hrest
        ⟨hnodup, fun kind _ => by cases kind <;> rfl⟩ rfl

theorem AreStates.absorb {options : Options} {nl us nl' : List Token} {ss : List StateBlock}
    (h : AreStates options us nl' ss) (hnl : AreNewlines nl) (hnl' : AreNewlines nl') :
    exists vs nl'', nl ++ (us ++ nl') = vs ++ nl'' ∧ AreNewlines nl'' ∧
      AreStates options vs nl'' ss := by
  cases h with
  | nil => exact ⟨[], nl ++ nl', by simp, hnl.append hnl', AreStates.nil⟩
  | @cons nl₁ ts us _ s ss hnl₁ hs hss =>
      refine ⟨nl ++ nl₁ ++ ts ++ us, nl', by simp, hnl', ?_⟩
      exact AreStates.cons (hnl.append hnl₁) hs hss

theorem AreStates.split {options : Options} {us nl rest : List Token} {ss : List StateBlock}
    (h : AreStates options us (nl ++ rest) ss) (hnl : AreNewlines nl) (hrest : EndsState rest) :
    exists nl' rest', us ++ (nl ++ rest) = nl' ++ rest' ∧ AreNewlines nl' ∧ EndsState rest' := by
  cases h with
  | nil => exact ⟨nl, rest, rfl, hnl, hrest⟩
  | @cons nl₁ ts us _ s ss hnl₁ hs hss =>
      refine ⟨nl₁, ts ++ us ++ (nl ++ rest), by simp, hnl₁, Or.inr ⟨.state, ?_, rfl⟩⟩
      cases hs with
      | mk ht => simp [next?, ht]

theorem areStates_of_states {ts rest : List Token} {ss : List StateBlock}
    (h : p.states ts = .ok (ss, rest)) :
    rest = [] ∧ exists us nl, ts = us ++ nl ∧ AreNewlines nl ∧ AreStates p.options us nl ss := by
  fun_induction Parser.states p ts generalizing ss rest with
  | case1 ts hskip =>
      cases h
      rcases skipNewlines_split ts with ⟨nl, hnl, hts⟩
      rw [hskip, List.append_nil] at hts
      exact ⟨rfl, [], nl, hts, hnl, AreStates.nil⟩
  | case2 => cases h
  | case3 ts t us hskip ht s r hs ih =>
      rcases Parser.map_eq_ok h with ⟨⟨ss', r'⟩, hss, hcons⟩
      cases hcons
      rcases skipNewlines_split ts with ⟨nl, hnl, hts⟩
      rcases isState_of_stateBody ht hs with ⟨vs, nl₁, hvs, hnl₁, hstate⟩
      rcases ih hss with ⟨hrest, ws, nl₂, rfl, hnl₂, hstates⟩
      rcases hstates.absorb hnl₁ hnl₂ with ⟨xs, nl₃, hsplit, hnl₃, hstates⟩
      rw [hsplit] at hvs hstate
      refine ⟨hrest, nl ++ vs ++ xs, nl₃, ?_, hnl₃, AreStates.cons hnl hstate hstates⟩
      rw [hts, hskip, hvs]
      simp
  | case4 => cases h

theorem states_of_skipNewlines {ts us : List Token}
    (h : Parser.skipNewlines ts = Parser.skipNewlines us) : p.states ts = p.states us := by
  rw [Parser.states, Parser.states, h]

theorem states_append {ts nl rest input : List Token} {ss : List StateBlock}
    (h : AreStates p.options ts (nl ++ rest) ss) (hnl : AreNewlines nl) (hrest : EndsState rest)
    (hinput : Parser.skipNewlines input = Parser.skipNewlines (ts ++ (nl ++ rest))) :
    p.states input = (p.states rest).map fun (more, r) => (ss ++ more, r) := by
  have hskip : forall {nl rest}, AreNewlines nl -> EndsState rest ->
      Parser.skipNewlines (nl ++ rest) = Parser.skipNewlines rest := by
    intro nl rest hnl hrest
    have hend := hrest.endsBlock.next?_ne_newline
    rw [skipNewlines_append hnl hend]
    exact (skipNewlines_append areNewlines_nil hend).symm
  generalize hmore : nl ++ rest = more at h
  induction h generalizing input with
  | nil =>
      rw [List.nil_append, hskip hnl hrest] at hinput
      rw [states_of_skipNewlines hinput]
      cases p.states rest with
      | error e => rfl
      | ok parsed => rfl
  | @cons nl' ts us _ s ss hnl' hs hss ih =>
      subst hmore
      rcases hss.split hnl hrest with ⟨nl₁, rest₁, hsplit, hnl₁, hrest₁⟩
      have hlater : p.states rest₁ = (p.states rest).map fun (more, r) => (ss ++ more, r) := by
        apply ih _ rfl
        rw [hsplit, hskip hnl₁ hrest₁]
      rw [hsplit] at hs
      rcases stateBody_of_isState hs hnl₁ hrest₁ with ⟨t, vs, rfl, ht, hbody⟩
      have hfirst : Parser.skipNewlines input = t :: (vs ++ (nl₁ ++ rest₁)) := by
        rw [hinput, List.append_assoc, List.append_assoc, hsplit, skipNewlines_append hnl']
        · rfl
        · simp [next?, ht]
      rw [Parser.states, hfirst]
      simp only [ht, if_true]
      rw [hbody]
      simp only [hlater]
      cases p.states rest with
      | error e => rfl
      | ok parsed => rfl

theorem states_of_areStates {ts nl : List Token} {ss : List StateBlock}
    (h : AreStates p.options ts nl ss) (hnl : AreNewlines nl) :
    p.states (ts ++ nl) = .ok (ss, []) := by
  rw [← List.append_nil nl] at h
  have hnone : p.states [] = .ok ([], []) := by
    rw [Parser.states]
    rfl
  have hstates := states_append h hnl (Or.inl rfl) rfl
  rw [hnone, List.append_nil] at hstates
  simpa [Except.map] using hstates

/-!
## Whole scripts
-/

theorem isFile_of_machine {ts rest : List Token} {script : Script}
    (h : p.machine ts = .ok (script, rest)) :
    IsFile p.options ts script := by
  unfold Parser.machine at h
  split at h
  · cases h
  · next t us hskip =>
      rcases skipNewlines_split ts with ⟨nl₁, hnl₁, hts⟩
      rw [hskip] at hts
      split at h
      · next ht =>
          unfold Parser.machineBody at h
          split at h
          · cases h
          · next name afterName hname =>
              rcases Parser.word_eq_ok hname with ⟨hskip₂, hword⟩
              rcases skipNewlines_split us with ⟨nl₂, hnl₂, hus⟩
              rw [hskip₂] at hus
              split at h
              · cases h
              · split at h
                · cases h
                · next action afterAction haction =>
                    rcases Parser.map_eq_ok h with ⟨⟨states, r⟩, hstates, hscript⟩
                    cases hscript
                    rcases isAction_of_action haction with ⟨vs, rfl, hderived⟩
                    rcases areStates_of_states hstates with ⟨_, ws, nl₃, rfl, hnl₃, hstates⟩
                    have hfile := IsFile.mk hnl₁ ht hnl₂ hword hderived hstates hnl₃
                    rw [hts, hus]
                    simpa using hfile
      · cases h

theorem machine_of_isAction {nl₁ nl₂ ts rest : List Token} {t name : Token} {action : ActionLine}
    (hnl₁ : AreNewlines nl₁) (ht : t.kind = .keyword .machine) (hnl₂ : AreNewlines nl₂)
    (hname : name.kind = .word) (haction : IsAction p.options false ts rest action) :
    p.machine (nl₁ ++ t :: nl₂ ++ name :: ts ++ rest) =
      (p.states rest).map fun (states, r) =>
        ({ line := t.line, name := name.text, action := action, states := states }, r) := by
  have hskip : Parser.skipNewlines (nl₁ ++ t :: nl₂ ++ name :: ts ++ rest) =
      t :: (nl₂ ++ name :: (ts ++ rest)) := by
    simp only [List.append_assoc, List.cons_append]
    exact skipNewlines_append hnl₁ (by simp [next?, ht])
  have hskip₂ : Parser.skipNewlines (nl₂ ++ name :: (ts ++ rest)) = name :: (ts ++ rest) :=
    skipNewlines_append hnl₂ (by simp [next?, hname])
  have hend : ¬ Parser.atActionEnd (ts ++ rest) = true := by
    rw [atActionEnd_iff]
    rcases haction.next?_eq rest with ⟨kind, hnext, hkind⟩
    rintro (hnil | hnewline | ⟨k, hk⟩)
    · rw [hnil] at hnext
      cases hnext
    · exact haction.next?_ne_newline hnewline
    · exact haction.not_endsBlock (Or.inr ⟨k, hk⟩)
  rw [Parser.machine, hskip]
  simp only [ht, if_true]
  rw [Parser.machineBody, hskip₂, word_cons hname]
  simp only [if_neg hend, action_of_isAction haction]

theorem machine_of_isFile {ts : List Token} {script : Script}
    (h : IsFile p.options ts script) :
    p.machine ts = .ok (script, []) := by
  cases h with
  | mk hnl₁ ht hnl₂ hname haction hstates hnl₃ =>
      rw [List.append_assoc, machine_of_isAction hnl₁ ht hnl₂ hname haction,
        states_of_areStates hstates hnl₃]
      rfl

end Grammar

theorem Script.ofTokens_eq_ok_iff {options : Options} {ts : List Token} {script : Script} :
    Script.ofTokens options ts = .ok script <-> Grammar.IsFile options ts script := by
  constructor
  · intro h
    unfold Script.ofTokens at h
    split at h
    · cases h
    · next parsed _ hparsed =>
        cases h
        exact Grammar.isFile_of_machine hparsed
  · intro h
    have hparsed : parseTokens options ts = .ok (script, []) := Grammar.machine_of_isFile h
    rw [Script.ofTokens, hparsed]

/--
Parsing accepts exactly the tokens that the grammar derives and gives the script that they
denote, and no tokens denote two scripts.
-/
theorem parsing_decides_grammar (options : Options) (ts : List Token) :
    (forall script, Script.ofTokens options ts = .ok script <->
      Grammar.IsFile options ts script) ∧
      forall script script', Grammar.IsFile options ts script ->
        Grammar.IsFile options ts script' -> script = script' := by
  constructor
  · intro script
    exact Script.ofTokens_eq_ok_iff
  · intro script script' h h'
    rw [← Script.ofTokens_eq_ok_iff] at h h'
    rw [h] at h'
    exact Except.ok.inj h'

end BehaviorScript

import BehaviorScript.Proofs.Basic
import BehaviorScript.Script.Build
import BehaviorScript.Script.Resolve

/-!
# Two builds side by side

Building goes through a script line by line and ends at the first line that fails.  When two
scripts have the same shape, their builds can be compared line by line: as long as both lines give
the same action the builds go on together, and the first lines that do not decide how the builds
differ.  What may differ is left to relations, so the same walk serves for two registries
and for two spellings of a script.
-/

namespace BehaviorScript

/-!
## Two results
-/

/--
Both results are values related by `P`, or both are errors related by `E`, or the first is an
error that `F` excuses, and then the second may be anything.
-/
inductive Compares {α β : Type} (F : CompileError -> Prop)
    (E : CompileError -> CompileError -> Prop) (P : α -> β -> Prop) :
    Except CompileError α -> Except CompileError β -> Prop where
  | ok {a : α} {b : β} : P a b -> Compares F E P (.ok a) (.ok b)
  | error {e e' : CompileError} : E e e' -> Compares F E P (.error e) (.error e')
  | excused {e : CompileError} {y : Except CompileError β} : F e -> Compares F E P (.error e) y

def Counted {α : Type} (R : α -> α -> Prop) (x y : α × Nat) : Prop :=
  R x.1 y.1 ∧ x.2 = y.2

namespace Compares

variable {α α' β β' : Type} {F : CompileError -> Prop} {E : CompileError -> CompileError -> Prop}
variable {P : α -> α' -> Prop} {Q : β -> β' -> Prop}

theorem bind {x : Except CompileError α} {x' : Except CompileError α'}
    {f : α -> Except CompileError β} {f' : α' -> Except CompileError β'}
    (hx : Compares F E P x x') (hf : forall a a', P a a' -> Compares F E Q (f a) (f' a')) :
    Compares F E Q (x >>= f) (x' >>= f') := by
  cases hx with
  | ok ha => exact hf _ _ ha
  | error he => exact error he
  | excused he => exact excused he

theorem imp {Q : α -> α' -> Prop} (hPQ : forall a a', P a a' -> Q a a')
    {x : Except CompileError α} {x' : Except CompileError α'} (hx : Compares F E P x x') :
    Compares F E Q x x' := by
  cases hx with
  | ok ha => exact ok (hPQ _ _ ha)
  | error he => exact error he
  | excused he => exact excused he

theorem map {f : α -> β} {f' : α' -> β'} {x : Except CompileError α}
    {x' : Except CompileError α'} (hx : Compares F E P x x')
    (hf : forall a a', P a a' -> Q (f a) (f' a')) : Compares F E Q (x.map f) (x'.map f') := by
  cases hx with
  | ok ha => exact ok (hf _ _ ha)
  | error he => exact error he
  | excused he => exact excused he

theorem mapM {R : α -> α' -> Prop} {f : α -> Except CompileError β}
    {f' : α' -> Except CompileError β'} (hf : forall a a', R a a' -> Compares F E Q (f a) (f' a'))
    {xs : List α} {xs' : List α'} (h : List.Forall₂ R xs xs') :
    Compares F E (List.Forall₂ Q) (xs.mapM f) (xs'.mapM f') := by
  induction h with
  | nil => exact ok List.Forall₂.nil
  | cons hx _ ih =>
      rw [List.mapM_cons, List.mapM_cons]
      apply (hf _ _ hx).bind
      intro b b' hb
      apply ih.bind
      intro bs bs' hbs
      exact ok (List.Forall₂.cons hb hbs)

theorem mapM_eq {R : α -> α' -> Prop} {f : α -> Except CompileError β}
    {f' : α' -> Except CompileError β}
    (hf : forall a a', R a a' -> Compares F E Eq (f a) (f' a'))
    {xs : List α} {xs' : List α'} (h : List.Forall₂ R xs xs') :
    Compares F E Eq (xs.mapM f) (xs'.mapM f') := by
  have hwalk := mapM hf h
  rwa [List.forall₂_eq_eq_eq] at hwalk

theorem resolveAll {R : α -> α -> Prop} {f f' : α -> Except CompileError (α × Nat)}
    (hf : forall a a', R a a' -> Compares F E (Counted R) (f a) (f' a'))
    {xs xs' : List α} (h : List.Forall₂ R xs xs') :
    Compares F E (Counted (List.Forall₂ R)) (BehaviorScript.resolveAll f xs)
      (BehaviorScript.resolveAll f' xs') := by
  induction h with
  | nil => exact ok ⟨List.Forall₂.nil, rfl⟩
  | cons hx _ ih =>
      rw [BehaviorScript.resolveAll, BehaviorScript.resolveAll]
      apply (hf _ _ hx).bind
      intro y y' hy
      apply ih.bind
      intro ys ys' hys
      exact ok ⟨List.Forall₂.cons hy.1 hys.1, congrArg₂ (· + ·) hy.2 hys.2⟩

theorem toOption_eq {x y : Except CompileError α} (h : Compares (fun _ => False) E Eq x y) :
    x.toOption = y.toOption := by
  cases h with
  | ok heq => rw [heq]
  | error _ => rfl
  | excused hno => cases hno

end Compares

/-!
## Two scripts of the same shape
-/

structure StateBlock.Matches (L : ActionLine -> ActionLine -> Prop) (s s' : StateBlock) : Prop where
  name : s.name = s'.name
  enter : List.Forall₂ L (Block.actionsOf s.enter) (Block.actionsOf s'.enter)
  exit : List.Forall₂ L (Block.actionsOf s.exit) (Block.actionsOf s'.exit)
  run : List.Forall₂ L (Block.actionsOf s.run) (Block.actionsOf s'.run)
  on : List.Forall₂ L (Block.actionsOf s.on) (Block.actionsOf s'.on)

structure Script.Matches (L : ActionLine -> ActionLine -> Prop) (s s' : Script) : Prop where
  name : s.name = s'.name
  action : L s.action s'.action
  states : List.Forall₂ (StateBlock.Matches L) s.states s'.states

theorem Script.matches_self (s : Script) : Matches Eq s s where
  name := rfl
  action := rfl
  states := List.forall₂_same.mpr fun _ _ =>
    have hsame (lines : List ActionLine) : List.Forall₂ Eq lines lines :=
      List.forall₂_same.mpr fun _ _ => rfl
    { name := rfl, enter := hsame _, exit := hsame _, run := hsame _, on := hsame _ }

/-!
## The walk
-/

/--
Lines related by `L` are built alike: their actions compare, and they fail alike where a message
key is given twice.
-/
structure BuildsAlike {σ : Type} (F : CompileError -> Prop)
    (E : CompileError -> CompileError -> Prop) (L : ActionLine -> ActionLine -> Prop)
    (options : Options) (registry registry' : Registry σ) : Prop where
  message : forall a b, L a b -> a.message = b.message
  repeated : forall a b key, L a b ->
    E (.duplicateMessage a.line key) (.duplicateMessage b.line key)
  build : forall a b, L a b ->
    Compares F E Eq (a.build options registry) (b.build options registry')

namespace BuildsAlike

variable {σ : Type} {F : CompileError -> Prop} {E : CompileError -> CompileError -> Prop}
variable {L : ActionLine -> ActionLine -> Prop} {options : Options}
variable {registry registry' : Registry σ}

theorem buildHandlers (h : BuildsAlike F E L options registry registry')
    {lines lines' : List ActionLine} (hlines : List.Forall₂ L lines lines')
    (keys : List String) (s : State σ) :
    Compares F E Eq (ActionLine.buildHandlers options registry keys s lines)
      (ActionLine.buildHandlers options registry' keys s lines') := by
  induction hlines generalizing keys s with
  | nil => exact Compares.ok rfl
  | @cons a b lines lines' hab _ ih =>
      rw [ActionLine.buildHandlers, ActionLine.buildHandlers, ← h.message a b hab]
      by_cases hkey : a.message.getD "" ∈ keys
      · rw [if_pos hkey, if_pos hkey]
        exact Compares.error (h.repeated a b _ hab)
      · rw [if_neg hkey, if_neg hkey]
        -- the rest of the lines is only built when both lines gave the same action
        have hbuild := h.build a b hab
        generalize a.build options registry = x at hbuild
        generalize b.build options registry' = y at hbuild
        cases hbuild with
        | ok heq =>
            cases heq
            exact ih _ _
        | error he => exact Compares.error he
        | excused he => exact Compares.excused he

theorem stateBlock (h : BuildsAlike F E L options registry registry') {s s' : StateBlock}
    (hs : s.Matches L s') :
    Compares F E Eq (s.build options registry) (s'.build options registry') := by
  unfold StateBlock.build
  apply (Compares.mapM_eq h.build hs.enter).bind
  rintro enter _ rfl
  apply (Compares.mapM_eq h.build hs.exit).bind
  rintro exit _ rfl
  apply (Compares.mapM_eq h.build hs.run).bind
  rintro run _ rfl
  rw [hs.name]
  exact h.buildHandlers hs.on [] _

theorem script (h : BuildsAlike F E L options registry registry') {s s' : Script}
    (hs : s.Matches L s') :
    Compares F E Eq (s.build options registry) (s'.build options registry') := by
  have hstates : Compares F E Eq (s.states.mapM (StateBlock.build options registry))
      (s'.states.mapM (StateBlock.build options registry')) :=
    Compares.mapM_eq (fun _ _ hblock => h.stateBlock hblock) hs.states
  unfold Script.build
  apply (h.build _ _ hs.action).bind
  rintro enter _ rfl
  apply hstates.bind
  rintro states _ rfl
  rw [hs.name]
  exact Compares.ok rfl

end BuildsAlike

end BehaviorScript

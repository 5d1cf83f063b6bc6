import BehaviorScript.Proofs.RunSection

/-!
# Run sections that never go back

An action may move the index of its own section.  As long as no action that is done moves it back,
every call of a tick is made at a higher index than the call before.  Then the calls are no more
than the actions that were left, no action is called twice, and the tick comes to its end by itself
and not because of the limit.  That a tick ends is said by runs of the section that know of no
limit.
-/

namespace BehaviorScript

variable {σ : Type}

/--
A call that is done leaves an index that is not before the one it was made at, and that can still be
counted up.  Of other calls nothing is asked.
-/
def Note.GoesForward (n : Note σ) : Prop :=
  n.answer = .done ->
    n.seen.position.actionIndex ≤ n.left.position.actionIndex ∧
      n.left.position.actionIndex.toNat < 2 ^ 64 - 1

instance (n : Note σ) : Decidable n.GoesForward :=
  inferInstanceAs (Decidable (_ -> _ ∧ _))

theorem Context.toNat_index_advance {c : Context σ}
    (h : c.position.actionIndex.toNat < 2 ^ 64 - 1) :
    c.advance.position.actionIndex.toNat = c.position.actionIndex.toNat + 1 := by
  show (c.position.actionIndex + 1).toNat = _
  rw [UInt64.toNat_add]
  exact Nat.mod_eq_of_lt (Nat.add_lt_of_lt_sub h)

theorem Note.GoesForward.index_lt {x : Action σ} {site : Site} {c : Context σ}
    (h : (x.note site c).GoesForward) (hdone : (x c).value = .done) :
    c.position.actionIndex.toNat < (x c).context.advance.position.actionIndex.toNat := by
  rcases h hdone with ⟨hle, hlt⟩
  have hleft : c.position.actionIndex.toNat ≤ (x c).context.position.actionIndex.toNat :=
    UInt64.le_iff_toNat_le.mp hle
  have hnext : (x c).context.advance.position.actionIndex.toNat =
      (x c).context.position.actionIndex.toNat + 1 :=
    Context.toNat_index_advance hlt
  omega

namespace State

/-!
## Runs without a limit
-/

def report (s : State σ) (step : Step σ TickResult) : List Event :=
  step.events ++ [.ticked s.name step.context.position.actionIndex step.value]

def outcome? (s : State σ) (step : Step σ TickResult) : Option (Step σ TickResult) :=
  match step.value with
  | .done => none
  | .yield => some ⟨.yield, step.context, s.report step⟩
  | .loop => some ⟨.yield, step.context.setActionIndex 0, s.report step⟩
  | .transition destination => some ⟨.transition destination, step.context, s.report step⟩

/--
The run section, taken up in the first context, makes these calls and ends like this.  A section
that goes on for ever ends in no way.
-/
inductive RunsTo (s : State σ) (k : Nat) :
    Context σ -> List (Note σ) -> Step σ TickResult -> Prop where
  | exhausted {c : Context σ} :
      s.run[c.position.actionIndex.toNat]? = none -> RunsTo s k c [] ⟨.yield, c, []⟩
  | goesOn {c : Context σ} {x : Action σ} {calls : List (Note σ)} {step : Step σ TickResult} :
      s.run[c.position.actionIndex.toNat]? = some x -> (x c).value = .done ->
      RunsTo s k (x c).context.advance calls step ->
      RunsTo s k c (x.note ⟨.run, k, c.position.actionIndex.toNat⟩ c :: calls)
        { step with events := s.report (x c) ++ step.events }
  | ends {c : Context σ} {x : Action σ} {step : Step σ TickResult} :
      s.run[c.position.actionIndex.toNat]? = some x -> s.outcome? (x c) = some step ->
      RunsTo s k c [x.note ⟨.run, k, c.position.actionIndex.toNat⟩ c] step

variable {s : State σ} {c : Context σ} {x : Action σ} {step : Step σ TickResult}

theorem outcome?_eq_none_iff : s.outcome? step = none <-> step.value = .done := by
  unfold outcome?
  cases step.value with
  | done | yield | loop | transition destination => simp

theorem value_ne_of_outcome? {result : Step σ TickResult} (h : s.outcome? step = some result) :
    result.value ≠ .done ∧ result.value ≠ .loop := by
  unfold outcome? at h
  cases hvalue : step.value with
  | done =>
      rw [hvalue] at h
      cases h
  | yield | loop | transition destination =>
      rw [hvalue] at h
      cases h
      simp

theorem cascade_eq_outcome? (hx : s.run[c.position.actionIndex.toNat]? = some x) (limit : Nat) :
    s.cascade (limit + 1) c =
      (s.outcome? (x c)).getD
        { s.cascade limit (x c).context.advance with
          events := s.report (x c) ++ (s.cascade limit (x c).context.advance).events } := by
  rw [cascade]
  simp only [Activity.bind_apply, Activity.look_apply, hx]
  unfold outcome? report
  cases (x c).value with
  | done | yield | loop => simp [Activity.bind_apply, Context.advance]
  | transition destination => simp

/-!
## Runs and ticks
-/

namespace RunsTo

variable {k : Nat} {calls : List (Note σ)}

theorem value_ne (h : s.RunsTo k c calls step) : step.value ≠ .done ∧ step.value ≠ .loop := by
  induction h with
  | exhausted => simp
  | goesOn _ _ _ ih => exact ih
  | ends _ hends => exact value_ne_of_outcome? hends

/--
A tick whose limit is more than the calls of the run is this run.
-/
theorem cascade_eq (h : s.RunsTo k c calls step) {limit : Nat} (hlimit : calls.length < limit) :
    s.cascade limit c = step := by
  induction h generalizing limit with
  | exhausted hnone =>
      rcases Nat.exists_eq_succ_of_ne_zero (Nat.ne_zero_of_lt hlimit) with ⟨limit, rfl⟩
      exact cascade_of_none hnone limit
  | goesOn hx hdone _ ih =>
      rcases Nat.exists_eq_succ_of_ne_zero (Nat.ne_zero_of_lt hlimit) with ⟨limit, rfl⟩
      rw [cascade_eq_outcome? hx, outcome?_eq_none_iff.mpr hdone,
        ih (Nat.lt_of_succ_lt_succ hlimit)]
      rfl
  | ends hx hends =>
      rcases Nat.exists_eq_succ_of_ne_zero (Nat.ne_zero_of_lt hlimit) with ⟨limit, rfl⟩
      rw [cascade_eq_outcome? hx, hends]
      rfl

theorem site_eq (h : s.RunsTo k c calls step) :
    forall n, n ∈ calls -> n.site = ⟨.run, k, n.seen.position.actionIndex.toNat⟩ := by
  induction h with
  | exhausted => simp
  | goesOn _ _ _ ih => exact List.forall_mem_cons.mpr ⟨rfl, ih⟩
  | ends => exact List.forall_mem_cons.mpr ⟨rfl, List.forall_mem_nil _⟩

theorem index_le (h : s.RunsTo k c calls step) (hforward : forall n, n ∈ calls -> n.GoesForward) :
    forall n, n ∈ calls -> c.position.actionIndex.toNat ≤ n.site.index := by
  induction h with
  | exhausted => simp
  | goesOn _ hdone _ ih =>
      rcases List.forall_mem_cons.mp hforward with ⟨hfirst, hrest⟩
      have hlt := hfirst.index_lt hdone
      refine List.forall_mem_cons.mpr ⟨Nat.le_refl _, fun n hn => ?_⟩
      exact Nat.le_trans (Nat.le_of_lt hlt) (ih hrest n hn)
  | ends => exact List.forall_mem_cons.mpr ⟨Nat.le_refl _, List.forall_mem_nil _⟩

theorem ascending (h : s.RunsTo k c calls step) (hforward : forall n, n ∈ calls -> n.GoesForward) :
    calls.Pairwise fun n later => n.site.index < later.site.index := by
  induction h with
  | exhausted => exact .nil
  | goesOn _ hdone hrun ih =>
      rcases List.forall_mem_cons.mp hforward with ⟨hfirst, hrest⟩
      have hlt := hfirst.index_lt hdone
      refine List.pairwise_cons.mpr ⟨fun later hlater => ?_, ih hrest⟩
      exact Nat.lt_of_lt_of_le hlt (hrun.index_le hrest later hlater)
  | ends => exact List.pairwise_singleton _ _

theorem length_le (h : s.RunsTo k c calls step) (hforward : forall n, n ∈ calls -> n.GoesForward) :
    calls.length ≤ s.run.length - c.position.actionIndex.toNat := by
  induction h with
  | exhausted => exact Nat.zero_le _
  | goesOn hx hdone _ ih =>
      rcases List.forall_mem_cons.mp hforward with ⟨hfirst, hrest⟩
      have hlt := hfirst.index_lt hdone
      have hinside := (List.getElem?_eq_some_iff.mp hx).1
      have hlength := ih hrest
      rw [List.length_cons]
      omega
  | ends hx =>
      have hinside := (List.getElem?_eq_some_iff.mp hx).1
      rw [List.length_singleton]
      omega

end RunsTo

theorem runsTo_cascade {k limit : Nat}
    (hforward : forall n, n ∈ s.runNotes k limit c -> n.GoesForward)
    (hlimit : 2 ^ 64 - c.position.actionIndex.toNat ≤ limit) :
    s.RunsTo k c (s.runNotes k limit c) (s.cascade limit c) := by
  induction limit generalizing c with
  | zero =>
      have hindex := c.position.actionIndex.toNat_lt
      omega
  | succ limit ih =>
      cases hx : s.run[c.position.actionIndex.toNat]? with
      | none =>
          rw [runNotes_of_none hx, cascade_of_none hx]
          exact .exhausted hx
      | some x =>
          rw [runNotes_of_some hx] at hforward ⊢
          rw [cascade_eq_outcome? hx]
          rcases List.forall_mem_cons.mp hforward with ⟨hfirst, hrest⟩
          by_cases hdone : (x c).value = .done
          · have hlt := hfirst.index_lt hdone
            rw [if_pos hdone] at hrest ⊢
            rw [outcome?_eq_none_iff.mpr hdone]
            exact .goesOn hx hdone (ih hrest (by omega))
          · have hends : s.outcome? (x c) ≠ none := mt outcome?_eq_none_iff.mp hdone
            rcases Option.ne_none_iff_exists'.mp hends with ⟨step, hstep⟩
            rw [if_neg hdone, hstep]
            exact .ends hx hstep

/--
A tick of the run section ends by itself, after no more calls than there were actions left, each of
them at a higher index than the one before.
-/
structure EndsForward (s : State σ) (k : Nat) (c : Context σ) : Prop where
  faithful : ((s.noted k).tick c.noted).unnoted = s.tick c
  runsTo : s.RunsTo k c (s.tickCalls k c) (s.tick c)
  answer_ne : (s.tick c).value ≠ .done ∧ (s.tick c).value ≠ .loop
  threaded : Note.AreThreaded s.run c (s.tickCalls k c)
  site_eq : forall n, n ∈ s.tickCalls k c ->
    n.site = ⟨.run, k, n.seen.position.actionIndex.toNat⟩
  ascending : (s.tickCalls k c).Pairwise fun n later => n.site.index < later.site.index
  length_le : (s.tickCalls k c).length ≤ s.run.length - c.position.actionIndex.toNat
  counted : forall n, n ∈ s.tickCalls k c -> n.answer = .done ->
    n.left.advance.position.actionIndex.toNat = n.left.position.actionIndex.toNat + 1
  unlimited : forall limit, s.run.length - c.position.actionIndex.toNat < limit ->
    s.cascade limit c = s.tick c

end State

/--
A tick of a run section ends if none of its calls moves the index back.  The calls may skip actions,
and may change the rest of the context as they like.
-/
theorem forward_run_sections_end (s : State σ) (k : Nat) (c : Context σ)
    (hforward : forall n, n ∈ s.tickCalls k c -> n.GoesForward) : s.EndsForward k c := by
  have hruns : s.RunsTo k c (s.tickCalls k c) (s.tick c) := by
    rw [State.tickCalls_eq] at hforward ⊢
    exact State.runsTo_cascade hforward (Nat.sub_le _ _)
  have hlength := hruns.length_le hforward
  exact {
    faithful := ((s.cascade_notes k State.cascadeLimit).of_noted c).1
    runsTo := hruns
    answer_ne := hruns.value_ne
    threaded := by
      rw [State.tickCalls_eq]
      exact s.areThreaded_runNotes k State.cascadeLimit c
    site_eq := hruns.site_eq
    ascending := hruns.ascending hforward
    length_le := hlength
    counted := fun n hn hdone => Context.toNat_index_advance (hforward n hn hdone).2
    unlimited := fun limit hlimit => hruns.cascade_eq (Nat.lt_of_le_of_lt hlength hlimit) }

def Action.skipping (count : UInt64) (answer : TickResult) : Action Nat :=
  fun c => ⟨answer, { c with
    position := ⟨c.position.stateId + 1, c.position.actionIndex + count⟩
    data := c.data + 1 }, []⟩

def State.hopper : State Nat where
  name := "hopper"
  run := [
    Action.skipping 1 .done,
    Action.skipping 0 .loop,
    Action.skipping 0 .done,
    Action.skipping 18446744073709551611 .done]

theorem forward_run_sections_end_hopper :
    (forall n, n ∈ State.hopper.tickCalls 7 { data := 0 } -> n.GoesForward) ∧
      (State.hopper.tickCalls 7 { data := 0 }).map (·.site.index) = [0, 2, 3] ∧
      State.hopper.EndsForward 7 { data := 0 } := by
  have hforward : forall n, n ∈ State.hopper.tickCalls 7 { data := 0 } -> n.GoesForward := by
    decide +kernel
  exact ⟨hforward, by decide +kernel, forward_run_sections_end _ _ _ hforward⟩

end BehaviorScript

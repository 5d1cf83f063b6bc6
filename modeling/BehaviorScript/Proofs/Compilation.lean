import BehaviorScript.Compiler

/-!
# What a compilation went through

A compilation ends at the first stage that fails, or with a machine.  This module reads the
stages back: which of them succeeded, on what, and what they told of.  For a source that
compiles, these are the script that was parsed, the table of its state names, and the
machine that carries out that script line by line.  Facts about compilations start from
here and do not open the stages again.
-/

namespace BehaviorScript

variable {σ : Type}

/-!
## Nothing is left of earlier sources

Both parts of a workspace are emptied before they are used, so the tokens and the table of
names are those of the source alone.
-/

theorem Lexer.scan_eq (l : Lexer) (source : String) :
    l.scan source =
      (⟨(BehaviorScript.scan source).tokens, (BehaviorScript.scan source).stuck?⟩,
        (BehaviorScript.scan source).finish) := by
  show l.clear.extend source.toList = _
  simp [Lexer.clear, Lexer.extend, isFresh, BehaviorScript.scan]

theorem Script.resolve_eq (previous : NameTable) (s : Script) :
    s.resolve previous = s.resolve {} :=
  rfl

/-!
## The stages
-/

/--
How the compilation of a source ends: stuck in the scan, at a stage that fails on what the stage
before it gave, or with a machine.
-/
inductive Compilation.Ends (options : Options) (registry : Registry σ) (source : String) :
    Compilation σ -> Prop where
  | stuck {offset line : Nat} :
      (scan source).finish = .stuck offset line ->
      Ends options registry source ⟨.error (.unreadable line), [.scanStuck offset line]⟩
  | unparsed {line : Nat} {e : CompileError} :
      (scan source).finish = .complete line ->
      Script.ofTokens options (scan source).tokens = .error e ->
      Ends options registry source
        ⟨.error e, [.scanEnded (scan source).tokens.length line,
          .lexed (scan source).tokens.length]⟩
  | unresolved {line : Nat} {script : Script} {table : NameTable} {e : CompileError} :
      (scan source).finish = .complete line ->
      Script.ofTokens options (scan source).tokens = .ok script ->
      script.resolve {} = (.error e, table) ->
      Ends options registry source
        ⟨.error e, [.scanEnded (scan source).tokens.length line,
          .lexed (scan source).tokens.length, .parsed script.name script.states.length]⟩
  | unbuilt {line transitions : Nat} {script resolved : Script} {table : NameTable}
      {e : CompileError} :
      (scan source).finish = .complete line ->
      Script.ofTokens options (scan source).tokens = .ok script ->
      script.resolve {} = (.ok (resolved, transitions), table) ->
      resolved.build options registry = .error e ->
      Ends options registry source
        ⟨.error e, [.scanEnded (scan source).tokens.length line,
          .lexed (scan source).tokens.length, .parsed script.name script.states.length,
          .resolved table.size transitions]⟩
  | built {line transitions : Nat} {script resolved : Script} {table : NameTable}
      {machine : Machine σ} :
      (scan source).finish = .complete line ->
      Script.ofTokens options (scan source).tokens = .ok script ->
      script.resolve {} = (.ok (resolved, transitions), table) ->
      resolved.build options registry = .ok machine ->
      Ends options registry source
        { result := .ok
            { machine := machine
              tokens := (scan source).tokens.length
              states := resolved.states.length
              transitions := transitions
              actions := resolved.actions.length }
          events := [.scanEnded (scan source).tokens.length line,
            .lexed (scan source).tokens.length, .parsed script.name script.states.length,
            .resolved table.size transitions, .generated machine.name machine.states.length] }

theorem Compilation.run_ends (options : Options) (registry : Registry σ) (workspace : Workspace)
    (source : String) :
    Ends options registry source (run options registry workspace source).1 := by
  unfold run
  rw [Lexer.scan_eq]
  cases hfinish : (scan source).finish with
  | stuck offset line =>
      have hstuck : (scan source).stuck? = some (offset, line) := by
        simp [Scan.stuck?, hfinish]
      simp only [hstuck]
      exact Ends.stuck hfinish
  | complete line =>
      have hstuck : (scan source).stuck? = none := by
        simp [Scan.stuck?, hfinish]
      simp only [hstuck]
      cases hparse : Script.ofTokens options (scan source).tokens with
      | error e => exact Ends.unparsed hfinish hparse
      | ok script =>
          simp only [Script.resolve_eq]
          rcases hresolve : script.resolve {} with ⟨e | ⟨resolved, transitions⟩, table⟩
          · exact Ends.unresolved hfinish hparse hresolve
          · simp only [building]
            cases hbuild : resolved.build options registry with
            | error e => exact Ends.unbuilt hfinish hparse hresolve hbuild
            | ok machine => exact Ends.built hfinish hparse hresolve hbuild

/-!
## Sources that compile
-/

/--
The source passed every stage: it was parsed into `script`, its state names make up `table`,
and `machine` was built from the script resolved by that table.
-/
structure Compiled {σ : Type} (options : Options) (registry : Registry σ) (source : String)
    (script : Script) (table : NameTable) (machine : Machine σ) : Prop where
  scanned : (scan source).isComplete = true
  parsed : Script.ofTokens options (scan source).tokens = .ok script
  named : NameTable.fill {} 0 script.states = (table, none)
  built : exists resolved transitions, script.resolveWith table = .ok (resolved, transitions) ∧
    resolved.build options registry = .ok machine

theorem Script.resolve_eq_ok {script resolved : Script} {previous table : NameTable}
    {transitions : Nat} (h : script.resolve previous = (.ok (resolved, transitions), table)) :
    NameTable.fill {} 0 script.states = (table, none) ∧
      script.resolveWith table = .ok (resolved, transitions) := by
  unfold resolve at h
  split at h
  · cases h
  · next t hfill =>
      rcases Prod.mk.inj h with ⟨hwith, rfl⟩
      exact ⟨hfill, hwith⟩

theorem numbers_of_compile_eq_ok {options : Options} {registry : Registry σ}
    {source : String} {b : Build σ}
    (h : (compile options registry source).result = .ok b) :
    exists script table resolved, Compiled options registry source script table b.machine ∧
      script.resolveWith table = .ok (resolved, b.transitions) ∧
      b.tokens = (scan source).tokens.length ∧
      b.states = resolved.states.length ∧
      b.actions = resolved.actions.length := by
  have hends := Compilation.run_ends options registry {} source
  unfold compile at h
  generalize (Compilation.run options registry {} source).1 = c at h hends
  cases hends with
  | stuck => cases h
  | unparsed => cases h
  | unresolved => cases h
  | unbuilt => cases h
  | built hfinish hparse hresolve hbuild =>
      cases h
      rcases Script.resolve_eq_ok hresolve with ⟨hfill, hwith⟩
      have hscan : (scan source).isComplete = true := by
        simp [Scan.isComplete, Scan.stuck?, hfinish]
      exact ⟨_, _, _, ⟨hscan, hparse, hfill, _, _, hwith, hbuild⟩, hwith, rfl, rfl, rfl⟩

theorem compiled_of_compile_eq_ok {options : Options} {registry : Registry σ}
    {source : String} {b : Build σ}
    (h : (compile options registry source).result = .ok b) :
    exists script table, Compiled options registry source script table b.machine := by
  rcases numbers_of_compile_eq_ok h with ⟨script, table, _, hcompiled, _⟩
  exact ⟨script, table, hcompiled⟩

end BehaviorScript

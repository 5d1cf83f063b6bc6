import BehaviorScript.Proofs.Compilation

/-!
# Reuse leaves no trace

A compiler is kept for many sources, and with it a lexer and a table of state names.  What an
earlier source left in them is never seen again, at whichever stage its compilation ended:
every source is compiled as if the compiler were new and had only the actions that are
registered by then.
-/

namespace BehaviorScript

/-!
## One request after another
-/

def answers {α ρ β : Type} (serve : α -> ρ -> β × α) : α -> List ρ -> List β
  | _, [] => []
  | state, request :: rest =>
      (serve state request).1 :: answers serve (serve state request).2 rest

theorem answers_eq_map {α ρ β : Type} {serve : α -> ρ -> β × α} {f : ρ -> β}
    (h : forall state request, (serve state request).1 = f request)
    (state : α) (requests : List ρ) : answers serve state requests = requests.map f := by
  induction requests generalizing state with
  | nil => rfl
  | cons request rest ih => rw [answers, h, ih, List.map_cons]

/-!
## Compilers
-/

variable {σ : Type}

theorem Compilation.run_eq_compile (options : Options) (registry : Registry σ)
    (workspace : Workspace) (source : String) :
    (run options registry workspace source).1 = compile options registry source := by
  unfold compile run
  simp only [Lexer.scan_eq, Script.resolve_eq workspace.names]
  cases (scan source).stuck? with
  | some place => rfl
  | none =>
      dsimp only
      cases Script.ofTokens options (scan source).tokens with
      | error e => rfl
      | ok script => rfl

inductive Request (σ : Type) where
  | compile (source : String)
  | register (schema : Schema σ)

inductive Answer (σ : Type) where
  | compiled (c : Compilation σ)
  | registered (result : Except RegistryError Unit)

def Compiler.serve (c : Compiler σ) : Request σ -> Answer σ × Compiler σ
  | .compile source => (.compiled (c.compile source).1, (c.compile source).2)
  | .register schema => (.registered (c.register schema).1, (c.register schema).2)

/--
The same requests served with a new compiler for each source, so that nothing but the registry is
kept.
-/
def Registry.serve (options : Options) (r : Registry σ) : Request σ -> Answer σ × Registry σ
  | .compile source => (.compiled (compile options r source), r)
  | .register schema => (.registered (r.register schema).1, (r.register schema).2)

theorem Compiler.serve_eq (c : Compiler σ) (request : Request σ) :
    (c.serve request).2.options = c.options ∧
      c.registry.serve c.options request =
        ((c.serve request).1, (c.serve request).2.registry) := by
  cases request with
  | compile source =>
      constructor
      · rfl
      · simp only [serve, Registry.serve, Compiler.compile, Compilation.run_eq_compile]
  | register schema => exact ⟨rfl, rfl⟩

theorem Compiler.answers_eq (c : Compiler σ) (requests : List (Request σ)) :
    answers serve c requests = answers (Registry.serve c.options) c.registry requests := by
  induction requests generalizing c with
  | nil => rfl
  | cons request rest ih =>
      rcases c.serve_eq request with ⟨hoptions, hserve⟩
      rw [answers, answers, hserve, ih, hoptions]

/--
A compiler, whatever it was used for before, answers every sequence of requests as a new one would
for each source, with the actions that are registered by then.  So does a lexer that scans one
source after another, and a table of names that is used for one script after another.
-/
theorem reuse_leaves_no_trace (c : Compiler σ) :
    (forall requests, answers Compiler.serve c requests =
        answers (Registry.serve c.options) c.registry requests) ∧
      (forall (l : Lexer) (sources : List String),
        answers (fun l source => (l.scan source, (l.scan source).1)) l sources =
          sources.map fun source => Lexer.scan {} source) ∧
      (forall (t : NameTable) (scripts : List Script),
        answers (fun t s => (s.resolve t, (s.resolve t).2)) t scripts =
          scripts.map fun s => s.resolve {}) := by
  refine ⟨c.answers_eq, ?_, ?_⟩
  · intro l sources
    apply answers_eq_map
    intro l source
    rw [Lexer.scan_eq, Lexer.scan_eq]
  · intro t scripts
    apply answers_eq_map
    intro t s
    exact Script.resolve_eq t s

end BehaviorScript

import BehaviorScript.Event

/-!
# Actions

An activity is something done to a context: it may change the context, it gives a
value, and it tells of events.  Activities are put one after another, so that each
begins with the context that the one before it left behind.  An action is an activity
that answers how the tick goes on.
-/

namespace BehaviorScript

/--
What an activity comes to: its value, the context it leaves behind, and the events on the way.
-/
structure Step (σ α : Type) where
  value : α
  context : Context σ
  events : List Event := []

/--
Something done to a context.
-/
def Activity (σ α : Type) : Type :=
  Context σ -> Step σ α

namespace Activity

def done {σ α : Type} (a : α) : Activity σ α :=
  fun c => ⟨a, c, []⟩

def andThen {σ α β : Type} (x : Activity σ α) (f : α -> Activity σ β) : Activity σ β :=
  fun c =>
    let first := x c
    let second := f first.value first.context
    ⟨second.value, second.context, first.events ++ second.events⟩

instance {σ : Type} : Monad (Activity σ) where
  pure := done
  bind := andThen

def look {σ : Type} : Activity σ (Context σ) :=
  fun c => ⟨c, c, []⟩

def change {σ : Type} (f : Context σ -> Context σ) : Activity σ Unit :=
  fun c => ⟨(), f c, []⟩

def tell {σ : Type} (e : Event) : Activity σ Unit :=
  fun c => ⟨(), c, [e]⟩

/--
Record a fault, which takes the place of an earlier one.
-/
def raise {σ : Type} (fault : Fault) : Activity σ Unit :=
  fun c => ⟨(), { c with lastError := some fault }, [.raised fault c.position.stateId]⟩

/-!
## What the activities come to
-/

@[simp] theorem pure_apply {σ α : Type} (a : α) (c : Context σ) :
    (pure a : Activity σ α) c = ⟨a, c, []⟩ :=
  rfl

@[simp] theorem bind_apply {σ α β : Type} (x : Activity σ α) (f : α -> Activity σ β)
    (c : Context σ) :
    (x >>= f) c =
      ⟨(f (x c).value (x c).context).value, (f (x c).value (x c).context).context,
        (x c).events ++ (f (x c).value (x c).context).events⟩ :=
  rfl

@[simp] theorem look_apply {σ : Type} (c : Context σ) : look c = ⟨c, c, []⟩ :=
  rfl

@[simp] theorem change_apply {σ : Type} (f : Context σ -> Context σ) (c : Context σ) :
    change f c = ⟨(), f c, []⟩ :=
  rfl

@[simp] theorem tell_apply {σ : Type} (e : Event) (c : Context σ) : tell e c = ⟨(), c, [e]⟩ :=
  rfl

@[simp] theorem raise_apply {σ : Type} (fault : Fault) (c : Context σ) :
    raise fault c = ⟨(), { c with lastError := some fault }, [.raised fault c.position.stateId]⟩ :=
  rfl

end Activity

abbrev Action (σ : Type) : Type :=
  Activity σ TickResult

end BehaviorScript

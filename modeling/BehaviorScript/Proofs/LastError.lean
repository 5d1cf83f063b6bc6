import BehaviorScript.Proofs.TransitionOrder
import BehaviorScript.Proofs.RunSection

/-!
# The error after a tick

The context keeps one error, and the last one written is the one that stays.  A tick may write
several: for exit actions that are not done, for a destination that does not exist, and for enter
actions that are not done.  If the actions themselves leave the error and the position alone, the
error after a tick is a function of what the actions answered in that tick.
-/

namespace BehaviorScript

variable {σ : Type}

namespace Machine

def tickCalls (m : Machine σ) (roles : List Role) (c : Context σ) : List (Note σ) :=
  (m.noted.tick c.noted).notes.filter fun n => n.site.role ∈ roles

end Machine

/-!
## Enter and exit actions
-/

namespace State

end State

/-!
## Transitions
-/

namespace Machine

variable {m : Machine σ}

structure Divides (m : Machine σ) (c : Context σ) (opening exits enters : List (Note σ)) :
    Prop where
  notes : m.tickNotes c = opening ++ (exits ++ enters)
  opening : forall n, n ∈ opening -> n.site.role = .start ∨ n.site.role = .run
  exits : forall n, n ∈ exits -> n.site.role = .exit
  enters : forall n, n ∈ enters -> n.site.role = .enter

section Parts

variable {c : Context σ} {opening exits enters : List (Note σ)}

theorem Divides.tickCalls_eq (h : m.Divides c opening exits enters) :
    m.tickCalls [.start, .run] c = opening ∧ m.tickCalls [.exit] c = exits ∧
      m.tickCalls [.enter] c = enters := by
  have hfilter (roles : List Role) : m.tickCalls roles c =
      opening.filter (fun n => n.site.role ∈ roles) ++
        (exits.filter (fun n => n.site.role ∈ roles) ++
          enters.filter (fun n => n.site.role ∈ roles)) := by
    rw [tickCalls, (m.tick_notes.of_noted c).2, h.notes, List.filter_append, List.filter_append]
  have hall (roles : List Role) (notes : List (Note σ))
      (hroles : forall n, n ∈ notes -> n.site.role ∈ roles) :
      notes.filter (fun n => n.site.role ∈ roles) = notes := by
    simpa using hroles
  have hnone (roles : List Role) (notes : List (Note σ))
      (hroles : forall n, n ∈ notes -> n.site.role ∉ roles) :
      notes.filter (fun n => n.site.role ∈ roles) = [] := by
    simpa using hroles
  refine ⟨?_, ?_, ?_⟩
  · rw [hfilter, hall _ opening, hnone _ exits, hnone _ enters]
    all_goals grind [Divides]
  · rw [hfilter, hnone _ opening, hall _ exits, hnone _ enters]
    all_goals grind [Divides]
  · rw [hfilter, hnone _ opening, hnone _ exits, hall _ enters]
    all_goals grind [Divides]

end Parts

end Machine

end BehaviorScript

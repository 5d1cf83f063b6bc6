/-!
# Letter case

Names in a script (actions, states, properties) are compared without regard to
the case of ASCII letters.  Every other character, accented letters included,
stands for itself alone.
-/

namespace BehaviorScript
namespace Text

def foldCase (s : String) : String :=
  s.map Char.toLower

/--
Two names are the same when they differ at most in the case of ASCII letters.
-/
def sameName (a b : String) : Bool :=
  foldCase a == foldCase b

theorem sameName_iff {a b : String} :
    sameName a b = true <-> foldCase a = foldCase b := by
  simp [sameName]

theorem toList_foldCase (s : String) :
    (foldCase s).toList = s.toList.map Char.toLower :=
  String.toList_map

end Text
end BehaviorScript

/-!
# Intervals of code points

Character classes beyond ASCII are unions of intervals of code points. `within` decides membership
in such a union.
-/

namespace ServerTemplate.Text

/-- Membership in a union of intervals, both ends included. -/
def within (intervals : List (Nat × Nat)) (n : Nat) : Bool :=
  intervals.any fun (first, last) => first ≤ n && n ≤ last

end ServerTemplate.Text

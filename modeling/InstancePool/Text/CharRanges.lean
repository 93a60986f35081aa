/-!
Membership of a code point in a list of closed ranges. The tables of this folder list their ranges
in ascending order and apart, as of version 17.0 of the Unicode character database.
-/

namespace InstancePool.Text

/-- Whether `n` lies in one of the ascending closed ranges. The search stops at the first range
that starts beyond `n`. -/
def inRanges (n : Nat) : List (Nat × Nat) → Bool
  | [] => false
  | r :: rs => if n < r.1 then false else if n ≤ r.2 then true else inRanges n rs

end InstancePool.Text

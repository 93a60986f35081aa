import InstancePool.Number.Binary64

/-!
The fewest decimal digits that read back as a given float. On the grid of numbers with `n`
significant digits only the two neighbours of the value can be nearest to it, so the search tries
both of them on each grid, from one digit up.
-/

namespace InstancePool

/-- `digits * 10 ^ exponent`. -/
structure Decimal where
  digits : Nat
  exponent : Int
  deriving Repr, DecidableEq

/-- Which of two equally near candidates is taken. -/
inductive Tie where
  | up
  | toEven
  deriving Repr, DecidableEq

namespace Binary64

/-- The distance to the next larger magnitude, in units of 2^-1074. -/
def gapAbove (x : Binary64) : Nat := 2 ^ (x.exponentField - 1)

/-- Half the distance to the next smaller magnitude, in units of 2^-1076. Below a power of two the
neighbours are twice as dense. -/
def halfGapBelow (x : Binary64) : Nat :=
  if x.fraction = 0 ∧ 1 < x.exponentField then x.gapAbove else 2 * x.gapAbove

/-- Whether a decimal lies among the numbers that round to the magnitude of `x`. The two ends of
that interval round to `x` when its last bit is zero. Lengths are in units of 2^-1076. -/
def readsBack (x : Binary64) (d : Decimal) : Bool :=
  let scale := 10 ^ (-d.exponent).toNat
  let candidate := d.digits * 10 ^ d.exponent.toNat * 2 ^ 1076
  let low := (4 * x.scaled - x.halfGapBelow) * scale
  let high := (4 * x.scaled + 2 * x.gapAbove) * scale
  if x.fraction % 2 = 0 then low ≤ candidate && candidate ≤ high
  else low < candidate && candidate < high

/-- The least `k` such that the magnitude of `x` is below `10 ^ k`, for `x` not zero. -/
def decimalScale (x : Binary64) : Int :=
  let whole := x.scaled / 2 ^ 1074
  if whole = 0 then 1 - (Nat.toDigits 10 ((2 ^ 1074 - 1) / x.scaled)).length
  else (Nat.toDigits 10 whole).length

/-- Whether the grid point below `digits + rest / den` is taken rather than the one above. -/
def preferBelow (tie : Tie) (digits rest den : Nat) : Bool :=
  match compare (2 * rest) den, tie with
  | .lt, _ => true
  | .gt, _ => false
  | .eq, .up => false
  | .eq, .toEven => digits % 2 = 0

/-- The neighbour of `x` on the grid of step `10 ^ exponent` that reads back, if there is one; of
two the nearer, and on a tie the one that `tie` names. -/
def onGrid? (x : Binary64) (tie : Tie) (exponent : Int) : Option Decimal :=
  let num := x.scaled * 10 ^ (-exponent).toNat
  let den := 2 ^ 1074 * 10 ^ exponent.toNat
  let below : Decimal := ⟨num / den, exponent⟩
  let above : Decimal := ⟨num / den + 1, exponent⟩
  match x.readsBack below, x.readsBack above with
  | true, true => some (bif preferBelow tie (num / den) (num % den) den then below else above)
  | true, false => some below
  | false, true => some above
  | false, false => none

/-- Moves the trailing zeros of the digits into the exponent; `fuel` bounds their number. -/
def stripZeros : Nat → Decimal → Decimal
  | 0, d => d
  | fuel + 1, d =>
    if d.digits % 10 = 0 ∧ d.digits ≠ 0 then stripZeros fuel ⟨d.digits / 10, d.exponent + 1⟩ else d

/-- The shortest decimal that reads back as the magnitude of a finite `x` other than zero. The
value itself, written out, stands in where seventeen digits do not suffice. -/
def shortest (x : Binary64) (tie : Tie) : Decimal :=
  let scale := x.decimalScale
  let found := (List.range 17).findSome? fun (n : Nat) => x.onGrid? tie (scale - 1 - (n : Int))
  stripZeros 20 (found.getD ⟨x.scaled * 5 ^ 1074, -1074⟩)

end Binary64

end InstancePool

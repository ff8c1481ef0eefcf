import AlphaPipeline.Numeric.Round

/-!
# Doubles

The sources are modelled over any type with the operations they use on `double`, so what is
proved without further assumptions holds for IEEE arithmetic with its rounding, infinities
and NaN. The rationals are the reading of doubles as exact numbers.
-/
namespace AlphaPipeline

/-- The operations on doubles. The comparisons are those of C, so both may be false;
`toInt64` is the conversion to a 64-bit integer, where C defines it. -/
class CDouble (α : Type) extends Add α, Sub α, Mul α, Div α where
  literal : ℚ → α
  ofInt : Int → α
  lt : α → α → Bool
  le : α → α → Bool
  floor : α → α
  toInt64 : α → Option Int
  /-- `alpha_round_dp` -/
  roundDp : α → Int → α

/-- What the platform adds: the functions of `libm`, and the outcome of the conversions
that C leaves undefined. -/
structure Platform (α : Type) where
  sqrt : α → α
  pow : α → α → α
  undefinedInt64 : α → Int

/-- The cast `(int64_t)x`. -/
def Platform.toInt64 {α : Type} [CDouble α] (platform : Platform α) (x : α) : Int :=
  (CDouble.toInt64 x).getD (platform.undefinedInt64 x)

/-- Truncation towards zero. -/
def truncate (x : ℚ) : Int := if x < 0 then x.ceil else x.floor

instance : CDouble ℚ where
  literal x := x
  ofInt n := n
  lt x y := decide (x < y)
  le x y := decide (x ≤ y)
  floor x := x.floor
  toInt64 x :=
    if -int64Max - 1 ≤ truncate x ∧ truncate x ≤ int64Max then some (truncate x) else none
  roundDp := alphaRoundDp

end AlphaPipeline

import Mathlib
import Mission10.Library.Numerals

/-!
# Numbers of the flight code

The survey engine computes with floating-point numbers. The model replaces them
by the elements of an ordered field `K` and takes the elementary functions of
the `math` module as operations on `K`, so that one definition can be proved
about over the reals and evaluated over the rationals.
-/
namespace Mission10.Engine

/-- The functions of the `math` module that the survey engine calls. -/
class MathOps (K : Type*) where
  sqrt : K → K
  sin : K → K
  cos : K → K
  tan : K → K
  acos : K → K
  atan2 : K → K → K
  pi : K
  ceil : K → ℤ

variable {K : Type*} [Field K] [LinearOrder K] [MathOps K]

/-- `math.hypot`. -/
def hypot (x y : K) : K := MathOps.sqrt (x * x + y * y)

/-- `math.floor`. -/
def floor (x : K) : ℤ := -MathOps.ceil (-x)

/-- `int` of a number: the part after the point is dropped. -/
def truncate (x : K) : ℤ := if x < 0 then MathOps.ceil x else floor x

/-- `math.radians`. -/
def radians (degrees : K) : K := degrees * MathOps.pi / 180

/-- `math.degrees`. -/
def degrees (angle : K) : K := angle * 180 / MathOps.pi

/-- A number with a fixed count of decimals, as `format` prints it with `.nf`. -/
def fixedText (decimals : ℕ) (x : K) : String :=
  let scaled := (MathOps.ceil (x * 10 ^ decimals - 1 / 2)).natAbs
  let sign := if x < 0 then "-" else ""
  let whole := toString (scaled / 10 ^ decimals)
  let fraction := toString (10 ^ decimals + scaled % 10 ^ decimals)
  if decimals = 0 then sign ++ whole
  else sign ++ whole ++ "." ++ (fraction.drop 1).toString

/-- The same with the sign of a number that is not negative. -/
def signedText (decimals : ℕ) (x : K) : String :=
  (if x < 0 then "" else "+") ++ fixedText decimals x

/-- The angle between -π and π that equals the given one. -/
def wrapPi (angle : K) : K := MathOps.atan2 (MathOps.sin angle) (MathOps.cos angle)

/-- A position or a velocity in north, east, down order. -/
structure Vec3 (K : Type*) where
  north : K
  east : K
  down : K
deriving DecidableEq, Repr

/-- A horizontal point, north before east. -/
abbrev Point2 (K : Type*) := K × K

/-- A point moved by an offset. -/
def shiftPoint (d p : Point2 K) : Point2 K := (p.1 + d.1, p.2 + d.2)

/-- The horizontal part of a position. -/
def Vec3.horizontal (v : Vec3 K) : Point2 K := (v.north, v.east)

/-- A body to local rotation, scalar first. -/
structure Quat (K : Type*) where
  w : K
  x : K
  y : K
  z : K
deriving DecidableEq, Repr

noncomputable instance : MathOps ℝ where
  sqrt := Real.sqrt
  sin := Real.sin
  cos := Real.cos
  tan := Real.tan
  acos := Real.arccos
  atan2 y x := Complex.arg ⟨x, y⟩
  pi := Real.pi
  ceil := Int.ceil

/-- Over the reals the model takes the square root of Mathlib. -/
theorem sqrt_real (x : ℝ) : MathOps.sqrt x = √x := rfl

theorem floor_real (x : ℝ) : floor x = ⌊x⌋ := by
  show -⌈-x⌉ = ⌊x⌋
  rw [Int.ceil_neg, neg_neg]

/-- The integer square root, two binary digits at a time. -/
def natSqrt : ℕ → ℕ → ℕ
  | 0, _ => 0
  | fuel + 1, n =>
    let root := 2 * natSqrt fuel (n / 4)
    if (root + 1) * (root + 1) ≤ n then root + 1 else root

/-- The square root to six decimals, exact on squares. -/
def ratSqrt (q : ℚ) : ℚ :=
  let scaled := q.num.toNat * q.den * 10 ^ 12
  (natSqrt (scaled.log2 / 2 + 1) scaled : ℚ) / (q.den * 10 ^ 6)

/-- Rational stand-ins for evaluation: the circular functions are approximated
around zero. -/
instance : MathOps ℚ where
  sqrt := ratSqrt
  sin x := x - x ^ 3 / 6 + x ^ 5 / 120
  cos x := 1 - x ^ 2 / 2 + x ^ 4 / 24
  tan x := x + x ^ 3 / 3
  acos x := ratSqrt (2 * (1 - x))
  atan2 y x := if x = 0 then y else y / x
  pi := 355 / 113
  ceil := Int.ceil

example : fixedText 2 (-(5 / 4) : ℚ) = "-1.25" := by decide +kernel

example : hypot (3 / 10 : ℚ) (4 / 10) = 1 / 2 := by decide +kernel

end Mission10.Engine

import WallPanel.Number.Decimal

/-!
# The 64-bit binary floats

The number type that a run of the program uses.

* `Binary64.decode`: sign, significand and exponent of a float, read off its bits.
* `Binary64.reading`: its exact worth.
* `Binary64.shortest`: the fewest digits that read back as the same float.
* The `Scalar` instance of `Float`.
-/

namespace WallPanel.Binary64

/-- A power of two. -/
def twoTo (n : Nat) : Nat :=
  Nat.pow 2 n

/-- A float as its bits tell: `significand * 2 ^ exponent` with a sign, or a special value. -/
inductive Decoded where
  | finite (negative : Bool) (significand : Nat) (exponent : Int)
  | infinite (negative : Bool)
  | undefined
deriving DecidableEq, Repr

/-- Read sign, significand and exponent off the bits of a float. -/
def decode (x : Float) : Decoded :=
  let bits := x.toBits.toNat
  let negative := bits / twoTo 63 == 1
  let biased := bits / twoTo 52 % twoTo 11
  let fraction := bits % twoTo 52
  if biased = 2047 then (if fraction = 0 then .infinite negative else .undefined)
  else if biased = 0 then .finite negative fraction (-1074)
  else .finite negative (twoTo 52 + fraction) (Int.ofNat biased - 1075)

/-- `significand * 2 ^ exponent` as a rational number. -/
def magnitude (significand : Nat) (exponent : Int) : Rat :=
  mkRat (significand * twoTo exponent.toNat) (twoTo (-exponent).toNat)

/-- The exact worth of a float. -/
def reading (x : Float) : Reading :=
  match decode x with
  | .finite negative significand exponent => .finite negative (magnitude significand exponent)
  | .infinite negative => .infinite negative
  | .undefined => .undefined

/-- The exact worth of a float, zero if it has none. -/
def worth (x : Float) : Rat :=
  (reading x).value?.getD 0

/-- The greatest integer that is not above a finite float. -/
def floor (x : Float) : Int :=
  (worth x).floor

/-! ## Arithmetic -/

/-- The float of a rational number that is one exactly: its denominator is a power of two. -/
def ofDyadic (q : Rat) : Float :=
  (Float.ofInt q.num).scaleB (-(q.den.log2 : Int))

/-- The remainder of a division, with the sign of the divisor. The remainder with the sign of the
dividend is exact; the divisor is added to it when the signs differ. -/
def modulo (x y : Float) : Float :=
  match (reading x).value?, (reading y).value? with
  | some p, some q =>
    if q = 0 then 0.0 / 0.0
    else
      let whole := (p / q).num.tdiv (p / q).den
      let r := ofDyadic (p - q * whole)
      if r == 0.0 then (if y < 0.0 then -0.0 else 0.0)
      else if (y < 0.0) != (r < 0.0) then r + y
      else r
  | some _, none => if y.isNaN then y else if (y < 0.0) != (x < 0.0) && x != 0.0 then y else x
  | none, _ => 0.0 / 0.0

/-- The square of the number halfway between two floats. -/
def middleSquare (x y : Float) : Rat :=
  let middle := (worth x + worth y) / 2
  middle * middle

/-- Of a positive float and its two neighbours, the one nearest to the root of a number. Of two that
are as near it is the one with the even significand. -/
def nearestRoot (q : Rat) (r : Float) : Float :=
  let above := Float.ofBits (r.toBits + 1)
  let below := Float.ofBits (r.toBits - 1)
  let isOdd := r.toBits % 2 == 1
  if middleSquare r above < q || (isOdd && middleSquare r above == q) then above
  else if q < middleSquare below r || (isOdd && middleSquare below r == q) then below
  else r

/-- The float nearest to the length of a vector. The components are scaled by a power of two, so
that their squares neither overflow nor vanish. The root of the sum of the squares, taken in floats,
is the nearest one or a neighbour of it. -/
def hypot (x y : Float) : Float :=
  let a := x.abs
  let b := y.abs
  if a == 1.0 / 0.0 || b == 1.0 / 0.0 then 1.0 / 0.0
  else if a.isNaN || b.isNaN then 0.0 / 0.0
  else
    let m := if a < b then b else a
    if m == 0.0 then 0.0
    else
      let e := m.frExp.2
      let u := a.scaleB (-e)
      let v := b.scaleB (-e)
      (nearestRoot (worth u * worth u + worth v * worth v) (u * u + v * v).sqrt).scaleB e

instance : Scalar Float where
  decidableLT := inferInstance
  decidableLE := inferInstance
  abs := Float.abs
  floor := floor
  modulo := modulo
  sqrt := Float.sqrt
  hypot := hypot
  sin := Float.sin
  cos := Float.cos
  acos := Float.acos
  atan2 := Float.atan2
  pi := 3.141592653589793
  reading := reading

/-! ## The fewest digits -/

/-- The interval of the values that round to `significand * 2 ^ exponent`, as the numerators of
its lower end, of the value and of its upper end over one denominator. Below a power of two the
floats are twice as dense. -/
structure Interval where
  low : Nat
  value : Nat
  high : Nat
  den : Nat
  /-- Whether the ends belong to it: they tie, and a tie goes to the even significand. -/
  closed : Bool

/-- The interval of a positive float. -/
def interval (significand : Nat) (exponent : Int) : Interval :=
  let up := twoTo exponent.toNat
  let below := if significand = twoTo 52 ∧ -1074 < exponent then 1 else 2
  { low := (4 * significand - below) * up
    value := 4 * significand * up
    high := (4 * significand + 2) * up
    den := 4 * twoTo (-exponent).toNat
    closed := significand % 2 = 0 }

/-- Whether `n * 10 ^ place` lies in the interval. -/
def Interval.holds (i : Interval) (n : Nat) (place : Int) : Bool :=
  let up := n * Decimal.tenTo place.toNat * i.den
  let down := Decimal.tenTo (-place).toNat
  if i.closed then i.low * down ≤ up && up ≤ i.high * down
  else i.low * down < up && up < i.high * down

/-- The multiple of `10 ^ place` in the interval that is nearest to its value, if the value has a
neighbour there: the even one if both are as near. -/
def Interval.nearest? (i : Interval) (place : Int) : Option Nat :=
  let num := i.value * Decimal.tenTo (-place).toNat
  let den := i.den * Decimal.tenTo place.toNat
  let n := Decimal.roundDiv num den
  let other := if n * den ≤ num then n + 1 else n - 1
  if i.holds n place then some n else if i.holds other place then some other else none

/-- The first grid, from the coarsest on, that has a neighbour of the value in the interval; the
number on it, and its place. Seventeen digits always suffice. -/
def Interval.shortest (i : Interval) (first : Int) : Nat → Nat × Int
  | 0 =>
    let num := i.value * Decimal.tenTo (16 - first).toNat
    let den := i.den * Decimal.tenTo (first - 16).toNat
    (Decimal.roundDiv num den, first - 16)
  | left + 1 =>
    let place := first - (16 - left : Nat)
    match i.nearest? place with
    | some n => (n, place)
    | none => i.shortest first left

/-- Drop the zeros at the end of a positive number, and say how many they were. -/
def dropZeros (n : Nat) : Nat × Nat :=
  if h : n ≠ 0 ∧ n % 10 = 0 then
    let r := dropZeros (n / 10)
    (r.1, r.2 + 1)
  else (n, 0)
termination_by n
decreasing_by omega

/-- The digits of a positive float, and the exponent of the first of them. -/
def shortestDigits (significand : Nat) (exponent : Int) : List Char × Int :=
  let i := interval significand exponent
  let (n, place) := i.shortest (Decimal.exponent (magnitude significand exponent)) 17
  let (m, zeros) := dropZeros n
  let ds := Decimal.digits m
  (ds, place + zeros + (ds.length - 1 : Nat))

/-- Digits with the exponent of the first, as text: positional from `1e-4` up to below `1e16`, with
at least one place after the point; with an exponent of at least two digits otherwise. -/
def writeDigits (ds : List Char) (e : Int) : List Char :=
  if -4 ≤ e ∧ e < 16 then
    if e < 0 then '0' :: '.' :: List.replicate ((-e).toNat - 1) '0' ++ ds
    else
      let whole := e.toNat + 1
      let places := ds.drop whole
      ds.take whole ++ List.replicate (whole - ds.length) '0' ++
        '.' :: (if places.isEmpty then ['0'] else places)
  else
    ds.take 1 ++ (if ds.length = 1 then [] else '.' :: ds.drop 1) ++
      'e' :: Decimal.exponentChars e

/-- The text of a float with the fewest digits that read back as the same float. -/
def shortest (x : Float) : String :=
  match decode x with
  | .finite negative significand exponent =>
    let body :=
      if significand = 0 then ['0', '.', '0']
      else
        let (ds, e) := shortestDigits significand exponent
        writeDigits ds e
    String.ofList ((if negative then ['-'] else []) ++ body)
  | .infinite negative => if negative then "-inf" else "inf"
  | .undefined => "nan"

end WallPanel.Binary64

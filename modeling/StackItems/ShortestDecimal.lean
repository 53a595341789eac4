/-
Floating-point numbers in decimal.

A finite number of 64 bits stands for all reals that round to it.  Its text is
the shortest decimal among them, and of several shortest ones the nearest.

* `Rounding.contains` — whether a decimal rounds to the number;
* `Rounding.shortest` — the search, one more digit at a time;
* `FloatStyle.text` — the text, laid out in one of two ways.

Design notes: the search is exact arithmetic on natural numbers over a common
denominator; no floating-point operation takes part in it.
-/
namespace StackItems

/-- A power of ten. -/
def tenTo (n : Nat) : Nat := Nat.pow 10 n

/-- `digits * 10 ^ exponent`. -/
structure Decimal where
  digits : Nat
  exponent : Int
  deriving DecidableEq

/-- The reals that round to a number: those between `low / den` and
`high / den`, the ends included if `closed`; the number itself is
`middle / den`. -/
structure Rounding where
  low : Nat
  middle : Nat
  high : Nat
  den : Nat
  closed : Bool

namespace Rounding

/-- The reals that round to the number with the given bits, apart from its sign.
The gap below a power of two is half as wide as the gap above it. -/
def ofBits (bits : UInt64) : Rounding :=
  let field := ((bits >>> 52) &&& 0x7FF).toNat
  let fraction := (bits &&& 0xFFFFFFFFFFFFF).toNat
  let significand := if field = 0 then fraction else 0x10000000000000 + fraction
  -- The number is `4 * significand * 2 ^ (field - 1077)`.
  let up := 1 <<< (field - 1077)
  let narrow := fraction = 0 ∧ 1 < field
  { low := (4 * significand - if narrow then 1 else 2) * up
    middle := 4 * significand * up
    high := (4 * significand + 2) * up
    den := 1 <<< (1077 - max field 1)
    closed := significand % 2 = 0 }

/-- A decimal over the denominator of an interval, against one of its numbers. -/
def compareWith (r : Rounding) (d : Decimal) (bound : Nat) : Ordering :=
  compare (d.digits * tenTo d.exponent.toNat * r.den) (bound * tenTo (-d.exponent).toNat)

/-- Whether a decimal rounds to the number. -/
def contains (r : Rounding) (d : Decimal) : Bool :=
  let above := r.compareWith d r.low
  let below := r.compareWith d r.high
  (above == .gt || (r.closed && above == .eq)) && (below == .lt || (r.closed && below == .eq))

/-- The largest multiple of `10 ^ exponent` that is not above the number. -/
def floorAt (r : Rounding) (exponent : Int) : Nat :=
  r.middle * tenTo (-exponent).toNat / (r.den * tenTo exponent.toNat)

/-- The least `k` such that the number is below `10 ^ k`. -/
def scale (r : Rounding) : Int :=
  if r.den ≤ r.middle then (Nat.toDigits 10 (r.middle / r.den)).length
  else 1 - (Nat.toDigits 10 (r.den / r.middle)).length

/-- Which of two neighbours on a grid is nearer to the number; `tieUp` settles
what lies exactly between them, as does an odd lower neighbour. -/
def upperIsNearer (r : Rounding) (tieUp : Bool) (lower : Nat) (exponent : Int) : Bool :=
  match r.compareWith ⟨2 * lower + 1, exponent⟩ (2 * r.middle) with
  | .lt => true
  | .gt => false
  | .eq => tieUp || lower % 2 = 1

/-- The nearest decimal on a grid that rounds to the number. -/
def onGrid? (r : Rounding) (tieUp : Bool) (exponent : Int) : Option Decimal :=
  let lower := r.floorAt exponent
  match r.contains ⟨lower, exponent⟩, r.contains ⟨lower + 1, exponent⟩ with
  | true, true => some ⟨if r.upperIsNearer tieUp lower exponent then lower + 1 else lower, exponent⟩
  | true, false => some ⟨lower, exponent⟩
  | false, true => some ⟨lower + 1, exponent⟩
  | false, false => none

/-- The shortest decimal that rounds to the number: that of the coarsest grid
which has one.  Seventeen digits are always enough; without a hit it would be
the exact value. -/
def shortest (r : Rounding) (tieUp : Bool) : Decimal :=
  match (List.range 17).findSome? fun n : Nat => r.onGrid? tieUp (r.scale - 1 - n) with
  | some d => d
  | none => ⟨r.middle * Nat.pow 5 (Nat.log2 r.den), -(Nat.log2 r.den : Int)⟩

end Rounding

/-- The same decimal without zeros at the end of its digits. -/
def Decimal.stripped (d : Decimal) : Decimal :=
  if h : d.digits ≠ 0 ∧ d.digits % 10 = 0 then Decimal.stripped ⟨d.digits / 10, d.exponent + 1⟩
  else d
termination_by d.digits
decreasing_by omega

/-- How a decimal is laid out.  The point stands behind so many digits, counted
from the first one; positions between the two bounds are written out, others
with an exponent. -/
structure FloatStyle where
  lowest : Option Int
  highest : Option Int
  /-- Whether a tie between two shortest decimals goes to the larger one, rather
  than to the even one. -/
  tieUp : Bool

namespace FloatStyle

/-- Every digit written out. -/
def plain : FloatStyle := ⟨none, none, true⟩

/-- An exponent for numbers from `10 ^ 16` upwards and below `10 ^ -5`. -/
def compact : FloatStyle := ⟨some (-4), some 16, false⟩

/-- So many zeros. -/
def zeros (n : Nat) : String := String.ofList (List.replicate n '0')

/-- A decimal with all its digits written out. -/
def positional (d : Decimal) : String :=
  let digits := Nat.toDigits 10 d.digits
  let point := digits.length + d.exponent
  if 0 ≤ d.exponent then String.ofList digits ++ zeros d.exponent.toNat ++ ".0"
  else if 0 < point then
    String.ofList (digits.take point.toNat) ++ "." ++ String.ofList (digits.drop point.toNat)
  else "0." ++ zeros (-point).toNat ++ String.ofList digits

/-- A decimal with one digit before the point and an exponent, which always has
its sign. -/
def scientific (d : Decimal) : String :=
  let digits := Nat.toDigits 10 d.digits
  let rest := digits.drop 1
  let exponent := d.exponent + rest.length
  String.ofList (digits.take 1) ++ (if rest.isEmpty then "" else "." ++ String.ofList rest)
    ++ (if 0 ≤ exponent then "e+" else "e") ++ toString exponent

/-- A decimal in a style. -/
def layout (style : FloatStyle) (d : Decimal) : String :=
  let point := (Nat.toDigits 10 d.digits).length + d.exponent
  if style.lowest.all (· ≤ point) && style.highest.all (point ≤ ·) then positional d
  else scientific d

/-- A number in a style. -/
def text (style : FloatStyle) (x : Float) : String :=
  if x.isNaN then "NaN"
  else
    let bits := x.toBits
    let magnitude :=
      if x.isInf then "inf"
      else if bits <<< 1 = 0 then "0.0"
      else style.layout ((Rounding.ofBits bits).shortest style.tieUp).stripped
    (if bits >>> 63 = 1 then "-" else "") ++ magnitude

end FloatStyle

end StackItems

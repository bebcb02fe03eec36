import FlowFacts.Decimal.Binary64

namespace FlowFacts

/-- The decimal `coefficient · 10 ^ scale`. -/
structure Decimal where
  coefficient : Nat
  scale : Int
  deriving DecidableEq

namespace Decimal

def digits (n : Nat) : List Char := Nat.toDigits 10 n

/-- The decimal without an exponent and with at least one digit after the point. -/
def positional (d : Decimal) : String :=
  let ds := digits d.coefficient
  let (whole, fraction) :=
    if 0 ≤ d.scale then
      (ds ++ List.replicate d.scale.toNat '0', [])
    else
      let places := (-d.scale).toNat
      let padded := List.replicate (places + 1 - ds.length) '0' ++ ds
      padded.splitAt (padded.length - places)
  let kept := (fraction.reverse.dropWhile (· = '0')).reverse
  String.ofList (whole ++ '.' :: if kept.isEmpty then ['0'] else kept)

end Decimal

namespace Binary64

/-- The reals that round to a positive number, as multiples of a quarter of the smallest positive
number: lower end, the number itself, upper end. Below a power of two numbers are twice as dense. -/
def neighbourhood (mantissa exponent : Nat) : Nat × Nat × Nat :=
  let below := if mantissa = Nat.pow 2 (precision - 1) then 1 else 2
  ((4 * mantissa - below) * Nat.pow 2 exponent, 4 * mantissa * Nat.pow 2 exponent,
    (4 * mantissa + 2) * Nat.pow 2 exponent)

/-- Both sides of a comparison of `coefficient · 10 ^ scale` with `quarters` quarters of the
smallest positive number. -/
def sides (d : Decimal) (quarters : Nat) : Nat × Nat :=
  (d.coefficient * Nat.pow 2 1076 * Nat.pow 10 d.scale.toNat,
    quarters * Nat.pow 10 (-d.scale).toNat)

/-- Whether a decimal rounds to the number. The ends of the interval do if the mantissa is even. -/
def readsBack (mantissa exponent : Nat) (d : Decimal) : Bool :=
  let (low, _, high) := neighbourhood mantissa exponent
  let (d₁, low) := sides d low
  let (d₂, high) := sides d high
  if mantissa % 2 = 0 then low ≤ d₁ && d₂ ≤ high else low < d₁ && d₂ < high

def order (mantissa exponent : Nat) : Int :=
  (Decimal.digits (mantissa * Nat.pow 2 exponent * Nat.pow 10 400 / Nat.pow 2 1074)).length - 401

/-- The nearest decimal of a given scale that reads back, the larger one of two equally near. -/
def onGrid? (mantissa exponent : Nat) (scale : Int) : Option Decimal :=
  let number := 4 * mantissa * Nat.pow 2 exponent
  let (unit, number) := sides ⟨1, scale⟩ number
  let below : Decimal := ⟨number / unit, scale⟩
  let above : Decimal := ⟨number / unit + 1, scale⟩
  match readsBack mantissa exponent below, readsBack mantissa exponent above with
  | true, true => some (if 2 * (number % unit) < unit then below else above)
  | true, false => some below
  | false, true => some above
  | false, false => none

/-- The decimal with the fewest digits that reads back as a positive number; seventeen digits always
do. -/
def shortest (mantissa exponent : Nat) : Decimal :=
  let top := order mantissa exponent
  ((List.range 17).findSome? fun (n : Nat) => onGrid? mantissa exponent (top - n)).getD ⟨0, 0⟩

def render : Binary64 → String
  | finite negative mantissa exponent =>
    let size := if mantissa = 0 then "0.0" else (shortest mantissa exponent).positional
    if negative then "-" ++ size else size
  | infinite negative => if negative then "-inf" else "inf"
  | nan => "NaN"

end Binary64
end FlowFacts

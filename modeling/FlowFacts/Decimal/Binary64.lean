namespace FlowFacts

/-- A 64-bit floating-point number. A finite one is `mantissa · 2 ^ exponent` times the smallest
positive number, `2 ^ -1074`; its mantissa is below `2 ^ 53`. -/
inductive Binary64 where
  | finite (negative : Bool) (mantissa exponent : Nat)
  | infinite (negative : Bool)
  | nan
  deriving DecidableEq

namespace Binary64

def precision : Nat := 53

def maxExponent : Nat := 2045

/-- The nearest natural number to a quotient; of two equally near ones the even one. -/
def roundDiv (num den : Nat) : Nat :=
  let q := num / den
  let r := num % den
  if 2 * r < den then q
  else if den < 2 * r then q + 1
  else if q % 2 = 0 then q else q + 1

/-- The number nearest to a quotient of natural numbers, up to the sign. -/
def ofRatio (negative : Bool) (num den : Nat) : Binary64 :=
  let scaled := num * Nat.pow 2 1074
  let exponent := Nat.log2 (scaled / den) + 1 - precision
  let mantissa := roundDiv scaled (den * Nat.pow 2 exponent)
  let (mantissa, exponent) :=
    if mantissa = Nat.pow 2 precision then (Nat.pow 2 (precision - 1), exponent + 1)
    else (mantissa, exponent)
  if maxExponent < exponent then .infinite negative else .finite negative mantissa exponent

def digitsValue (digits : List Nat) : Nat := digits.foldl (fun n d => 10 * n + d) 0

/-- The number nearest to `digits · 10 ^ scale`. Far outside the range of finite numbers the exact
size does not matter. -/
def ofDecimal (negative : Bool) (digits : List Nat) (scale : Int) : Binary64 :=
  let digits := digits.dropWhile (· = 0)
  let order := digits.length + scale
  if digits.isEmpty || order < -400 then .finite negative 0 0
  else if 400 < order then .infinite negative
  else if 0 ≤ scale then ofRatio negative (digitsValue digits * Nat.pow 10 scale.toNat) 1
  else ofRatio negative (digitsValue digits) (Nat.pow 10 (-scale).toNat)

end Binary64
end FlowFacts

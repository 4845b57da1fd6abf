import PathRouter.Number.Integer

/-!
# Single — decimal texts as single-precision numbers

A finite single-precision number is a whole multiple of 2⁻¹⁴⁹, so it is kept as that multiple.  This
file defines

* `Single`, the values, and `Single.lt`, their order, in which no comparison with `nan` holds;
* `Single.ofDecimal`, the value nearest to a decimal, of two equally near the even one;
* `Single.parse?`, which reads a sign, digits with an optional point, and an optional exponent.
-/

namespace PathRouter

inductive Single where
  | nan
  | infinite (negative : Bool)
  /-- The number `units * 2 ^ (-149)`. -/
  | finite (units : Int)
  deriving DecidableEq, Repr

namespace Single

def lt : Single → Single → Bool
  | .nan, _ => false
  | _, .nan => false
  | .infinite a, .infinite b => a && !b
  | .infinite a, .finite _ => a
  | .finite _, .infinite b => !b
  | .finite a, .finite b => a < b

def zero : Single := .finite 0

def one : Single := .finite (Nat.pow 2 149)

/-! ## Rounding -/

/-- The whole number nearest to `n / d`, of two equally near the even one. -/
def nearest (n d : Nat) : Nat :=
  let q := n / d
  let r := n % d
  if 2 * r < d || (2 * r = d && q % 2 = 0) then q else q + 1

def precision : Nat := 24

/-- The least multiple that is too large. -/
def overflow : Nat := Nat.pow 2 277

/-- The multiple of 2⁻¹⁴⁹ that `n / d`, counted in such multiples, is rounded to. -/
def round (n d : Nat) : Nat :=
  let unit := Nat.pow 2 ((n / d).log2 + 1 - precision)
  nearest n (d * unit) * unit

/-- The decimal exponents beyond which nothing but zero and infinity is left. -/
def exponentLimit : Int := 100

/-- The value nearest to `digits * 10 ^ exponent`, where `digits` has no more than `count` digits. -/
def ofDecimal (negative : Bool) (digits count : Nat) (exponent : Int) : Single :=
  if digits = 0 || exponent + count < -exponentLimit then zero
  else if exponentLimit < exponent then .infinite negative
  else
    let n := digits * Nat.pow 2 149 * Nat.pow 10 exponent.toNat
    let d := Nat.pow 10 (-exponent).toNat
    let units := round n d
    if overflow ≤ units then .infinite negative
    else .finite (if negative then -(units : Int) else units)

/-! ## Reading -/

/-- A text without regard to the case of Latin letters. -/
def lower (s : Text) : Text := s.map Char.toLower

def exponent? : Text → Option Int
  | [] => some 0
  | c :: rest =>
    if c = 'e' || c = 'E' then
      let (negative, digits) := Number.sign rest
      (Number.digits? digits).map fun n => if negative then -(n : Int) else n
    else none

def decimal? (negative : Bool) (s : Text) : Option Single :=
  let (whole, rest) := s.span Text.isDigit
  let (fraction, rest) :=
    match rest with
    | '.' :: rest => rest.span Text.isDigit
    | _ => ([], rest)
  match Number.digits? (whole ++ fraction), exponent? rest with
  | some digits, some exponent =>
    let significant := (whole ++ fraction).dropWhile (· = '0')
    some (ofDecimal negative digits significant.length (exponent - fraction.length))
  | _, _ => none

def parse? (s : Text) : Option Single :=
  let (negative, rest) := Number.sign s
  let word := lower rest
  if word = "inf".toList || word = "infinity".toList then some (.infinite negative)
  else if word = "nan".toList then some .nan
  else decimal? negative rest

end Single
end PathRouter

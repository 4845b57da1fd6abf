import PathRouter.Number.Integer
import PathRouter.Toml.Basic
import PathRouter.Toml.Lexeme

/-!
# Number — numbers, dates and times of a configuration file

This file defines

* `Toml.integer?`, `Toml.float?` and `Toml.datetime?`, the readers of each kind;
* `Toml.number?`, which tries them in turn.
-/

namespace PathRouter
namespace Toml

/-! ## Digits -/

/-- The value of a digit below a radix. -/
def digitValue? (radix : Nat) (c : Char) : Option Nat := (Text.hexValue? c).filter (· < radix)

/-- The digits after a first one.  An underscore may stand between two of them. -/
def moreDigits? (radix : Nat) : Reader (List Nat)
  | '_' :: c :: rest =>
    (digitValue? radix c).bind fun d =>
      (moreDigits? radix rest).map fun (ds, rest) => (d :: ds, rest)
  | '_' :: [] => none
  | c :: rest =>
    match digitValue? radix c with
    | some d => (moreDigits? radix rest).map fun (ds, rest) => (d :: ds, rest)
    | none => some ([], c :: rest)
  | [] => some ([], [])

/-- One or more digits. -/
def digits? (radix : Nat) : Reader (List Nat)
  | c :: rest =>
    (digitValue? radix c).bind fun d =>
      (moreDigits? radix rest).map fun (ds, rest) => (d :: ds, rest)
  | [] => none

/-- The number that digits stand for. -/
def valueOf (radix : Nat) (digits : List Nat) : Nat := digits.foldl (fun n d => radix * n + d) 0

/-- The digits of a decimal without superfluous zeros at its start. -/
def decimalDigits? : Reader (List Nat)
  | '0' :: rest => some ([0], rest)
  | s => digits? 10 s

/-! ## Integers -/

/-- The number if it is in the range of 64 bits. -/
def inRange? (n : Int) : Option Int :=
  let max : Int := Number.maxOfBits 63
  if -max - 1 ≤ n && n ≤ max then some n else none

/-- An integer, in decimal or with a prefix that names another radix. -/
def integer? : Reader Int := fun s =>
  let unsigned (radix : Nat) (s : Text) :=
    (digits? radix s).bind fun (ds, rest) => (inRange? (valueOf radix ds)).map (·, rest)
  match s with
  | '0' :: 'x' :: rest => unsigned 16 rest
  | '0' :: 'o' :: rest => unsigned 8 rest
  | '0' :: 'b' :: rest => unsigned 2 rest
  | _ =>
    let (negative, rest) := Number.sign s
    (decimalDigits? rest).bind fun (ds, rest) =>
      let n : Int := valueOf 10 ds
      (inRange? (if negative then -n else n)).map (·, rest)

/-! ## Floating-point numbers -/

def exponent? : Reader Int
  | c :: rest =>
    if c = 'e' || c = 'E' then
      let (negative, rest) := Number.sign rest
      (digits? 10 rest).map fun (ds, rest) =>
        let n : Int := valueOf 10 ds
        (if negative then -n else n, rest)
    else none
  | [] => none

/-- Whether `digits * 10 ^ exponent` is too large for double precision. -/
def overflows (digits : Nat) (exponent : Int) : Bool :=
  digits ≠ 0 &&
    if 400 < exponent then true
    else
      (Nat.pow 2 1024 - Nat.pow 2 970) * Nat.pow 10 (-exponent).toNat ≤
        digits * Nat.pow 10 exponent.toNat

/-- The number of decimal digits beyond which a negative exponent leaves nothing. -/
def negligible (count : Nat) (exponent : Int) : Bool := exponent < -(count : Int)

/-- The text after a number with a point or an exponent. -/
def float? (s : Text) : Option Text :=
  let (negative, rest) := Number.sign s
  if ['i', 'n', 'f'].isPrefixOf rest || ['n', 'a', 'n'].isPrefixOf rest then some (rest.drop 3)
  else
    (decimalDigits? rest).bind fun (whole, rest) =>
      let finish (fraction : List Nat) (exponent : Int) (rest : Text) : Option Text :=
        let digits := whole ++ fraction
        let exponent := exponent - fraction.length
        if negative || negligible digits.length exponent then some rest
        else if overflows (valueOf 10 digits) exponent then none
        else some rest
      match rest with
      | '.' :: rest =>
        (digits? 10 rest).bind fun (fraction, rest) =>
          match rest with
          | c :: _ =>
            if c = 'e' || c = 'E' then
              (exponent? rest).bind fun (exponent, rest) => finish fraction exponent rest
            else finish fraction 0 rest
          | [] => finish fraction 0 rest
      | _ => (exponent? rest).bind fun (exponent, rest) => finish [] exponent rest

/-! ## Dates and times -/

/-- A number of two digits within bounds. -/
def pair? (low high : Nat) : Reader Nat
  | a :: b :: rest =>
    match digitValue? 10 a, digitValue? 10 b with
    | some a, some b =>
      let n := 10 * a + b
      if low ≤ n && n ≤ high then some (n, rest) else none
    | _, _ => none
  | _ => none

/-- The number of days of a month. -/
def daysOfMonth (year month : Nat) : Nat :=
  if month = 2 then
    if year % 4 = 0 && (year % 100 ≠ 0 || year % 400 = 0) then 29 else 28
  else if month = 4 || month = 6 || month = 9 || month = 11 then 30
  else 31

def date? (s : Text) : Option Text := do
  let (century, s) ← pair? 0 99 s
  let (year, s) ← pair? 0 99 s
  let s ← Text.expect? '-' s
  let (month, s) ← pair? 1 12 s
  let s ← Text.expect? '-' s
  let (_, s) ← pair? 1 (daysOfMonth (100 * century + year) month) s
  return s

def time? (s : Text) : Option Text := do
  let (_, s) ← pair? 0 23 s
  let s ← Text.expect? ':' s
  let (_, s) ← pair? 0 59 s
  let s ← Text.expect? ':' s
  let (_, s) ← pair? 0 60 s
  match s with
  | '.' :: rest =>
    let (fraction, rest) := rest.span Text.isDigit
    if fraction.isEmpty then none else some rest
  | _ => some s

/-- The text after the offset of a time, if there is one. -/
def offset? : Text → Option Text
  | [] => some []
  | c :: rest =>
    if c = 'Z' || c = 'z' then some rest
    else if c = '+' || c = '-' then do
      let (_, s) ← pair? 0 23 rest
      let s ← Text.expect? ':' s
      let (_, s) ← pair? 0 59 s
      return s
    else some (c :: rest)

/-- The text after a date, a time, or both. -/
def datetime? (s : Text) : Option Text :=
  match date? s with
  | none => time? s
  | some rest =>
    match rest with
    | [] => some []
    | c :: after =>
      if c = 'T' || c = 't' || c = ' ' then
        match time? after with
        | some rest => offset? rest
        | none => some (c :: after)
      else some (c :: after)

/-- A number, a date or a time. -/
def number? : Reader Item := fun s =>
  match datetime? s with
  | some rest => some (.datetime, rest)
  | none =>
    match float? s with
    | some rest => some (.float, rest)
    | none => (integer? s).map fun (n, rest) => (.integer n, rest)

end Toml
end PathRouter

import PathRouter.Text.Basic

/-!
# Integer — decimal integers of a bounded range

This file defines

* `Number.digits?`, the value of a non-empty run of decimal digits;
* `Number.sign`, which takes a sign off the start of a text;
* `Number.natural?` and `Number.integer?`, which accept a sign and enforce a range.
-/

namespace PathRouter
namespace Number

/-- The value of a run of digits after which `value` has been read. -/
def digitsFrom (value : Nat) : Text → Option Nat
  | [] => some value
  | c :: rest =>
    if Text.isDigit c then digitsFrom (value * 10 + (c.toNat - '0'.toNat)) rest else none

/-- The value of a non-empty run of decimal digits. -/
def digits? : Text → Option Nat
  | [] => none
  | s => digitsFrom 0 s

/-- The sign at the start of a text, if there is one: whether it is a minus, and the rest. -/
def sign : Text → Bool × Text
  | '+' :: rest => (false, rest)
  | '-' :: rest => (true, rest)
  | s => (false, s)

/-- A natural number of at most `max`, with or without a plus sign. -/
def natural? (max : Nat) (s : Text) : Option Nat :=
  let digits :=
    match s with
    | '+' :: rest => rest
    | _ => s
  (digits? digits).filter (· ≤ max)

/-- An integer from `-(max + 1)` to `max`, with or without a sign. -/
def integer? (max : Nat) (s : Text) : Option Int :=
  match s with
  | '-' :: rest => ((digits? rest).filter (· ≤ max + 1)).map fun n => -(n : Int)
  | _ => (natural? max s).map Int.ofNat

/-- The greatest natural number of so many bits. -/
def maxOfBits (bits : Nat) : Nat := Nat.pow 2 bits - 1

end Number
end PathRouter

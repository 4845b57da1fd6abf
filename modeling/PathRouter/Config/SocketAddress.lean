import PathRouter.Number.Integer

/-!
# SocketAddress — the written form of an address with a port

This file defines

* the readers of numbers, of IPv4 addresses and of IPv6 addresses;
* `SocketAddress.isValid`, whether a text is `a.b.c.d:port`, `[address]:port` or
  `[address%scope]:port`.
-/

namespace PathRouter
namespace SocketAddress

/-- The text after a number in decimal, without superfluous zeros, of at most three digits and at
most 255. -/
def octet? (s : Text) : Option Text :=
  let (digits, rest) := s.span Text.isDigit
  match Number.digits? digits with
  | none => none
  | some n =>
    if 3 < digits.length || (1 < digits.length && digits.head? == some '0') || 255 < n then none
    else some rest

/-- The text after a number in decimal of at most `max`. -/
def number? (max : Nat) (s : Text) : Option Text :=
  let (digits, rest) := s.span Text.isDigit
  ((Number.digits? digits).filter (· ≤ max)).map fun _ => rest

def ipv4? (s : Text) : Option Text := do
  let s ← octet? s
  let s ← Text.expect? '.' s
  let s ← octet? s
  let s ← Text.expect? '.' s
  let s ← octet? s
  let s ← Text.expect? '.' s
  octet? s

def group? (s : Text) : Option Text :=
  let (digits, rest) := s.span fun c => (Text.hexValue? c).isSome
  if digits.isEmpty || 4 < digits.length then none else some rest

/-- The groups at the start of a text, up to a number of them: how many there are, whether the last
two were written as an IPv4 address, and the rest. -/
def groups (first : Bool) : Nat → Text → Nat × Bool × Text
  | 0, s => (0, false, s)
  | left + 1, s =>
    let start := if first then some s else Text.expect? ':' s
    match left, start.bind ipv4? with
    | _ + 1, some rest => (2, true, rest)
    | _, _ =>
      match start.bind group? with
      | none => (0, false, s)
      | some rest =>
        let (count, v4, rest) := groups false left rest
        (count + 1, v4, rest)

/-- The text after an IPv6 address: eight groups, or fewer with a double colon that stands for at
least one. -/
def ipv6? (s : Text) : Option Text :=
  let (count, v4, rest) := groups true 8 s
  if count = 8 then some rest
  else if v4 then none
  else
    ([':', ':'].isPrefixOf? rest).map fun rest => (groups true (7 - count) rest).2.2

/-- The text after the number of a scope, if there is one. -/
def skipScope (s : Text) : Text :=
  match s with
  | '%' :: rest => (number? (Number.maxOfBits 32) rest).getD s
  | _ => s

def host? (s : Text) : Option Text :=
  match ipv4? s with
  | some rest => some rest
  | none => do
    let s ← Text.expect? '[' s
    let s ← ipv6? s
    Text.expect? ']' (skipScope s)

/-- Whether a text is an address with a port. -/
def isValid (s : Text) : Bool :=
  let rest := do
    let s ← host? s
    let s ← Text.expect? ':' s
    number? (Number.maxOfBits 16) s
  rest == some []

end SocketAddress
end PathRouter

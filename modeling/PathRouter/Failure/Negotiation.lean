import PathRouter.Number.Single
import PathRouter.Text.Blank

/-!
# Negotiation — the body format that a client prefers

An `Accept` header lists media types with qualities.  This file defines

* `BodyFormat`, the formats of an error body;
* `Offer`, what one item of the list says, and `Offer.parse?`;
* `negotiate`, the format of the first item of highest quality.
-/

namespace PathRouter

inductive BodyFormat where
  | text
  | json
  deriving DecidableEq, Repr

/-- A format that a client takes, and how gladly. -/
structure Offer where
  format : BodyFormat
  quality : Single
  deriving DecidableEq, Repr

namespace Offer

/-- The format that a media type stands for. -/
def formatOf? (default : BodyFormat) (media : Text) : Option BodyFormat :=
  if media = "application/json".toList || media = "application/*".toList then some .json
  else if media = "text/plain".toList || media = "text/*".toList then some .text
  else if media = "*/*".toList then some default
  else none

/-- The quality that a parameter of an item gives, if it gives a readable one. -/
def qualityOf? (param : Text) : Option Single :=
  ((['q', '='] : Text).isPrefixOf? (Text.trim param)).bind fun q => Single.parse? (Text.trim q)

/-- What an item says, unless it names no known type or refuses it. -/
def parse? (default : BodyFormat) (item : Text) : Option Offer :=
  let (media, params) :=
    match Text.splitOn ';' item with
    | [] => ([], [])
    | media :: params => (media, params)
  let quality := (params.findSome? qualityOf?).getD .one
  if quality = .zero || quality.lt .zero then none
  else (formatOf? default (Text.trim media)).map (⟨·, quality⟩)

/-- The better of two offers: the later one only if its quality is higher. -/
def better (best : Option Offer) (offer : Offer) : Option Offer :=
  match best with
  | none => some offer
  | some b => if b.quality.lt offer.quality then some offer else some b

end Offer

/-- The offers of an `Accept` header, in their order. -/
def offers (default : BodyFormat) (accept : Text) : List Offer :=
  (Text.splitOn ',' accept).filterMap (Offer.parse? default)

/-- The format that an `Accept` header asks for. -/
def negotiate (accept : Option Text) (default : BodyFormat) : BodyFormat :=
  match accept with
  | none => default
  | some accept =>
    (((offers default accept).foldl Offer.better none).map Offer.format).getD default

end PathRouter

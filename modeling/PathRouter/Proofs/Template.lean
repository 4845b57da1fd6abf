import PathRouter.Template.Basic
import Mathlib.Tactic.Tauto

/-!
# Template — shapes put one after the other

How the views of a shape behave under `++`, which follows its parts from left to right.  The one
condition is in `Template.wellFormed_append`: a literal may not stand on both sides of the seam.
-/

namespace PathRouter
namespace Template

variable {a b : Template}

/-! ## Equations -/

@[simp] theorem done_append (t : Template) : done ++ t = t := rfl

@[simp] theorem slash_append (rest t : Template) : slash rest ++ t = slash (rest ++ t) := rfl

@[simp] theorem literal_append (text : Text) (rest t : Template) :
    literal text rest ++ t = literal text (rest ++ t) := rfl

@[simp] theorem capture_append (name : Text) (options : List Text) (rest t : Template) :
    capture name options rest ++ t = capture name options (rest ++ t) := rfl

@[simp] theorem optional_append (inner rest t : Template) :
    optional inner rest ++ t = optional inner (rest ++ t) := rfl

@[simp] theorem append_done (t : Template) : t ++ done = t := by
  induction t with
  | done => rfl
  | slash rest ih => rw [slash_append, ih]
  | literal text rest ih => rw [literal_append, ih]
  | capture name options rest ih => rw [capture_append, ih]
  | optional inner rest _ ih => rw [optional_append, ih]

theorem append_assoc (a b c : Template) : a ++ b ++ c = a ++ (b ++ c) := by
  induction a with
  | done => rfl
  | slash rest ih => simp only [slash_append, ih]
  | literal text rest ih => simp only [literal_append, ih]
  | capture name options rest ih => simp only [capture_append, ih]
  | optional inner rest _ ih => simp only [optional_append, ih]

@[simp] theorem toText_append (a b : Template) : (a ++ b).toText = a.toText ++ b.toText := by
  induction a with
  | done => rfl
  | slash rest ih => simp [toText, ih]
  | literal text rest ih => simp [toText, ih]
  | capture name options rest ih => simp [toText, ih]
  | optional inner rest _ ih => simp [toText, ih]

theorem toText_append_slash (t : Template) : (t ++ slash done).toText = t.toText ++ ['/'] :=
  toText_append t _

@[simp] theorem names_append (a b : Template) : (a ++ b).names = a.names ++ b.names := by
  induction a with
  | done => rfl
  | slash rest ih => simp [names, ih]
  | literal text rest ih => simp [names, ih]
  | capture name options rest ih => simp [names, ih]
  | optional inner rest _ ih => simp [names, ih]

@[simp] theorem isFixed_append (a b : Template) : (a ++ b).isFixed = (a.isFixed && b.isFixed) := by
  induction a with
  | done => rfl
  | slash rest ih => simp [isFixed, ih]
  | literal text rest ih => simp [isFixed, ih]
  | capture name options rest ih => simp [isFixed]
  | optional inner rest _ ih => simp [isFixed]

@[simp] theorem isDone_append (a b : Template) : (a ++ b).isDone = (a.isDone && b.isDone) := by
  cases a <;> simp [isDone]

theorem isDone_iff {t : Template} : t.isDone = true ↔ t = done := by
  cases t <;> simp [isDone]

/-! ## Literals at the seam -/

/-- Whether the last part is a literal. -/
def endsInLiteral : Template → Bool
  | .done => false
  | .literal _ .done => true
  | .slash rest => rest.endsInLiteral
  | .literal _ rest => rest.endsInLiteral
  | .capture _ _ rest => rest.endsInLiteral
  | .optional _ rest => rest.endsInLiteral

theorem endsInLiteral_append_of_not_isDone (a : Template) (filled : b.isDone = false) :
    (a ++ b).endsInLiteral = b.endsInLiteral := by
  induction a with
  | done => rfl
  | slash rest ih => simpa [endsInLiteral] using ih
  | literal text rest ih =>
      have more : (rest ++ b).isDone = false := by simp [filled]
      cases whole : rest ++ b with
      | done => simp [whole, isDone] at more
      | _ => simpa [endsInLiteral, whole] using ih
  | capture name options rest ih => simpa [endsInLiteral] using ih
  | optional inner rest _ ih => simpa [endsInLiteral] using ih

theorem startsWithLiteral_append (filled : a.isDone = false) :
    (a ++ b).startsWithLiteral = a.startsWithLiteral := by
  cases a with
  | done => cases filled
  | _ => rfl

theorem wellFormed_append :
    (a ++ b).WellFormed ↔
      a.WellFormed ∧ b.WellFormed ∧ (a.endsInLiteral = true → b.startsWithLiteral = false) := by
  induction a with
  | done => simp [WellFormed, endsInLiteral]
  | slash rest ih => simp [WellFormed, endsInLiteral, ih]
  | literal text rest ih =>
      cases last : rest.isDone with
      | true =>
          rw [isDone_iff] at last
          subst last
          have bare : startsWithLiteral done = false := rfl
          simp only [literal_append, done_append, WellFormed, endsInLiteral, bare]
          tauto
      | false =>
          have ends : (literal text rest).endsInLiteral = rest.endsInLiteral := by
            cases rest with
            | done => cases last
            | _ => rfl
          simp only [literal_append, WellFormed, ih, startsWithLiteral_append last, ends]
          tauto
  | capture name options rest ih => simp [WellFormed, endsInLiteral, ih, and_assoc]
  | optional inner rest _ ih => simp [WellFormed, endsInLiteral, ih, and_assoc]

/-! ## The last slash -/

theorem endsInSlash_slash {t : Template} (filled : t.isDone = false) :
    (slash t).endsInSlash = t.endsInSlash := by
  cases t with
  | done => cases filled
  | _ => rfl

theorem dropFinalSlash_slash {t : Template} (filled : t.isDone = false) :
    (slash t).dropFinalSlash = slash t.dropFinalSlash := by
  cases t with
  | done => cases filled
  | _ => rfl

theorem isDone_of_slash {t : Template} (ends : (slash t).endsInSlash = false) : t.isDone = false := by
  cases t with
  | done => cases ends
  | _ => rfl

theorem endsInSlash_append (a : Template) (filled : b.isDone = false) :
    (a ++ b).endsInSlash = b.endsInSlash := by
  induction a with
  | done => rfl
  | slash rest ih =>
      have more : (rest ++ b).isDone = false := by simp [filled]
      rw [slash_append, endsInSlash_slash more, ih]
  | literal text rest ih => simpa [endsInSlash] using ih
  | capture name options rest ih => simpa [endsInSlash] using ih
  | optional inner rest _ ih => simpa [endsInSlash] using ih

theorem dropFinalSlash_append (a : Template) (filled : b.isDone = false) :
    (a ++ b).dropFinalSlash = a ++ b.dropFinalSlash := by
  induction a with
  | done => rfl
  | slash rest ih =>
      have more : (rest ++ b).isDone = false := by simp [filled]
      rw [slash_append, dropFinalSlash_slash more, ih, slash_append]
  | literal text rest ih => simp [dropFinalSlash, ih]
  | capture name options rest ih => simp [dropFinalSlash, ih]
  | optional inner rest _ ih => simp [dropFinalSlash, ih]

theorem dropFinalSlash_of_leaf {t : Template} : t.endsInSlash = false → t.dropFinalSlash = t := by
  intro leaf
  induction t with
  | done => rfl
  | slash rest ih =>
      cases rest with
      | done => cases leaf
      | _ => exact congrArg slash (ih leaf)
  | literal text rest ih => exact congrArg (literal text) (ih leaf)
  | capture name options rest ih => exact congrArg (capture name options) (ih leaf)
  | optional inner rest _ ih => exact congrArg (optional inner) (ih leaf)

theorem dropFinalSlash_append_slash {t : Template} :
    t.endsInSlash = true → t.dropFinalSlash ++ slash done = t := by
  intro ends
  induction t with
  | done => cases ends
  | slash rest ih =>
      cases rest with
      | done => rfl
      | _ => exact congrArg slash (ih ends)
  | literal text rest ih => exact congrArg (literal text) (ih ends)
  | capture name options rest ih => exact congrArg (capture name options) (ih ends)
  | optional inner rest _ ih => exact congrArg (optional inner) (ih ends)

theorem toText_of_mount {t : Template} (mount : t.endsInSlash = true) :
    t.toText = t.dropFinalSlash.toText ++ ['/'] := by
  rw [← toText_append_slash, dropFinalSlash_append_slash mount]

theorem isFixed_dropFinalSlash {t : Template} (fixed : t.isFixed = true) :
    t.dropFinalSlash.isFixed = true := by
  cases mount : t.endsInSlash with
  | true =>
      have both : (t.dropFinalSlash ++ slash done).isFixed = true := by
        rwa [dropFinalSlash_append_slash mount]
      simp only [isFixed_append, Bool.and_eq_true] at both
      exact both.1
  | false => rwa [dropFinalSlash_of_leaf mount]

end Template
end PathRouter

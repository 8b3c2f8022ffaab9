import TapeMachine.Decimal.Numeral

set_option autoImplicit false

namespace TapeMachine

namespace CodePoint

def opensTag (c : CodePoint) : Bool := (0x61 ≤ c.val && c.val ≤ 0x7A) || c = '#' || c = '/' || c = '@'

def isControl (c : CodePoint) : Bool := c.val < 0x20 || (0x7F ≤ c.val && c.val < 0xA0)

end CodePoint

def Text.untagged : Text → Bool
  | c :: d :: t => !(c = '[' && d.opensTag) && untagged (d :: t)
  | _ => true

/-- The library that prints. It reads tags in square brackets in a text, and refuses one whose tags
do not match, with a message. What it shows of a piece of a styled line, which is not searched for
tags, is the piece without control codes. -/
class Screen where
  refuses : Text → Option Text
  shows : Text → Text

namespace Screen

def styles : List Text := ["red", "green", "yellow", "bold", "bold cyan", "bold green"]

def styled (style t : Text) : Text := "[" ++ style ++ "]" ++ t ++ "[/" ++ style ++ "]"

/-- Texts without tags, and those with a single style around such a text. -/
inductive Tame : Text → Prop where
  | untagged (t : Text) (plain : t.untagged = true) : Tame t
  | styled (lead style t : Text) (bare : ∀ c ∈ lead, c ≠ '[' ∧ c ≠ '\\') (known : style ∈ styles)
      (plain : t.untagged = true) :
      Tame (lead ++ styled style t)

/-- What the program can rely on. A number that stands behind a closed bracket is in no tag, so
another one would do as well. -/
structure Lawful [Screen] : Prop where
  tame : ∀ t, Tame t → refuses t = none
  counted : ∀ (lead between after : Text) (n m : Nat), CodePoint.ofChar '[' ∉ between →
    refuses (lead ++ "]" ++ between ++ groupedNumeral n ++ after) = none →
      refuses (lead ++ "]" ++ between ++ groupedNumeral m ++ after) = none
  shown : ∀ t : Text, (∀ c ∈ t, c.isControl = false) → shows t = t

end Screen

end TapeMachine

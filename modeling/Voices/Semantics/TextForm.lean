import Mathlib.Data.List.Basic

/-!
# Text forms

A type whose values are displayed as text and parsed from it. Parsing gives
back the value that was displayed; nothing is said about other texts.
-/

namespace Semantics

universe u

structure TextForm (α : Type u) where
  display : α → String
  parse : String → Option α
  parse_display : ∀ a, parse (display a) = some a

namespace TextForm

variable {α : Type u}

/-- The values are numbered, and a value is displayed as a row of that many marks. -/
def tally (number : α → Nat) (value : Nat → α) (value_number : ∀ a, value (number a) = a) :
    TextForm α where
  display a := String.ofList (List.replicate (number a) '|')
  parse text := if text.toList.all (· == '|') then some (value text.toList.length) else none
  parse_display a := by simp [value_number]

/-- The same form, but for the text of one value. -/
def withText [DecidableEq α] (form : TextForm α) (a : α) (text : String)
    (unused : form.parse text = none) : TextForm α where
  display b := if b = a then text else form.display b
  parse t := if t = text then some a else form.parse t
  parse_display b := by
    by_cases hEq : b = a
    · simp [hEq]
    · have hNe : form.display b ≠ text := by
        intro hText
        rw [← hText, form.parse_display] at unused
        cases unused
      rw [if_neg hEq, if_neg hNe, form.parse_display]

end TextForm

end Semantics

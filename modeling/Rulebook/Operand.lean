import Rulebook.Text.Numeral

/-!
# Operands

What the text of an operand stands for: a number when it is a run of digits, a string when it
stands between single quotes, and otherwise the name of an attribute. Every text is one of the
three, also one that could not occur in a written rule.
-/

namespace Rulebook

/-- The three readings of an operand's text. -/
inductive Operand where
  /-- A run of digits. -/
  | number (digits : String)
  /-- What stands between two single quotes. -/
  | text (content : String)
  /-- The name of an attribute of the context. -/
  | attribute (name : String)
  deriving DecidableEq, Repr

namespace Operand

/-- What stands between the single quotes at the two ends of a text. One character that is a quote
is not quoted text: the two quotes are different characters. -/
def quoted? : List Char → Option (List Char)
  | [] => none
  | c :: cs => if c = '\'' then
      match cs.reverse with
      | [] => none
      | d :: body => if d = '\'' then some body.reverse else none
    else none

/-- Reads the text of an operand. -/
def ofText (text : String) : Operand :=
  if (Text.natOfDigits? text.toList).isSome then .number text
  else match quoted? text.toList with
    | some body => .text (String.ofList body)
    | none => .attribute text

/-- A text is quoted exactly when it is a quote, some content, and a quote. -/
theorem quoted?_eq_some_iff {cs body : List Char} :
    quoted? cs = some body ↔ cs = '\'' :: (body ++ ['\'']) := by
  constructor
  · intro h
    cases cs with
    | nil => simp [quoted?] at h
    | cons c cs =>
      by_cases hc : c = '\''
      · simp only [quoted?, if_pos hc] at h
        cases hr : cs.reverse with
        | nil => simp [hr] at h
        | cons d rest =>
          by_cases hd : d = '\''
          · simp only [hr, if_pos hd, Option.some.injEq] at h
            rw [← h, hc, ← List.reverse_reverse cs, hr, hd, List.reverse_cons]
          · simp [hr, hd] at h
      · simp [quoted?, hc] at h
  · rintro rfl
    simp [quoted?]

end Operand

end Rulebook

import Rulebook.Text.Numeral

/-!
# Percent escapes

In a path or a URL an octet may be written as `%` and two hexadecimal digits. What looks like
the beginning of an escape but is none stands for itself.
-/

namespace Rulebook.Text

/-- The text with each escape replaced by the character whose number is the octet. Octets beyond
ASCII are not joined to characters; whoever expects such characters has to join them. -/
def unescape : List Char → List Char
  | [] => []
  | '%' :: h :: l :: cs =>
    match hexDigit? h, hexDigit? l with
    | some a, some b => Char.ofNat (16 * a + b) :: unescape cs
    -- no escape: the two characters behind the sign are looked at again
    | _, _ => '%' :: unescape (h :: l :: cs)
  | c :: cs => c :: unescape cs

/-- A text without percent signs stands for itself. -/
theorem unescape_of_not_mem {cs : List Char} (h : '%' ∉ cs) : unescape cs = cs := by
  induction cs with
  | nil => rfl
  | cons c cs ih =>
    have hc : c ≠ '%' := fun he => h (he ▸ List.mem_cons_self)
    have : unescape (c :: cs) = c :: unescape cs := by
      rw [unescape.eq_def]
      split <;> simp_all
    rw [this, ih fun hm => h (List.mem_cons_of_mem c hm)]

end Rulebook.Text

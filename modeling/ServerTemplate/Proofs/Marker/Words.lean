import ServerTemplate.Template.Marker

/-!
# Words at the beginning of a text

What the scanner of markers finds at the beginning of a text, said as equations between texts.
-/

namespace ServerTemplate.Marker

/-- What is behind a word is what is left of a text that begins with it. -/
theorem after?_eq_some {word cs rest : List Char} :
    after? word cs = some rest ↔ cs = word ++ rest := by
  induction word generalizing cs with
  | nil => simp [after?]
  | cons w word ih =>
    cases cs with
    | nil => simp [after?]
    | cons c cs =>
      rw [after?]
      by_cases hw : w = c
      · subst hw
        simp [ih]
      · simp [hw, Ne.symm hw]

end ServerTemplate.Marker

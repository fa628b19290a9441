import ServerTemplate.Proofs.Script.StringEscape

/-!
# Strings and their parts

A parser cuts what stands between the quotes of a string into parts: plain text, and escapes that
are the longest possible (`IsStringRest`). It need not cut where the elements of the string end, but
no part begins within an element, and the code points that are read off the parts are those that are
taken for the elements (`stringPoints_of_isStringRest`). So every node with the text of a string is
read as the constant of its code points (`ofNode_string`).
-/

namespace ServerTemplate.Script

variable {quote : Char} {es : List StringElement} {chars : List Char}

theorem StringElement.text_ne_nil (e : StringElement) : e.text ≠ [] := by
  cases e <;> exact List.cons_ne_nil _ _

theorem textOf_eq_nil_iff : textOf es = [] ↔ es = [] := by
  rw [textOf, List.flatMap_eq_nil_iff]
  constructor
  · intro none
    exact List.eq_nil_iff_forall_not_mem.mpr fun e mem => e.text_ne_nil (none e mem)
  · rintro rfl
    exact List.forall_mem_nil _

/-- The first of characters that are neither quotes nor backslashes is a plain character. -/
theorem exists_plains {cs rest : List Char} (noQuote : quote ∉ cs) (noEscape : '\\' ∉ cs)
    (split : textOf es ++ [quote] = cs ++ rest) :
    ∃ back, es = cs.map .plain ++ back ∧ textOf back ++ [quote] = rest := by
  induction cs generalizing es with
  | nil => exact ⟨es, rfl, split⟩
  | cons c cs ih =>
    rw [List.mem_cons, not_or] at noQuote noEscape
    obtain ⟨tail, begins⟩ := exists_textOf quote es []
    have first : firstOf quote es = c := by
      rw [begins] at split
      exact (List.cons.inj split).1
    obtain ⟨more, rfl⟩ := exists_plain first (Ne.symm noQuote.1) (Ne.symm noEscape.1)
    obtain ⟨back, rfl, left⟩ := ih noQuote.2 noEscape.2 (List.cons.inj split).2
    exact ⟨back, rfl, left⟩

/-- Plain characters are taken for themselves. -/
theorem takenFrom_plains (cs : List Char) (back : List StringElement) :
    takenFrom false (cs.map .plain ++ back) = cs.map Char.toNat ++ takenFrom false back := by
  induction cs with
  | nil => rfl
  | cons c cs ih =>
    have visible : (StringElement.plain c == .continuation ['\r']) = false := rfl
    rw [List.map_cons, List.cons_append, takenFrom, visible, ih]
    rfl

theorem head?_of_escapeLength? {cs : List Char} {n : Nat} (h : escapeLength? cs = some n) :
    cs.head? = some '\\' := by
  unfold escapeLength? at h
  split at h
  · rfl
  · cases h

/-- The longest possible escape ends where an element does. -/
theorem exists_escape (quoted : quote = '\x27' ∨ quote = '\x22') {written rest : List Char}
    (legal : areLegal quote es = true) (split : textOf es ++ [quote] = written ++ rest)
    (longest : escapeLength? (textOf es ++ [quote]) = some written.length) :
    ∃ back points, areLegal quote back = true ∧ textOf back ++ [quote] = rest ∧
      escaped (written.drop 1) = .ok points ∧
      takenFrom false es = points ++ takenFrom false back := by
  obtain ⟨tail, begins⟩ := exists_textOf quote es []
  have backslash : firstOf quote es = '\\' := by
    have first := head?_of_escapeLength? longest
    rw [begins] at first
    exact Option.some.inj first
  cases es with
  | nil => rcases quoted with rfl | rfl <;> cases backslash
  | cons e others =>
    obtain ⟨front, back, points, begins, length, value⟩ :=
      @readsEscape _ _ _ [] quoted legal backslash
    have own : (textOf front).length = written.length :=
      Option.some.inj (length.symm.trans longest)
    rw [begins.split, textOf_append, List.append_assoc] at split
    obtain ⟨rfl, rfl⟩ := List.append_inj split own
    exact ⟨back, points, areLegal_of_append (begins.split ▸ legal), rfl, value, begins.taken⟩

/-- The code points of the parts of a string are those that are taken for its elements. -/
theorem stringPoints_of_isStringRest (quoted : quote = '\x27' ∨ quote = '\x22') (lead : Nat)
    {parts : List Node} (isRest : IsStringRest ⟨chars, 0⟩ quote parts (textOf es ++ [quote]))
    (legal : areLegal quote es = true) :
    stringPoints ⟨chars, lead⟩ parts = .ok (takenFrom false es) := by
  induction parts generalizing es with
  | nil =>
    obtain rfl : es = [] := textOf_eq_nil_iff.mp (List.append_left_eq_self.mp isRest)
    rfl
  | cons part parts ih =>
    obtain ⟨written, rest, text, split, kind, isRest⟩ := isRest
    have text : part.text ⟨chars, lead⟩ = String.ofList written := text
    rw [stringPoints, text, String.toList_ofList]
    rcases kind with ⟨kind, noQuote, noEscape⟩ | ⟨kind, longest⟩
    · obtain ⟨back, rfl, rfl⟩ := exists_plains noQuote noEscape split
      rw [kind, ih isRest (areLegal_of_append legal), takenFrom_plains]
      rfl
    · obtain ⟨back, points, legal, rfl, value, taken⟩ := exists_escape quoted legal split longest
      rw [kind, value, ih isRest legal, taken]
      rfl

/-- A node with the text of a string is read as the constant of what is taken for the string. -/
theorem ofNode_string {parser : Parser} {tree n : Node} (read : parser.read chars = some tree)
    (has : tree.Has n) (kind : n.kind = .string) (l : StringLiteral)
    (spelled : n.written chars = l.text) (lead : Nat) :
    Expr.ofNode ⟨chars, lead⟩ n = .ok (.constant (n.place ⟨chars, lead⟩) (.ofPoints l.points)
      (String.ofList l.text)) := by
  obtain ⟨quote, rest, -, written, isRest⟩ := (parser.sound read has).string kind
  rw [spelled, StringLiteral.text] at written
  obtain ⟨rfl, rfl⟩ := List.cons.inj written
  have points := stringPoints_of_isStringRest l.quoted lead isRest l.legal
  have text : n.text ⟨chars, lead⟩ = String.ofList l.text := by
    rw [← spelled, Node.written, String.ofList_toList]
    rfl
  obtain ⟨_, slot, start, stop, children⟩ := n
  cases kind
  rw [Expr.ofNode, points, ← text]
  rfl

end ServerTemplate.Script

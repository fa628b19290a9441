import ServerTemplate.Proofs.Text.CodeUnit
import ServerTemplate.Template.FromScript

/-!
# Strings by the rules of scripts

A string stands between two quotes and consists of elements: characters that stand for themselves,
escapes, and ends of lines that are hidden by a backslash. `StringElement.units` gives the code
units that an element denotes by the standard of the language, in scripts that are not strict, where
octal escapes are allowed; the value of a string is made of those of its elements
(`StringLiteral.value`).

A template is converted from what `StringElement.points` gives, with `takenFrom` for the elements in
a row. This is a text of the same value for all elements but four (`spells_takenFrom`): octal
escapes other than `\0`, escapes that denote half of a pair, and line and paragraph separators that
are hidden by a backslash or follow a hidden carriage return.
-/

namespace ServerTemplate

open Text (pointUnits unitsOf Spells)

/-- The code points of a text give this text. -/
theorem Constant.ofPoints_toNat (cs : List Char) :
    ofPoints (cs.map Char.toNat) = text (String.ofList cs) := by
  have noHalf : (cs.map Char.toNat).any Text.isHalf = false := by
    rw [List.any_map, List.any_eq_false]
    intro c _
    rw [Function.comp_apply, Text.isHalf_toNat]
    exact Bool.false_ne_true
  have each : ∀ c ∈ cs, (Char.ofNat ∘ Char.toNat) c = id c := fun c _ => Char.ofNat_toNat c
  rw [ofPoints, noHalf, if_neg Bool.false_ne_true, List.map_map, List.map_congr_left each,
    List.map_id]

namespace Script

/-- An element of a string between its quotes. -/
inductive StringElement where
  /-- A character that stands for itself. -/
  | plain (c : Char)
  /-- A backslash and a character, for a control character or that character itself. -/
  | character (c : Char)
  /-- A backslash and one to three octal digits. -/
  | octal (digits : List Char)
  /-- A backslash, an `x` and two hexadecimal digits. -/
  | byte (a b : Char)
  /-- A backslash, a `u` and four hexadecimal digits. -/
  | unit (a b c d : Char)
  /-- A backslash, a `u` and hexadecimal digits in braces. -/
  | codePoint (digits : List Char)
  /-- A backslash at the end of a line, and that end. -/
  | continuation (ending : List Char)
  deriving DecidableEq, Repr

/-- A line or paragraph separator. -/
def isSeparator (c : Char) : Bool := c == '\u2028' || c == '\u2029'

/-- The ends of lines. -/
def lineEndings : List (List Char) := [['\n'], ['\r'], ['\r', '\n'], ['\u2028'], ['\u2029']]

/-- The character that is denoted by a backslash and a character. -/
def controlChar : Char → Char
  | 'b' => '\x08'
  | 't' => '\t'
  | 'n' => '\n'
  | 'v' => '\x0b'
  | 'f' => '\x0c'
  | 'r' => '\r'
  | c => c

/-- Whether one more octal digit would belong to an octal escape. -/
def goesOn : List Char → Bool
  | [_] => true
  | [a, _] => a ≤ '3'
  | _ => false

namespace StringElement

/-- How an element is spelled. -/
def text : StringElement → List Char
  | plain c => [c]
  | character c => ['\\', c]
  | octal digits => '\\' :: digits
  | byte a b => ['\\', 'x', a, b]
  | unit a b c d => ['\\', 'u', a, b, c, d]
  | codePoint digits => '\\' :: 'u' :: '\x7b' :: (digits ++ ['\x7d'])
  | continuation ending => '\\' :: ending

/-- The code units that an element denotes. -/
def units : StringElement → List Nat
  | plain c => pointUnits c.toNat
  | character c => pointUnits (controlChar c).toNat
  | octal digits => [Text.valueOf 8 (digits.map fun d => d.toNat - 0x30)]
  | byte a b => [hexValue [a, b]]
  | unit a b c d => [hexValue [a, b, c, d]]
  | codePoint digits => pointUnits (hexValue digits)
  | continuation _ => []

/-- Whether an element may stand in a string with the given quotes. -/
def isLegal (quote : Char) : StringElement → Bool
  | plain c => c != quote && c != '\\' && c != '\n' && c != '\r'
  | character c => !isOctalDigit c && c != 'x' && c != 'u' && !isLineBreak c && c != '\r'
  | octal digits =>
    digits.all isOctalDigit &&
      match digits with
      | [_] | [_, _] => true
      | [a, _, _] => a ≤ '3'
      | _ => false
  | byte a b => isHexDigit a && isHexDigit b
  | unit a b c d => [a, b, c, d].all isHexDigit
  | codePoint digits => !digits.isEmpty && digits.all isHexDigit && hexValue digits ≤ 0x10FFFF
  | continuation ending => lineEndings.contains ending

/-- Whether an element ends in front of a character. -/
def endsBefore (next : Char) : StringElement → Bool
  | octal digits => !(goesOn digits && isOctalDigit next)
  | continuation ending => !(ending == ['\r'] && next == '\n')
  | _ => true

/-- Whether an element is a plain separator. -/
def isPlainSeparator : StringElement → Bool
  | plain c => isSeparator c
  | _ => false

/-- The code points that are taken for an element. -/
def points : StringElement → List Nat
  | plain c => [c.toNat]
  | character c => [(controlChar c).toNat]
  | octal digits => if digits = ['0'] then [0] else digits.map Char.toNat
  | byte a b => [hexValue [a, b]]
  | unit a b c d => [hexValue [a, b, c, d]]
  | codePoint digits => [hexValue digits]
  | continuation ending => (ending.filter isSeparator).map Char.toNat

/-- Whether the value of an element is kept. -/
def isKept : StringElement → Bool
  | octal digits => digits == ['0']
  | unit a b c d => !Text.isHalf (hexValue [a, b, c, d])
  | codePoint digits => !Text.isHalf (hexValue digits)
  | continuation ending => !ending.any isSeparator
  | _ => true

end StringElement

/-- How elements are spelled in a row. -/
def textOf (es : List StringElement) : List Char := es.flatMap StringElement.text

/-- The character at which elements begin, in a string with the given quotes. -/
def firstOf (quote : Char) : List StringElement → Char
  | [] => quote
  | .plain c :: _ => c
  | _ :: _ => '\\'

/-- Whether elements may stand in a row in front of the closing quote. -/
def areLegal (quote : Char) : List StringElement → Bool
  | [] => true
  | e :: rest => e.isLegal quote && e.endsBefore (firstOf quote rest) && areLegal quote rest

/-- The code points that are taken for elements in a row. A separator right behind a hidden carriage
return is lost. -/
def takenFrom (behindReturn : Bool) : List StringElement → List Nat
  | [] => []
  | e :: rest =>
    (if behindReturn && e.isPlainSeparator then [] else e.points) ++
      takenFrom (e == .continuation ['\r']) rest

/-- Whether the values of elements in a row are kept. -/
def areKept (behindReturn : Bool) : List StringElement → Bool
  | [] => true
  | e :: rest =>
    e.isKept && !(behindReturn && e.isPlainSeparator) && areKept (e == .continuation ['\r']) rest

/-- A string of a script. -/
structure StringLiteral where
  quote : Char
  elements : List StringElement
  quoted : quote = '\x27' ∨ quote = '\x22'
  legal : areLegal quote elements = true

namespace StringLiteral

/-- How a string is spelled. -/
def text (l : StringLiteral) : List Char := l.quote :: (textOf l.elements ++ [l.quote])

/-- The code units that a string denotes. -/
def value (l : StringLiteral) : List Nat := l.elements.flatMap StringElement.units

/-- The code points that are taken for a string. -/
def points (l : StringLiteral) : List Nat := takenFrom false l.elements

/-- Whether all elements of a string are taken for what they denote. -/
def isKept (l : StringLiteral) : Bool := areKept false l.elements

end StringLiteral

/-! ### Values -/

theorem hexDigit?_lt {c : Char} {d : Nat} (h : Text.hexDigit? c = some d) : d < 16 := by
  unfold Text.hexDigit? at h
  split at h
  · rename_i digit
    have le : c.toNat ≤ '9'.toNat := digit.2
    have := Option.some.inj h
    change c.toNat ≤ 57 at le
    omega
  · split at h
    · rename_i letter
      have le : c.toNat ≤ 'f'.toNat := letter.2
      have := Option.some.inj h
      change c.toNat ≤ 102 at le
      omega
    · split at h
      · rename_i letter
        have le : c.toNat ≤ 'F'.toNat := letter.2
        have := Option.some.inj h
        change c.toNat ≤ 70 at le
        omega
      · cases h

/-- What hexadecimal digits spell is bounded by how many there are. -/
theorem hexValue_lt (digits : List Char) : hexValue digits < Nat.pow 16 digits.length := by
  have each : ∀ d ∈ digits.filterMap Text.hexDigit?, d < 16 := by
    intro d hd
    obtain ⟨c, -, hc⟩ := List.mem_filterMap.mp hd
    exact hexDigit?_lt hc
  exact Nat.lt_of_lt_of_le (Text.valueOf_lt each)
    (Nat.pow_le_pow_right (Nat.succ_pos _) (List.length_filterMap_le _ _))

/-- Up to four hexadecimal digits spell a code point of the first plane. -/
theorem hexValue_lt_of_length_le {digits : List Char} (few : digits.length ≤ 4) :
    hexValue digits < 0x10000 := by
  have plane : hexValue digits < Nat.pow 16 4 :=
    Nat.lt_of_lt_of_le (hexValue_lt digits) (Nat.pow_le_pow_right (Nat.succ_pos _) few)
  exact plane

theorem pointUnits_hexValue {digits : List Char} (few : digits.length ≤ 4) :
    pointUnits (hexValue digits) = [hexValue digits] := by
  rw [pointUnits, if_pos (hexValue_lt_of_length_le few)]

variable {quote : Char} {e : StringElement} {es rest : List StringElement}

theorem areLegal_cons : areLegal quote (e :: rest) = true ↔
    e.isLegal quote = true ∧ e.endsBefore (firstOf quote rest) = true ∧
      areLegal quote rest = true := by
  rw [areLegal, Bool.and_eq_true, Bool.and_eq_true, and_assoc]

namespace StringElement

/-- A digit that is taken for itself is not the character that it denotes. -/
theorem pointUnits_octal_ne {d : Char} (octal : isOctalDigit d = true) :
    pointUnits d.toNat ≠ [Text.valueOf 8 [d.toNat - 0x30]] := by
  have value : Text.valueOf 8 [d.toNat - 0x30] = 0 * 8 + (d.toNat - 0x30) := rfl
  unfold isOctalDigit at octal
  simp only [Bool.and_eq_true, decide_eq_true_eq] at octal
  have digit : 48 ≤ d.toNat ∧ d.toNat ≤ 55 := octal
  rw [pointUnits, if_pos (by omega), value]
  intro same
  have := (List.cons.inj same).1
  omega

theorem length_le_flatMap_pointUnits (points : List Nat) :
    points.length ≤ (points.flatMap pointUnits).length := by
  induction points with
  | nil => exact Nat.le_refl _
  | cons point points ih =>
    have pos : 0 < (pointUnits point).length := by
      unfold pointUnits
      split <;> exact Nat.succ_pos _
    rw [List.flatMap_cons, List.length_append, List.length_cons]
    omega

/-- What is taken for an element spells what the element denotes just if the element is kept. -/
theorem spells_iff (legal : e.isLegal quote = true) :
    Spells e.points e.units ↔ e.isKept = true := by
  cases e with
  | plain c | character c => exact iff_of_true (.char _) rfl
  | octal digits =>
    by_cases null : digits = ['0']
    · subst null
      exact iff_of_true (.char '\x00') rfl
    · refine iff_of_false ?_ (by simpa [isKept] using null)
      intro spells
      have same := spells.units_eq
      rw [points, if_neg null] at same
      rcases digits with _ | ⟨d, _ | ⟨d', rest⟩⟩
      · cases legal
      · have octal : isOctalDigit d = true := by simpa [isLegal] using legal
        exact pointUnits_octal_ne octal ((List.append_nil _).symm.trans same)
      · -- several digits are taken for as many characters
        have bound := length_le_flatMap_pointUnits ((d :: d' :: rest).map Char.toNat)
        rw [same, List.length_map] at bound
        exact absurd bound (by simp [units])
  | byte a b =>
    have small : hexValue [a, b] < 256 := hexValue_lt [a, b]
    have whole : Text.isHalf (hexValue [a, b]) = false := Text.isHalf_eq_false_iff.mpr (by omega)
    have spells := Spells.of_whole (by omega) whole
    rw [pointUnits_hexValue (Nat.le_of_ble_eq_true rfl)] at spells
    exact iff_of_true spells rfl
  | unit a b c d =>
    have small := hexValue_lt_of_length_le (Nat.le_refl [a, b, c, d].length)
    rw [isKept, Bool.not_eq_true']
    refine ⟨fun spells => spells.whole _ (List.mem_singleton_self _), fun whole => ?_⟩
    have spells := Spells.of_whole (by omega) whole
    rwa [pointUnits_hexValue (Nat.le_refl [a, b, c, d].length)] at spells
  | codePoint digits =>
    have bounded := of_decide_eq_true (Bool.and_eq_true_iff.mp legal).2
    rw [isKept, Bool.not_eq_true']
    exact ⟨fun spells => spells.whole _ (List.mem_singleton_self _), Spells.of_whole bounded⟩
  | continuation ending =>
    have none : ending.filter isSeparator = [] ↔ isKept (.continuation ending) = true := by
      simp [isKept, List.filter_eq_nil_iff]
    rw [← none]
    constructor
    · -- no separator has no code units
      intro spells
      have bound := length_le_flatMap_pointUnits (points (.continuation ending))
      rw [spells.units_eq, points, List.length_map] at bound
      exact List.length_eq_zero_iff.mp (Nat.le_zero.mp bound)
    · intro nothing
      rw [points, nothing]
      exact .nil

end StringElement

/-- What is taken for elements that are kept spells what the elements denote. -/
theorem spells_takenFrom (legal : areLegal quote es = true) {behindReturn : Bool}
    (kept : areKept behindReturn es = true) :
    Spells (takenFrom behindReturn es) (es.flatMap StringElement.units) := by
  induction es generalizing behindReturn with
  | nil => exact .nil
  | cons e rest ih =>
    obtain ⟨first, -, others⟩ := areLegal_cons.mp legal
    rw [areKept, Bool.and_eq_true, Bool.and_eq_true, Bool.not_eq_true'] at kept
    obtain ⟨⟨own, apart⟩, tail⟩ := kept
    rw [takenFrom, apart, if_neg Bool.false_ne_true, List.flatMap_cons]
    exact ((StringElement.spells_iff first).mpr own).append (ih others tail)

/-- What is taken for a string whose elements are kept is a text with the value of the string. -/
theorem StringLiteral.exists_text_of_isKept {l : StringLiteral} (kept : l.isKept = true) :
    ∃ text, Constant.ofPoints l.points = .text text ∧ unitsOf text.toList = l.value := by
  obtain ⟨cs, points, units⟩ := spells_takenFrom l.legal kept
  refine ⟨String.ofList cs, ?_, by rw [String.toList_ofList, units, value]⟩
  rw [StringLiteral.points, points, Constant.ofPoints_toNat]

end Script

end ServerTemplate

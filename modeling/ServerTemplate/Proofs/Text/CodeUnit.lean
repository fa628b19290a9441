import ServerTemplate.Text.CodeUnit

/-!
# Texts as code units

A text is a sequence of characters, or of the code units that spell them: one for a character of the
first plane, two halves of a pair for any other. Code points spell code units if they are those of a
text with these code units (`Spells`); half of a pair spells nothing.
-/

namespace ServerTemplate.Text

/-- The code units of a code point. -/
def pointUnits (point : Nat) : List Nat :=
  if point < 0x10000 then [point]
  else [0xD800 + (point - 0x10000) / 0x400, 0xDC00 + (point - 0x10000) % 0x400]

/-- The code units of a text. -/
def unitsOf (cs : List Char) : List Nat := cs.flatMap fun c => pointUnits c.toNat

variable {point : Nat} {points : List Nat}

theorem isHalf_iff : isHalf point = true ↔ 0xD800 ≤ point ∧ point < 0xE000 := by
  simp only [isHalf, isHighHalf, isLowHalf, Bool.or_eq_true, Bool.and_eq_true, decide_eq_true_eq]
  omega

theorem isHalf_eq_false_iff : isHalf point = false ↔ point < 0xD800 ∨ 0xE000 ≤ point := by
  rw [← Bool.not_eq_true, isHalf_iff]
  omega

/-- No character is half of a pair. -/
theorem isHalf_toNat (c : Char) : isHalf c.toNat = false := by
  have valid := c.valid
  rw [isHalf_eq_false_iff]
  change c.val.toNat < _ ∨ _ ≤ c.val.toNat
  unfold UInt32.isValidChar Nat.isValidChar at valid
  omega

/-- A code point that is no half of a pair is that of a character. -/
theorem toNat_ofNat (bound : point ≤ 0x10FFFF) (whole : isHalf point = false) :
    (Char.ofNat point).toNat = point := by
  have valid : point.isValidChar := by
    rw [isHalf_eq_false_iff] at whole
    unfold Nat.isValidChar
    omega
  rw [Char.ofNat, dif_pos valid]
  rfl

theorem unitsOf_eq (cs : List Char) : unitsOf cs = (cs.map Char.toNat).flatMap pointUnits :=
  (List.flatMap_map ..).symm

/-- Whether code points are those of a text with the given code units. -/
def Spells (points units : List Nat) : Prop :=
  ∃ cs : List Char, points = cs.map Char.toNat ∧ unitsOf cs = units

namespace Spells

theorem nil : Spells [] [] := ⟨[], rfl, rfl⟩

theorem char (c : Char) : Spells [c.toNat] (pointUnits c.toNat) := ⟨[c], rfl, List.append_nil _⟩

theorem append {points' units units' : List Nat} (h : Spells points units)
    (h' : Spells points' units') : Spells (points ++ points') (units ++ units') := by
  obtain ⟨cs, rfl, rfl⟩ := h
  obtain ⟨ds, rfl, rfl⟩ := h'
  exact ⟨cs ++ ds, List.map_append.symm, List.flatMap_append⟩

/-- A code point that is no half of a pair spells its code units. -/
theorem of_whole (bound : point ≤ 0x10FFFF) (whole : isHalf point = false) :
    Spells [point] (pointUnits point) := by
  have spells := char (Char.ofNat point)
  rwa [toNat_ofNat bound whole] at spells

theorem units_eq {units : List Nat} (h : Spells points units) :
    points.flatMap pointUnits = units := by
  obtain ⟨cs, rfl, rfl⟩ := h
  exact (unitsOf_eq cs).symm

/-- No half of a pair spells anything. -/
theorem whole {units : List Nat} (h : Spells points units) :
    ∀ point ∈ points, isHalf point = false := by
  obtain ⟨cs, rfl, -⟩ := h
  intro point mem
  obtain ⟨c, -, rfl⟩ := List.mem_map.mp mem
  exact isHalf_toNat c

end Spells

end ServerTemplate.Text

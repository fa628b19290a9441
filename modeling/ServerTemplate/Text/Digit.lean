/-!
# Decimal digits

Every script's decimal digits come as ten consecutive code points, so the table of the zeros gives
them all.
-/

namespace ServerTemplate.Text

/-- The decimal zeros beyond ASCII. -/
def zeros : List Nat :=
  [
    0x660, 0x6F0, 0x7C0, 0x966, 0x9E6, 0xA66, 0xAE6, 0xB66, 0xBE6, 0xC66, 0xCE6, 0xD66, 0xDE6,
    0xE50, 0xED0, 0xF20, 0x1040, 0x1090, 0x17E0, 0x1810, 0x1946, 0x19D0, 0x1A80, 0x1A90, 0x1B50,
    0x1BB0, 0x1C40, 0x1C50, 0xA620, 0xA8D0, 0xA900, 0xA9D0, 0xA9F0, 0xAA50, 0xABF0, 0xFF10,
    0x104A0, 0x10D30, 0x11066, 0x110F0, 0x11136, 0x111D0, 0x112F0, 0x11450, 0x114D0, 0x11650,
    0x116C0, 0x11730, 0x118E0, 0x11950, 0x11C50, 0x11D50, 0x11DA0, 0x16A60, 0x16AC0, 0x16B50,
    0x1D7CE, 0x1D7D8, 0x1D7E2, 0x1D7EC, 0x1D7F6, 0x1E140, 0x1E2F0, 0x1E950, 0x1FBF0
  ]

/-- The value of a decimal digit of any script. -/
def decimalDigit? (c : Char) : Option Nat :=
  if c.isDigit then some (c.toNat - 0x30)
  else (zeros.find? fun z => z ≤ c.toNat && c.toNat < z + 10).map (c.toNat - ·)

/-- The value of a hexadecimal digit. -/
def hexDigit? (c : Char) : Option Nat :=
  if '0' ≤ c ∧ c ≤ '9' then some (c.toNat - 0x30)
  else if 'a' ≤ c ∧ c ≤ 'f' then some (c.toNat - 0x57)
  else if 'A' ≤ c ∧ c ≤ 'F' then some (c.toNat - 0x37)
  else none

/-- The digit for a value below sixteen, letters in lower case. -/
def hexDigit (n : Nat) : Char :=
  if n < 10 then Char.ofNat (0x30 + n) else Char.ofNat (0x57 + n)

/-- The number that digits of a base spell, the highest first. -/
def valueOf (base : Nat) (digits : List Nat) : Nat :=
  digits.foldl (fun n d => n * base + d) 0

theorem foldl_lt {base : Nat} {digits : List Nat} (each : ∀ d ∈ digits, d < base) (n : Nat) :
    digits.foldl (fun n d => n * base + d) n < (n + 1) * Nat.pow base digits.length := by
  induction digits generalizing n with
  | nil => simp
  | cons d digits ih =>
    obtain ⟨first, others⟩ := List.forall_mem_cons.1 each
    have le : n * base + d + 1 ≤ (n + 1) * base := by
      rw [Nat.succ_mul]
      omega
    calc
      digits.foldl (fun n d => n * base + d) (n * base + d)
      _ < (n * base + d + 1) * Nat.pow base digits.length := ih others _
      _ ≤ (n + 1) * base * Nat.pow base digits.length := Nat.mul_le_mul_right _ le
      _ = (n + 1) * Nat.pow base (digits.length + 1) := by
        rw [Nat.mul_assoc, Nat.mul_comm base]
        rfl

/-- What digits spell is bounded by how many there are. -/
theorem valueOf_lt {base : Nat} {digits : List Nat} (each : ∀ d ∈ digits, d < base) :
    valueOf base digits < Nat.pow base digits.length := by
  have bound := foldl_lt each 0
  rwa [Nat.zero_add, Nat.one_mul] at bound

example : (List.range 16).map (fun n => hexDigit? (hexDigit n)) = (List.range 16).map some := by
  decide

end ServerTemplate.Text

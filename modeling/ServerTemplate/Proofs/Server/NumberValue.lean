import ServerTemplate.Proofs.Entry.Chunks
import ServerTemplate.Proofs.Literal.OperandHole
import ServerTemplate.Proofs.Number.Token

/-!
# Numbers in server code

A number of a script that is used in a condition or a region of code is written as it is spelled,
without quotes, in whatever notation. Only a big integer is written as a text in quotes, as neither
reader of numbers knows its mark (`number_in_code`, `big_in_code`).
-/

namespace ServerTemplate

open Emit Script

variable {token : List Char} {big : Bool}

/-- What a token of a number is written as in code. -/
def numberCode (big : Bool) (token : String) : String :=
  if big then Literal.ofText token else token

/-- No token of a number has a quote in it. -/
theorem quote_mem_numberCode (h : IsNumber big token) :
    '\x27' ∈ (numberCode big (String.ofList token)).toList ↔ big = true := by
  cases big with
  | true => simp [numberCode, Literal.ofText]
  | false =>
    have noQuote : '\x27' ∉ token := fun mem =>
      absurd (h.mem_numberChars _ mem) (by decide)
    simp [numberCode, noQuote]

theorem ofNode_number {s : Source} {n : Node} (kind : n.kind = .number) :
    Expr.ofNode s n = .ok (.constant (n.place s) (numberValue (n.text s)) (n.text s)) := by
  obtain ⟨_, slot, start, stop, children⟩ := n
  cases kind
  rw [Expr.ofNode]
  rfl

/-- Every node with the text of a number is read as an expression, which is written in code as the
number is spelled, except for a big integer, which is put in quotes; no other number has a quote in
it. -/
theorem number_in_code (number : IsNumber big token) {s : Source} {n : Node}
    (kind : n.kind = .number) (spelled : n.text s = String.ofList token) :
    (∃ e, Expr.ofNode s n = .ok e ∧ e.IsCode (numberCode big (String.ofList token))) ∧
      ('\x27' ∈ (numberCode big (String.ofList token)).toList ↔ big = true) := by
  have code : (numberValue (n.text s)).code (n.text s) = numberCode big (String.ofList token) := by
    rw [spelled, number.code_numberValue]
    rfl
  exact ⟨⟨_, ofNode_number kind, code ▸ isCode_constant⟩, quote_mem_numberCode number⟩

/-- A decimal with digits in groups, a fraction and an exponent: `1_000.50e-3`. -/
def groupedDecimal : List Char := ['1', '_', '0', '0', '0', '.', '5', '0', 'e', '-', '3']

theorem isNumber_groupedDecimal : IsNumber false groupedDecimal := by
  have whole : IsDigits Char.isDigit ['1', '_', '0', '0', '0'] :=
    .grouped rfl (.cons rfl (.cons rfl (.single rfl)))
  have fraction : IsDigits Char.isDigit ['5', '0'] := .cons rfl (.single rfl)
  have power : IsExponent ('e' :: (['-'] ++ ['3'])) := .mk .lower .minus (.single rfl)
  exact .decimal (.pointed (.inr whole) (.inr fraction) (.inl nofun) (.inr power))

/-- A script that is the decimal with digits in groups. -/
def groupedScript : Source := ⟨groupedDecimal, 0⟩

/-- The decimal is written as it is spelled. -/
theorem number_in_code_grouped : ∃ tree n e, parser.read groupedScript.chars = some tree ∧
    tree.Has n ∧ n.kind = .number ∧ n.text groupedScript = String.ofList groupedDecimal ∧
    Expr.ofNode groupedScript n = .ok e ∧ '\x27' ∉ groupedDecimal ∧
    lower listJob .operand "" e listJob.start = .ok ()
      ((listJob.start.noting (.expression e "" true)).writing
        (.constant (String.ofList groupedDecimal))) ∧
    listJob.convert ⟨⟨1, 0⟩, ["<?php echo ", "; ?>"], [e]⟩ =
      .ok ("<?php echo " ++ String.ofList groupedDecimal ++ "; ?>") := by
  have checks : ((parser.read groupedScript.chars).any fun tree => !tree.all fun n =>
      !(n.kind == .number && n.text groupedScript == String.ofList groupedDecimal)) = true := by
    decide +kernel
  obtain ⟨tree, n, read, has, checks⟩ := Parser.exists_has checks
  rw [Bool.and_eq_true, beq_iff_eq, beq_iff_eq] at checks
  obtain ⟨kind, spelled⟩ := checks
  obtain ⟨⟨e, expression, code⟩, quoted⟩ := number_in_code isNumber_groupedDecimal kind spelled
  refine ⟨tree, n, e, read, has, kind, spelled, expression, fun mem => ?_,
    code.written listJob .operand "" _ (.inl rfl),
    code.inRegion _ _ areAroundHole_echo ⟨1, 0⟩ listJob⟩
  have big := quoted.mp (by simpa [numberCode] using mem)
  cases big

/-- A big integer becomes a text. -/
theorem big_in_code :
    IsNumber true "10n".toList ∧
      ∃ entry, Entry.ofTemplate "<?php echo $\x7b10n\x7d; ?>" (.named "render") "html" none =
          .ok entry ∧
        listJob.convert entry.template = .ok "<?php echo '10n'; ?>" := by
  obtain ⟨entry, read, converted⟩ := exists_ok_of_map_toOption
    (x := Entry.ofTemplate "<?php echo $\x7b10n\x7d; ?>" (.named "render") "html" none)
    (f := fun entry => (listJob.convert entry.template).toOption)
    (b := some "<?php echo '10n'; ?>") (by decide +kernel)
  have digits : IsDigits Char.isDigit ['1', '0'] := .cons rfl (.single rfl)
  have token : IsNumber true (['1', '0'] ++ ['n']) := .big (.decimal digits)
  exact ⟨token, entry, read, eq_ok_of_toOption converted⟩

end ServerTemplate

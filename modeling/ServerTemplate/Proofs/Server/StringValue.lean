import ServerTemplate.Proofs.Entry.Chunks
import ServerTemplate.Proofs.Literal.OperandHole
import ServerTemplate.Proofs.Script.StringParts
import ServerTemplate.Proofs.Server.Lexing

/-!
# The values of strings in server code

A string of a script that is used in a condition or a region of code is written as a text in single
quotes: one lexeme of the code, for the text that is taken for the string. This text has the value
that the string has in the script if all elements of the string are kept (`string_in_code`). What is
not kept are octal escapes (`octal_in_code`), escapes that denote half of a pair, and some
separators.
-/

namespace ServerTemplate

open Emit Script
open Text (unitsOf)

/-- Every node with the text of a string, in the tree of a script, is read as an expression. If what
is taken for the string is a text, the expression is written in code as a literal that is one lexeme
of server code, for this text. If all elements of the string are kept, what is taken is a text, and
it has the value of the string. -/
theorem string_in_code {parser : Parser} {s : Source} {tree n : Node}
    (read : parser.read s.chars = some tree) (has : tree.Has n) (kind : n.kind = .string)
    (l : StringLiteral) (spelled : n.written s.chars = l.text) :
    ∃ e, Expr.ofNode s n = .ok e ∧
      (∀ taken, Constant.ofPoints l.points = .text taken →
        e.IsCode (Literal.ofText taken) ∧
        ∀ rest, Server.tokensFrom 0 ((Literal.ofText taken).toList ++ rest) =
          (Server.tokensFrom 0 rest).map (.quoted taken :: ·)) ∧
      (l.isKept = true →
        ∃ taken, Constant.ofPoints l.points = .text taken ∧ unitsOf taken.toList = l.value) := by
  refine ⟨_, ofNode_string read has kind l spelled s.lead, fun taken text => ?_,
    StringLiteral.exists_text_of_isKept⟩
  rw [text]
  exact ⟨isCode_constant, Server.tokensFrom_ofText taken⟩

/-- A string with elements of all kinds: `'a\n\0\x41\u00e9\u{1F600}\'\\'`, with the end of a line
hidden in it and a separator. -/
def mixedString : StringLiteral where
  quote := '\x27'
  elements := [.plain 'a', .character 'n', .octal ['0'], .byte '4' '1', .unit '0' '0' 'e' '9',
    .codePoint ['1', 'F', '6', '0', '0'], .continuation ['\r', '\n'], .plain '\u2028',
    .character '\x27', .character '\\']
  quoted := .inl rfl
  legal := by decide +kernel

/-- A script that is the string with elements of all kinds. -/
def mixedScript : Source := ⟨mixedString.text, 0⟩

/-- The string with elements of all kinds keeps its value. -/
theorem string_in_code_mixed : ∃ tree n e taken, parser.read mixedScript.chars = some tree ∧
    tree.Has n ∧ n.kind = .string ∧ n.written mixedScript.chars = mixedString.text ∧
    Expr.ofNode mixedScript n = .ok e ∧
    unitsOf taken.toList = [0x61, 0xA, 0, 0x41, 0xE9, 0xD83D, 0xDE00, 0x2028, 0x27, 0x5C] ∧
    lower listJob .operand "" e listJob.start = .ok ()
      ((listJob.start.noting (.expression e "" true)).writing (.constant (Literal.ofText taken))) ∧
    Server.tokensFrom 0 (Literal.ofText taken).toList = some [.quoted taken] ∧
    listJob.convert ⟨⟨1, 0⟩, ["<?php echo ", "; ?>"], [e]⟩ =
      .ok ("<?php echo " ++ Literal.ofText taken ++ "; ?>") := by
  have checks : ((parser.read mixedScript.chars).any fun tree => !tree.all fun n =>
      !(n.kind == .string && n.written mixedScript.chars == mixedString.text)) = true := by
    decide +kernel
  obtain ⟨tree, n, read, has, checks⟩ := Parser.exists_has checks
  rw [Bool.and_eq_true, beq_iff_eq, beq_iff_eq] at checks
  obtain ⟨kind, spelled⟩ := checks
  obtain ⟨e, expression, code, kept⟩ := string_in_code read has kind mixedString spelled
  obtain ⟨taken, text, value⟩ := kept (by decide +kernel)
  obtain ⟨isCode, lexeme⟩ := code taken text
  refine ⟨tree, n, e, taken, read, has, kind, spelled, expression, ?_,
    isCode.written listJob .operand "" _ (.inl rfl), ?_,
    isCode.inRegion _ _ areAroundHole_echo ⟨1, 0⟩ listJob⟩
  · rw [value]
    decide +kernel
  · have whole := lexeme []
    rwa [List.append_nil] at whole

/-- A character in two escapes, one for each half of its pair. -/
def pairString : StringLiteral where
  quote := '\x27'
  elements := [.unit 'd' '8' '3' 'd', .unit 'D' 'E' '0' '0']
  quoted := .inl rfl
  legal := by decide +kernel

example : pairString.value = unitsOf ['😀'] ∧
    Constant.ofPoints pairString.points = .halves [0xD83D, 0xDE00] :=
  ⟨by decide +kernel, rfl⟩

/-- A character in octal digits. -/
def octalString : StringLiteral where
  quote := '\x27'
  elements := [.octal ['1', '0', '1']]
  quoted := .inl rfl
  legal := by decide +kernel

/-- A character in octal digits is taken for the digits. -/
theorem octal_in_code :
    octalString.text = "'\\101'".toList ∧ octalString.value = unitsOf "A".toList ∧
      ∃ entry, Entry.ofTemplate "<?php echo $\x7b'\\101'\x7d; ?>" (.named "render") "html" none =
          .ok entry ∧
        listJob.convert entry.template = .ok "<?php echo '101'; ?>" ∧
        Server.tokensFrom 0 "'101'".toList = some [.quoted "101"] ∧
        unitsOf "101".toList ≠ octalString.value := by
  obtain ⟨entry, read, converted⟩ := exists_ok_of_map_toOption
    (x := Entry.ofTemplate "<?php echo $\x7b'\\101'\x7d; ?>" (.named "render") "html" none)
    (f := fun entry => (listJob.convert entry.template).toOption)
    (b := some "<?php echo '101'; ?>") (by decide +kernel)
  refine ⟨by decide +kernel, by decide +kernel, entry, read, eq_ok_of_toOption converted, ?_, ?_⟩
  · decide +kernel
  · decide +kernel

end ServerTemplate

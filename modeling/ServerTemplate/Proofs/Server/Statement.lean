import ServerTemplate.Proofs.Server.Literal

/-!
# Statements of server code

The statements that write values, in the server language's eighth version: `echo`, and conditionals
whose branches stand in braces. Their expressions are texts, whole numbers, reads of variables,
conversions to an integer, calls with one argument, parentheses, concatenations, which group from
the left, and strict equalities, which bind less and do not group at all.

`statements?` reads a region of code that consists of such statements. For every form of expressions
and statements there is one lemma that says of which texts it is read (`IsOperand`, `IsExpression`,
`IsProgram`), as long as a blank or a semicolon is behind them.
-/

namespace ServerTemplate.Server

/-! ### Lexemes -/

/-- What separates statements. -/
def marks : List Char := ['\x7b', '\x7d', ';']

/-- The lexeme that begins here, and its length. -/
def lexeme? : List Char → Option (Token × Nat)
  | [] => none
  | c :: rest => if c ∈ marks then some (.sign (.ofList [c]), 1) else token? (c :: rest)

/-- The lexemes of statements of which the first `taken` characters belong to one that has begun. -/
def lexemesFrom : Nat → List Char → Option (List Token)
  | _, [] => some []
  | taken + 1, _ :: rest => lexemesFrom taken rest
  | 0, c :: rest =>
    if isSpace c then lexemesFrom 0 rest
    else (lexeme? (c :: rest)).bind fun a => (lexemesFrom (a.2 - 1) rest).map (a.1 :: ·)

/-! ### Expressions -/

/-- An expression whose value is written or tested. -/
inductive Expression where
  | int (n : Nat)
  | text (content : String)
  | var (name : String)
  /-- A value as an integer. -/
  | toInt (value : Expression)
  | call (function : String) (argument : Expression)
  | parens (inner : Expression)
  | join (left right : Expression)
  /-- Whether two values are the same, of the same kind. -/
  | same (left right : Expression)
  deriving DecidableEq, Repr

/-- Reads something from the beginning of lexemes, and what is left of them. -/
abbrev PhraseOf (α : Type) := List Token → Option (α × List Token)

mutual

/-- Reads an expression without operators at its edges. Each step of reading takes one of the steps
that are left. -/
def operandFrom : Nat → PhraseOf Expression
  | _ + 1, .numeral spelling :: rest => (decimal? spelling).map fun n => (.int n, rest)
  | _ + 1, .quoted content :: rest => some (.text content, rest)
  | _ + 1, .var name :: rest => some (.var name, rest)
  | steps + 1, .sign "(" :: .word "int" :: .sign ")" :: rest => do
    let (value, rest) ← operandFrom steps rest
    return (.toInt value, rest)
  | steps + 1, .sign "(" :: rest => do
    let (inner, rest) ← expressionFrom steps rest
    return (.parens inner, ← expect (.sign ")") rest)
  | steps + 1, .word function :: .sign "(" :: rest => do
    let (argument, rest) ← expressionFrom steps rest
    return (.call function argument, ← expect (.sign ")") rest)
  | _, _ => none

/-- Goes on behind the left operand of a concatenation. -/
def joinedFrom : Nat → Expression → PhraseOf Expression
  | 0, _, _ => none
  | steps + 1, left, .sign "." :: rest => do
    let (right, rest) ← operandFrom steps rest
    joinedFrom steps (.join left right) rest
  | _ + 1, left, ts => some (left, ts)

/-- Reads an expression. -/
def expressionFrom : Nat → PhraseOf Expression
  | 0, _ => none
  | steps + 1, ts => do
    let (first, rest) ← operandFrom steps ts
    let (left, rest) ← joinedFrom steps first rest
    match rest with
    | .sign "===" :: rest => do
      let (first, rest) ← operandFrom steps rest
      let (right, rest) ← joinedFrom steps first rest
      return (.same left right, rest)
    | rest => return (left, rest)

end

/-! ### Statements -/

/-- Statements one after the other. -/
inductive Program where
  | done
  | echo (value : Expression) (rest : Program)
  | choice (test : Expression) (body otherwise rest : Program)
  deriving DecidableEq, Repr

/-- Reads statements in braces. -/
def bracedFrom (inner : PhraseOf Program) : PhraseOf Program := fun ts => do
  let (body, rest) ← inner (← expect (.sign "\x7b") ts)
  return (body, ← expect (.sign "\x7d") rest)

/-- Reads a test in brackets and statements in braces. -/
def clauseFrom (test : PhraseOf Expression) (inner : PhraseOf Program) :
    PhraseOf (Expression × Program) := fun ts => do
  let (test, rest) ← test (← expect (.sign "(") ts)
  let (body, rest) ← bracedFrom inner (← expect (.sign ")") rest)
  return ((test, body), rest)

mutual

/-- Reads statements as long as there are any. -/
def programFrom : Nat → PhraseOf Program
  | 0, _ => none
  | steps + 1, .word "echo" :: rest => do
    let (value, rest) ← expressionFrom steps rest
    let (others, rest) ← programFrom steps (← expect (.sign ";") rest)
    return (.echo value others, rest)
  | steps + 1, .word "if" :: rest => do
    let ((test, body), rest) ← clauseFrom (expressionFrom steps) (programFrom steps) rest
    let (otherwise, rest) ← otherwiseFrom steps rest
    let (others, rest) ← programFrom steps rest
    return (.choice test body otherwise others, rest)
  | _ + 1, ts => some (.done, ts)

/-- Reads the other branches of a conditional, if there are any. -/
def otherwiseFrom : Nat → PhraseOf Program
  | 0, _ => none
  | steps + 1, .word "elseif" :: rest => do
    let ((test, body), rest) ← clauseFrom (expressionFrom steps) (programFrom steps) rest
    let (otherwise, rest) ← otherwiseFrom steps rest
    return (.choice test body otherwise .done, rest)
  | steps + 1, .word "else" :: rest => bracedFrom (programFrom steps) rest
  | _ + 1, ts => some (.done, ts)

end

/-- The statements of a region of code that is all there is. -/
def statements? (code : String) : Option Program :=
  match code.toList with
  | '<' :: '?' :: 'p' :: 'h' :: 'p' :: ' ' :: rest => do
    let ts ← lexemesFrom 0 rest
    match ← programFrom (2 * ts.length + 2) ts with
    | (program, [.sign "?>"]) => some program
    | _ => none
  | _ => none

example : statements? ("<?php if ( 0 === (int) $n ) \x7b echo 'a' . $n . 'b'; \x7d " ++
      "else \x7b echo f( $n ); \x7d ?>") =
    some (.choice (.same (.int 0) (.toInt (.var "n")))
      (.echo (.join (.join (.text "a") (.var "n")) (.text "b")) .done)
      (.echo (.call "f" (.var "n")) .done) .done) := by decide +kernel

/-! ### Code in front of a blank or a semicolon -/

/-- A text that begins with a blank or a semicolon, if with anything. -/
def Parted (cs : List Char) : Prop :=
  cs = [] ∨ (∃ rest, cs = ' ' :: rest) ∨ ∃ rest, cs = ';' :: rest

theorem Parted.blank (rest : List Char) : Parted (' ' :: rest) := .inr (.inl ⟨rest, rfl⟩)

theorem Parted.semicolon (rest : List Char) : Parted (';' :: rest) := .inr (.inr ⟨rest, rfl⟩)

theorem Parted.ends {rest : List Char} (h : Parted rest) :
    rest.head?.all (!isNamePart ·) = true := by
  obtain rfl | ⟨rest, rfl⟩ | ⟨rest, rfl⟩ := h <;> rfl

/-- In front of a blank or a semicolon a text is cut into lexemes in one way. -/
def Scans (cs : List Char) (ts : List Token) : Prop :=
  ∀ rest, Parted rest → lexemesFrom 0 (cs ++ rest) = (lexemesFrom 0 rest).map (ts ++ ·)

theorem lexemesFrom_taken (word rest : List Char) :
    lexemesFrom word.length (word ++ rest) = lexemesFrom 0 rest := by
  induction word with
  | nil => rfl
  | cons c word ih => exact ih

theorem lexeme?_of_not_mem {c : Char} (h : c ∉ marks) (rest : List Char) :
    lexeme? (c :: rest) = token? (c :: rest) := if_neg h

/-- Statements begin with a lexeme. -/
theorem lexemesFrom_lexeme {c : Char} {cs rest : List Char} {token : Token}
    (solid : isSpace c = false) (h : lexeme? (c :: (cs ++ rest)) = some (token, cs.length + 1)) :
    lexemesFrom 0 (c :: cs ++ rest) = (lexemesFrom 0 rest).map (token :: ·) := by
  have taken := lexemesFrom_taken cs rest
  rw [List.cons_append, lexemesFrom, solid, h]
  exact congrArg (Option.map (token :: ·)) taken

/-- A word that is no operator, in front of what is no part of it. -/
theorem IsName.lexemesFrom_word {name : String} (h : IsName name) (other : name ≠ "instanceof")
    {rest : List Char} (ends : rest.head?.all (!isNamePart ·) = true) :
    lexemesFrom 0 (name.toList ++ rest) = (lexemesFrom 0 rest).map (.word name :: ·) := by
  obtain ⟨c, cs, hcs⟩ := List.exists_cons_of_ne_nil fun hnil : name.toList = [] => by
    have start := h.start
    simp [hnil] at start
  obtain rfl : name = .ofList (c :: cs) := by rw [← hcs, String.ofList_toList]
  have start : isNameStart c = true := by simpa [hcs] using h.start
  have others : ([' ', '\t', '\n', '\r'] ++ marks).all (!isNameStart ·) = true := by decide
  have apart : c ∉ [' ', '\t', '\n', '\r'] ++ marks := fun mem => by
    have other := List.all_eq_true.mp others c mem
    rw [start] at other
    cases other
  -- what begins a name is neither passed as a blank nor taken as a mark
  obtain ⟨noBlank, noMark⟩ := not_or.mp (List.mem_append.not.mp apart)
  have solid : isSpace c = false := by simpa [isSpace, and_assoc] using noBlank
  rw [hcs]
  refine lexemesFrom_lexeme solid ?_
  rw [lexeme?_of_not_mem noMark, token?_word h ends, Token.ofWord, if_neg other]

/-- An opening bracket, whatever is in it. -/
theorem lexemesFrom_opening (rest : List Char) :
    lexemesFrom 0 ('(' :: rest) = (lexemesFrom 0 rest).map (.sign "(" :: ·) :=
  @lexemesFrom_lexeme '(' [] rest _ rfl rfl

namespace Scans

variable {cs ds : List Char} {ts us : List Token}

theorem lexeme {c : Char} {token : Token} (solid : isSpace c = false)
    (h : ∀ rest, Parted rest → lexeme? (c :: (cs ++ rest)) = some (token, cs.length + 1)) :
    Scans (c :: cs) [token] :=
  fun rest parted => lexemesFrom_lexeme solid (h rest parted)

/-- A blank separates lexemes. -/
theorem blank (h : Scans cs ts) (h' : Scans ds us) : Scans (cs ++ ' ' :: ds) (ts ++ us) := by
  intro rest hrest
  have skipped : lexemesFrom 0 (' ' :: (ds ++ rest)) = lexemesFrom 0 (ds ++ rest) := rfl
  rw [List.append_assoc, List.cons_append, h _ (.blank _), skipped, h' rest hrest,
    Option.map_map]
  exact congrArg (Option.map · _) (funext fun vs => (List.append_assoc ts us vs).symm)

/-- A semicolon is a lexeme, whatever is in front of it. -/
theorem semicolon (h : Scans cs ts) : Scans (cs ++ [';']) (ts ++ [.sign ";"]) := by
  intro rest _
  have mark : lexemesFrom 0 ([';'] ++ rest) = (lexemesFrom 0 rest).map (.sign ";" :: ·) :=
    lexemesFrom_lexeme rfl rfl
  have marked := h ([';'] ++ rest) (.semicolon rest)
  rw [List.append_assoc, marked, mark, Option.map_map]
  exact congrArg (Option.map · _) (funext fun vs => (List.append_assoc ts [_] vs).symm)

theorem quoted (content : String) :
    Scans (Literal.ofText content).toList [.quoted content] := by
  intro rest _
  rw [toList_ofText]
  refine lexemesFrom_lexeme rfl ?_
  have quote (cs : List Char) : lexeme? ('\x27' :: cs) =
      (unquoted? cs).map fun a => (.quoted (.ofList a.1), a.2 + 1) := rfl
  rw [quote, List.append_assoc, List.singleton_append, unquoted?_escapeQuotes, Option.map_some,
    String.ofList_toList, List.length_append]
  rfl

theorem var {name : String} (h : IsName name) : Scans ('$' :: name.toList) [.var name] :=
  lexeme rfl fun _ parted => token?_var h parted.ends

theorem word {name : String} (h : IsName name) (other : name ≠ "instanceof") :
    Scans name.toList [.word name] :=
  fun _ parted => h.lexemesFrom_word other parted.ends

theorem zero : Scans ['0'] [.numeral "0"] :=
  lexeme rfl (by rintro _ (rfl | ⟨rest, rfl⟩ | ⟨rest, rfl⟩) <;> rfl)

theorem one : Scans ['1'] [.numeral "1"] :=
  lexeme rfl (by rintro _ (rfl | ⟨rest, rfl⟩ | ⟨rest, rfl⟩) <;> rfl)

theorem opening : Scans ['('] [.sign "("] := fun rest _ => lexemesFrom_opening rest

/-- The word of a call and its bracket. -/
theorem called {name : String} (h : IsName name) (other : name ≠ "instanceof") :
    Scans (name.toList ++ ['(']) [.word name, .sign "("] := by
  intro rest _
  rw [List.append_assoc, List.singleton_append, h.lexemesFrom_word other rfl,
    lexemesFrom_opening, Option.map_map]
  rfl

theorem closing : Scans [')'] [.sign ")"] :=
  lexeme rfl (by rintro _ (rfl | ⟨rest, rfl⟩ | ⟨rest, rfl⟩) <;> rfl)

theorem openingBrace : Scans ['\x7b'] [.sign "\x7b"] := fun _ _ => lexemesFrom_lexeme rfl rfl

theorem closingBrace : Scans ['\x7d'] [.sign "\x7d"] := fun _ _ => lexemesFrom_lexeme rfl rfl

theorem point : Scans ['.'] [.sign "."] :=
  lexeme rfl (by rintro _ (rfl | ⟨rest, rfl⟩ | ⟨rest, rfl⟩) <;> rfl)

theorem identical : Scans "===".toList [.sign "==="] :=
  lexeme rfl (by rintro _ (rfl | ⟨rest, rfl⟩ | ⟨rest, rfl⟩) <;> rfl)

theorem leave : Scans "?>".toList [.sign "?>"] :=
  lexeme rfl (by rintro _ (rfl | ⟨rest, rfl⟩ | ⟨rest, rfl⟩) <;> rfl)

end Scans

/-! ### Expressions and the texts that they are read from -/

/-- A text is read as an operand in front of whatever is behind it. -/
def IsOperand (code : List Char) (e : Expression) : Prop :=
  -- two steps for each lexeme suffice: one to read it, one to look for what goes on behind it
  ∃ ts, Scans code ts ∧ ∀ steps, 2 * ts.length ≤ steps → ∀ rest,
    operandFrom steps (ts ++ rest) = some (e, rest)

/-- Behind an expression there is a closing bracket or a semicolon. -/
def EndsExpression (rest : List Token) : Prop :=
  ∃ others, rest = .sign ")" :: others ∨ rest = .sign ";" :: others

theorem EndsExpression.bracket (rest : List Token) : EndsExpression (.sign ")" :: rest) :=
  ⟨rest, .inl rfl⟩

theorem EndsExpression.semicolon (rest : List Token) : EndsExpression (.sign ";" :: rest) :=
  ⟨rest, .inr rfl⟩

/-- A text behind an operand is read as further operands, joined to what is in front of them. -/
def Continues (tail : List Char) (join : Expression → Expression) : Prop :=
  -- the blank in front of a point parts what is there already, so the tail is not scanned alone
  ∃ ts, (∀ cs us, Scans cs us → Scans (cs ++ tail) (us ++ ts)) ∧
    ∀ steps, 2 * ts.length + 1 ≤ steps → ∀ left rest, EndsExpression rest →
      joinedFrom steps left (ts ++ rest) = some (join left, rest)

/-- A text is read as an expression in front of what ends it. -/
def IsExpression (code : List Char) (e : Expression) : Prop :=
  ∃ ts, Scans code ts ∧ ∀ steps, 2 * ts.length + 2 ≤ steps → ∀ rest, EndsExpression rest →
    expressionFrom steps (ts ++ rest) = some (e, rest)

section Expressions

variable {code other tail : List Char} {e e' : Expression} {join : Expression → Expression}

/-- An operand of one lexeme. -/
theorem Scans.isOperand {token : Token} (scans : Scans code [token])
    (read : ∀ steps rest, operandFrom (steps + 1) (token :: rest) = some (e, rest)) :
    IsOperand code e := by
  refine ⟨_, scans, fun steps enough rest => ?_⟩
  cases steps with
  | zero => simp at enough
  | succ steps => exact read steps rest

theorem isOperand_quoted (content : String) :
    IsOperand (Literal.ofText content).toList (.text content) :=
  (Scans.quoted content).isOperand fun _ _ => rfl

theorem isOperand_var {name : String} (h : IsName name) :
    IsOperand ('$' :: name.toList) (.var name) :=
  (Scans.var h).isOperand fun _ _ => rfl

theorem isOperand_zero : IsOperand ['0'] (.int 0) := Scans.zero.isOperand fun _ _ => rfl

theorem isOperand_one : IsOperand ['1'] (.int 1) := Scans.one.isOperand fun _ _ => rfl

/-- A conversion to an integer. -/
theorem IsOperand.toInt (h : IsOperand code e) :
    IsOperand ("(int) ".toList ++ code) (.toInt e) := by
  obtain ⟨ts, scans, reads⟩ := h
  -- no blanks part these three, so that they are scanned one by one
  have sign : Scans "(int)".toList [.sign "(", .word "int", .sign ")"] := by
    intro rest parted
    have int : lexemesFrom 0 ("int".toList ++ ')' :: rest) = _ :=
      IsName.lexemesFrom_word (by decide) (by decide) rfl
    have bracket : lexemesFrom 0 (')' :: rest) = _ := Scans.closing rest parted
    rw [show "(int)".toList ++ rest = '(' :: ("int".toList ++ ')' :: rest) from rfl,
      lexemesFrom_opening, int, bracket, Option.map_map, Option.map_map]
    rfl
  refine ⟨_, sign.blank scans, fun steps enough rest => ?_⟩
  have length : ts.length + 3 ≤ steps := by
    simp at enough
    omega
  obtain ⟨steps, rfl⟩ := Nat.exists_eq_add_of_le' (show 1 ≤ steps by omega)
  have read := reads steps (by simp at enough; omega) rest
  simp [operandFrom, read]

/-- A call with one argument. -/
theorem IsExpression.call (h : IsExpression code e) {function : String} (name : IsName function)
    (noOperator : function ≠ "instanceof") :
    IsOperand (function.toList ++ "( ".toList ++ code ++ " )".toList) (.call function e) := by
  obtain ⟨ts, scans, reads⟩ := h
  refine ⟨.word function :: .sign "(" :: (ts ++ [.sign ")"]), ?_, fun steps enough rest => ?_⟩
  · have whole := ((Scans.called name noOperator).blank scans).blank Scans.closing
    simpa using whole
  · obtain ⟨steps, rfl⟩ := Nat.exists_eq_add_of_le' (show 1 ≤ steps by simp at enough; omega)
    have read := reads steps (by simp at enough; omega) (.sign ")" :: rest) (.bracket rest)
    simp [operandFrom, read, expect]

/-! #### Concatenations -/

theorem continues_nil : Continues [] id := by
  refine ⟨[], fun cs us scans => by simpa using scans, fun steps enough left rest ends => ?_⟩
  obtain ⟨steps, rfl⟩ := Nat.exists_eq_add_of_le' enough
  obtain ⟨others, rfl | rfl⟩ := ends <;> rfl

/-- An operand is joined to what is in front of it first. -/
theorem Continues.cons (first : IsOperand code e) (more : Continues tail join) :
    Continues (" . ".toList ++ code ++ tail) fun left => join (.join left e) := by
  obtain ⟨ts, scans, reads⟩ := first
  obtain ⟨us, scans', joins⟩ := more
  refine ⟨.sign "." :: (ts ++ us), fun cs vs hcs => ?_, fun steps enough left rest ends => ?_⟩
  · have whole := scans' _ _ ((hcs.blank Scans.point).blank scans)
    simpa using whole
  · obtain ⟨steps, rfl⟩ := Nat.exists_eq_add_of_le' (show 1 ≤ steps by simp at enough; omega)
    have read := reads steps (by simp at enough; omega) (us ++ rest)
    have joined := joins steps (by simp at enough; omega) (.join left e) rest ends
    simp [joinedFrom, read, joined]

/-- An operand with further operands behind it. -/
theorem IsOperand.expression (first : IsOperand code e) (more : Continues tail join) :
    IsExpression (code ++ tail) (join e) := by
  obtain ⟨ts, scans, reads⟩ := first
  obtain ⟨us, scans', joins⟩ := more
  refine ⟨ts ++ us, scans' _ _ scans, fun steps enough rest ends => ?_⟩
  obtain ⟨steps, rfl⟩ := Nat.exists_eq_add_of_le' (show 1 ≤ steps by omega)
  rw [List.length_append] at enough
  have read := reads steps (by omega) (us ++ rest)
  have joined := joins steps (by omega) e rest ends
  obtain ⟨others, rfl | rfl⟩ := ends <;> simp [expressionFrom, read, joined]

/-- Two operands are compared. -/
theorem IsOperand.same (h : IsOperand code e) (h' : IsOperand other e') :
    IsExpression (code ++ " === ".toList ++ other) (.same e e') := by
  obtain ⟨ts, scans, reads⟩ := h
  obtain ⟨us, scans', reads'⟩ := h'
  refine ⟨ts ++ .sign "===" :: us, ?_, fun steps enough rest ends => ?_⟩
  · have whole := (scans.blank Scans.identical).blank scans'
    simpa using whole
  · have length : 2 * ts.length + 2 * us.length + 4 ≤ steps := by simp at enough; omega
    obtain ⟨steps, rfl⟩ := Nat.exists_eq_add_of_le' (show 2 ≤ steps by omega)
    have read := reads (steps + 1) (by omega) (.sign "===" :: (us ++ rest))
    have read' := reads' (steps + 1) (by omega) rest
    obtain ⟨others, rfl | rfl⟩ := ends <;> simp [expressionFrom, joinedFrom, read, read']

end Expressions

/-! ### Statements and the texts that they are read from -/

/-- Behind statements the braces or the region that they stand in are closed. -/
def EndsProgram (rest : List Token) : Prop :=
  ∃ others, rest = .sign "\x7d" :: others ∨ rest = .sign "?>" :: others

/-- A text is read as statements in front of what ends them. -/
def IsProgram (code : List Char) (program : Program) : Prop :=
  ∃ ts, Scans code ts ∧ ∀ steps, 2 * ts.length + 2 ≤ steps → ∀ rest, EndsProgram rest →
    programFrom steps (ts ++ rest) = some (program, rest)

/-- A text is read as the other branches of a conditional in front of what ends them. -/
def IsOtherwise (code : List Char) (program : Program) : Prop :=
  ∃ ts, Scans code ts ∧ ∀ steps, 2 * ts.length + 2 ≤ steps → ∀ rest, EndsProgram rest →
    otherwiseFrom steps (ts ++ rest) = some (program, rest)

section Statements

variable {code body others : List Char} {e : Expression} {program alternative : Program}

/-- Writing a value. -/
theorem IsExpression.echo (h : IsExpression code e) :
    IsProgram ("echo ".toList ++ code ++ [';']) (.echo e .done) := by
  obtain ⟨ts, scans, reads⟩ := h
  refine ⟨.word "echo" :: (ts ++ [.sign ";"]), ?_, fun steps enough rest ends => ?_⟩
  · have echo : Scans "echo".toList [.word "echo"] := Scans.word (by decide) (by decide)
    have whole := (echo.blank scans).semicolon
    simpa using whole
  · have length : 2 * ts.length + 6 ≤ steps := by simp at enough; omega
    obtain ⟨steps, rfl⟩ := Nat.exists_eq_add_of_le' (show 2 ≤ steps by omega)
    have read := reads (steps + 1) (by omega) (.sign ";" :: rest) (.semicolon rest)
    obtain ⟨others, rfl | rfl⟩ := ends <;> simp [programFrom, read, expect]

/-- Statements in braces. -/
theorem IsProgram.braced (h : IsProgram body program) :
    ∃ ts, Scans ("\x7b ".toList ++ body ++ " \x7d".toList) ts ∧
      ∀ steps, 2 * ts.length ≤ steps → ∀ rest,
        bracedFrom (programFrom steps) (ts ++ rest) = some (program, rest) := by
  obtain ⟨ts, scans, reads⟩ := h
  refine ⟨.sign "\x7b" :: (ts ++ [.sign "\x7d"]), ?_, fun steps enough rest => ?_⟩
  · have whole := (Scans.openingBrace.blank scans).blank Scans.closingBrace
    simpa using whole
  · have length : 2 * ts.length + 4 ≤ steps := by simp at enough; omega
    have read := reads steps (by omega) (.sign "\x7d" :: rest) ⟨rest, .inl rfl⟩
    simp [bracedFrom, read, expect]

/-- A test, and what is done if it holds. -/
theorem IsExpression.clause (test : IsExpression code e) (inner : IsProgram body program) :
    ∃ ts, Scans ("( ".toList ++ code ++ " ) \x7b ".toList ++ body ++ " \x7d".toList) ts ∧
      ∀ steps, 2 * ts.length ≤ steps → ∀ rest,
        clauseFrom (expressionFrom steps) (programFrom steps) (ts ++ rest) =
          some ((e, program), rest) := by
  obtain ⟨ts, scans, reads⟩ := test
  obtain ⟨us, scans', reads'⟩ := inner.braced
  refine ⟨.sign "(" :: (ts ++ .sign ")" :: us), ?_, fun steps enough rest => ?_⟩
  · have whole := ((Scans.opening.blank scans).blank Scans.closing).blank scans'
    simpa using whole
  · have length : 2 * ts.length + 2 * us.length + 4 ≤ steps := by simp at enough; omega
    have read := reads steps (by omega) (.sign ")" :: (us ++ rest)) (.bracket _)
    have read' := reads' steps (by omega) rest
    simp [clauseFrom, read, read', expect]

theorem IsProgram.otherwise (h : IsProgram body program) :
    IsOtherwise ("else \x7b ".toList ++ body ++ " \x7d".toList) program := by
  obtain ⟨ts, scans, reads⟩ := h.braced
  refine ⟨.word "else" :: ts, ?_, fun steps enough rest _ => ?_⟩
  · have word : Scans "else".toList [.word "else"] := Scans.word (by decide) (by decide)
    simpa using word.blank scans
  · have length : 2 * ts.length + 4 ≤ steps := by simp at enough; omega
    obtain ⟨steps, rfl⟩ := Nat.exists_eq_add_of_le' (show 1 ≤ steps by omega)
    exact reads steps (by omega) rest

theorem IsExpression.elseif (test : IsExpression code e) (inner : IsProgram body program)
    (more : IsOtherwise others alternative) :
    IsOtherwise
      ("elseif ( ".toList ++ code ++ " ) \x7b ".toList ++ body ++ " \x7d ".toList ++ others)
      (.choice e program alternative .done) := by
  obtain ⟨ts, scans, reads⟩ := test.clause inner
  obtain ⟨us, scans', reads'⟩ := more
  refine ⟨.word "elseif" :: (ts ++ us), ?_, fun steps enough rest ends => ?_⟩
  · have word : Scans "elseif".toList [.word "elseif"] := Scans.word (by decide) (by decide)
    have whole := (word.blank scans).blank scans'
    simpa using whole
  · have length : 2 * ts.length + 2 * us.length + 4 ≤ steps := by simp at enough; omega
    obtain ⟨steps, rfl⟩ := Nat.exists_eq_add_of_le' (show 1 ≤ steps by omega)
    have read := reads steps (by omega) (us ++ rest)
    have read' := reads' steps (by omega) rest ends
    simp [otherwiseFrom, read, read']

theorem IsExpression.choice (test : IsExpression code e) (inner : IsProgram body program)
    (more : IsOtherwise others alternative) :
    IsProgram ("if ( ".toList ++ code ++ " ) \x7b ".toList ++ body ++ " \x7d ".toList ++ others)
      (.choice e program alternative .done) := by
  obtain ⟨ts, scans, reads⟩ := test.clause inner
  obtain ⟨us, scans', reads'⟩ := more
  refine ⟨.word "if" :: (ts ++ us), ?_, fun steps enough rest ends => ?_⟩
  · have word : Scans "if".toList [.word "if"] := Scans.word (by decide) (by decide)
    have whole := (word.blank scans).blank scans'
    simpa using whole
  · have length : 2 * ts.length + 2 * us.length + 4 ≤ steps := by simp at enough; omega
    obtain ⟨steps, rfl⟩ := Nat.exists_eq_add_of_le' (show 2 ≤ steps by omega)
    have read := reads (steps + 1) (by omega) (us ++ rest)
    have read' := reads' (steps + 1) (by omega) rest ends
    obtain ⟨others, rfl | rfl⟩ := ends <;> simp [programFrom, read, read']

/-- A region with statements in it. -/
theorem IsProgram.statements?_eq (h : IsProgram body program) {code : String}
    (written : code.toList = "<?php ".toList ++ body ++ " ?>".toList) :
    statements? code = some program := by
  obtain ⟨ts, scans, reads⟩ := h
  have lexemes : lexemesFrom 0 (body ++ ' ' :: "?>".toList) = some (ts ++ [.sign "?>"]) := by
    have whole := (scans.blank Scans.leave) [] (.inl rfl)
    rw [List.append_nil] at whole
    exact whole.trans (congrArg some (List.append_nil _))
  have read := reads (2 * (ts ++ [Token.sign "?>"]).length + 2) (by simp) [.sign "?>"]
    ⟨[], .inr rfl⟩
  have tail : code.toList =
      '<' :: '?' :: 'p' :: 'h' :: 'p' :: ' ' :: (body ++ ' ' :: "?>".toList) := by
    rw [written, List.append_assoc]
    rfl
  rw [statements?, tail]
  simp only [lexemes, read, Option.bind_eq_bind, Option.bind_some]

end Statements

end ServerTemplate.Server

import ServerTemplate.Proofs.Server.Grammar

/-!
# Reading expressions of server code

Lexemes have one structure at most by the rules of the grammar. `read?` finds it by climbing: an
operand is read, and then, as long as an operator follows that binds strongly enough, its right
operand. What is read in front of other lexemes is the whole of a legal expression, if none of its
edges may take what follows (`Tree.Legal.read`). So a legal expression is read as itself
(`read?_tokens`).
-/

namespace ServerTemplate.Server

/-- Reads an expression from the beginning of lexemes, and what is left of them. -/
abbrev Phrase := List Token → Option (Tree × List Token)

/-- What is left behind a lexeme, if it is the first. -/
def expect (token : Token) : List Token → Option (List Token)
  | [] => none
  | first :: rest => if first = token then some rest else none

/-- What stands between operators. What is in brackets is read by `inner`. -/
def operand (inner : Phrase) : Phrase
  | .var name :: rest =>
    match expect (.sign "[") rest with
    | none => some (.var name, rest)
    | some (.quoted key :: rest) => do return (.element name key, ← expect (.sign "]") rest)
    | some _ => none
  | .word name :: rest =>
    match expect (.sign "(") rest with
    | none => some (.constant name, rest)
    | some rest => do
      let (argument, rest) ← inner rest
      return (.call name argument, ← expect (.sign ")") rest)
  | .numeral spelling :: rest => some (.numeral spelling, rest)
  | .quoted content :: rest => some (.quoted content, rest)
  | .sign bracket :: rest => do
    if bracket = "(" then
      let (tree, rest) ← inner rest
      return (.parens tree, ← expect (.sign ")") rest)
    else none
  | [] => none

mutual

/-- Reads an expression made of operators of a least level. Each step of reading takes one of the
steps that are left. -/
def readAt : Nat → Nat → Phrase
  | 0, _, _ => none
  | steps + 1, least, ts => do
    let (left, rest) ← operand (readAt steps 0) ts
    goOn steps least left rest

/-- Goes on behind an expression. -/
def goOn : Nat → Nat → Tree → Phrase
  | 0, _, _, _ => none
  | _ + 1, _, left, [] => some (left, [])
  | steps + 1, least, left, .sign operator :: rest =>
    if operator = "?" then
      if least ≤ choiceLevel ∧ leftLeast choiceLevel ≤ left.rightOpen then do
        let (consequent, rest) ← readAt steps 0 rest
        let (alternate, rest) ← readAt steps (rightLeast choiceLevel) (← expect (.sign ":") rest)
        goOn steps least (.conditional left consequent alternate) rest
      else some (left, .sign operator :: rest)
    else
      match level? operator with
      | none => some (left, .sign operator :: rest)
      | some level =>
        if least ≤ level ∧ leftLeast level ≤ left.rightOpen then do
          let (right, rest) ← readAt steps (rightLeast level) rest
          if operator = "instanceof" → right.isClass = true then
            goOn steps least (.binary operator left right) rest
          else none
        else some (left, .sign operator :: rest)
  | _ + 1, _, left, ts => some (left, ts)

end

/-- The structure of all of some lexemes, if they are an expression. -/
def read? (ts : List Token) : Option Tree :=
  match readAt (ts.length + 1) 0 ts with
  | some (tree, []) => some tree
  | _ => none

/-! ### What may follow an expression -/

/-- Behind an expression there is nothing, or a lexeme that closes what it stands in, or an operator
that does not belong to an operand at its right edge. -/
def Tree.Ends (tree : Tree) (ts : List Token) : Prop :=
  ∀ token ∈ ts.head?, token = .sign ")" ∨ token = .sign ":" ∨
    ∃ level, token.level? = some level ∧ leftLeast level ≤ tree.rightOpen

namespace Tree.Ends

variable {tree : Tree} {ts : List Token}

theorem nil (tree : Tree) : tree.Ends [] := by
  simp [Ends]

theorem bracket (tree : Tree) (ts : List Token) : tree.Ends (.sign ")" :: ts) := by
  simp [Ends]

theorem colon (tree : Tree) (ts : List Token) : tree.Ends (.sign ":" :: ts) := by
  simp [Ends]

theorem operator {token : Token} {level : Nat} (h : token.level? = some level)
    (least : leftLeast level ≤ tree.rightOpen) : tree.Ends (token :: ts) := by
  intro token' htoken
  obtain rfl : token = token' := by simpa using htoken
  exact .inr (.inr ⟨level, h, least⟩)

/-- What may follow an expression may follow its right operand. -/
theorem mono {right : Tree} (h : tree.Ends ts) (le : tree.rightOpen ≤ right.rightOpen) :
    right.Ends ts := fun token htoken => (h token htoken).imp_right fun h =>
  h.imp_right fun ⟨level, hlevel, least⟩ => ⟨level, hlevel, Nat.le_trans least le⟩

theorem expect_eq_none (h : tree.Ends ts) {bracket : String}
    (hbracket : bracket = "[" ∨ bracket = "(") : expect (.sign bracket) ts = none := by
  cases ts with
  | nil => rfl
  | cons token ts =>
    refine if_neg ?_
    rintro rfl
    rcases hbracket with rfl | rfl <;> rcases h _ rfl with h | h | ⟨_, h, -⟩ <;>
      first | exact absurd h (by decide) | cases h

end Tree.Ends

/-- No operator of a least level follows. -/
def Stops (least : Nat) (ts : List Token) : Prop :=
  ∀ token ∈ ts.head?, token = .sign ")" ∨ token = .sign ":" ∨
    ∃ level, token.level? = some level ∧ level < least

theorem Stops.nil (least : Nat) : Stops least [] := by
  simp [Stops]

theorem Stops.bracket (least : Nat) (ts : List Token) : Stops least (.sign ")" :: ts) := by
  simp [Stops]

theorem Stops.colon (least : Nat) (ts : List Token) : Stops least (.sign ":" :: ts) := by
  simp [Stops]

/-- What may follow an expression binds less than what its right operand is made of. -/
theorem Tree.Ends.stops {tree : Tree} {ts : List Token} (h : tree.Ends ts) {level : Nat}
    (le : tree.rightOpen ≤ level) : Stops (rightLeast level) ts := fun token htoken =>
  (h token htoken).imp_right fun h => h.imp_right fun ⟨other, hother, least⟩ =>
    ⟨other, hother, lt_rightLeast (Nat.le_trans least le) (Token.lt_closedLevel hother)⟩

theorem Tree.rightOpen_binary {operator : String} {left right : Tree} {level : Nat}
    (h : level? operator = some level) (open_right : operator ≠ "instanceof") :
    (binary operator left right).rightOpen = min level right.rightOpen := by
  rw [rightOpen, if_neg open_right, h]
  rfl

theorem Tree.Ends.stops_binary {operator : String} {left right : Tree} {ts : List Token}
    {level : Nat} (h : (binary operator left right).Ends ts)
    (hlevel : level? operator = some level) : Stops (rightLeast level) ts := by
  by_cases closed : operator = "instanceof"
  · subst closed
    cases hlevel
    exact fun token htoken => (h token htoken).imp_right fun h => h.imp_right
      fun ⟨other, hother, _⟩ => ⟨other, hother, Token.lt_closedLevel hother⟩
  · exact h.stops (rightOpen_binary hlevel closed ▸ Nat.min_le_left ..)

/-- What may follow an operator with its operands may follow the right operand. -/
theorem Tree.Ends.right {operator : String} {left right : Tree} {ts : List Token} {level : Nat}
    (h : (binary operator left right).Ends ts) (hlevel : level? operator = some level)
    (hclass : operator = "instanceof" → right.isClass = true) : right.Ends ts := by
  refine h.mono ?_
  by_cases closed : operator = "instanceof"
  · have edge : (binary operator left right).rightOpen = closedLevel := if_pos closed
    exact Nat.le_of_eq (edge.trans (rightOpen_of_isClass (hclass closed)).symm)
  · exact rightOpen_binary hlevel closed ▸ Nat.min_le_right ..

/-- Nothing is read behind an expression if what follows binds less than is asked for. -/
theorem goOn_eq_self {steps least : Nat} (hsteps : 0 < steps) {left : Tree} {ts : List Token}
    (stop : Stops least ts) : goOn steps least left ts = some (left, ts) := by
  obtain ⟨steps, rfl⟩ := Nat.exists_eq_succ_of_ne_zero (Nat.ne_of_gt hsteps)
  cases ts with
  | nil => rfl
  | cons token ts =>
    rcases stop token rfl with rfl | rfl | ⟨level, hlevel, lt⟩
    · rfl
    · rfl
    cases token with
    | sign operator =>
      rw [Token.level?] at hlevel
      rw [goOn]
      split at hlevel
      · rename_i choice
        cases hlevel
        rw [if_pos choice, if_neg fun h => by omega]
      · rename_i other
        rw [if_neg other, hlevel]
        exact if_neg fun h => by omega
    | _ => cases hlevel

/-! ### Legal expressions are read as themselves -/

/-- An operand is read first, and then what is behind it. -/
theorem readAt_succ (steps least : Nat) (ts : List Token) :
    readAt (steps + 1) least ts =
      (operand (readAt steps 0) ts).bind fun a => goOn steps least a.1 a.2 := rfl

theorem goOn_binary {steps least level : Nat} {operator : String} {left right : Tree}
    {ts rest : List Token} (hlevel : level? operator = some level) (hleast : least ≤ level)
    (hleft : leftLeast level ≤ left.rightOpen)
    (hright : readAt steps (rightLeast level) ts = some (right, rest))
    (hclass : operator = "instanceof" → right.isClass = true) :
    goOn (steps + 1) least left (.sign operator :: ts) =
      goOn steps least (.binary operator left right) rest := by
  have other : operator ≠ "?" := by
    rintro rfl
    cases hlevel
  rw [goOn, if_neg other, hlevel]
  dsimp only
  rw [if_pos ⟨hleast, hleft⟩, hright]
  exact if_pos hclass

theorem goOn_conditional {steps : Nat} {test consequent alternate : Tree}
    {ts middle rest : List Token} (htest : leftLeast choiceLevel ≤ test.rightOpen)
    (hconsequent : readAt steps 0 ts = some (consequent, .sign ":" :: middle))
    (halternate : readAt steps (rightLeast choiceLevel) middle = some (alternate, rest)) :
    goOn (steps + 1) choiceLevel test (.sign "?" :: ts) =
      goOn steps choiceLevel (.conditional test consequent alternate) rest := by
  rw [goOn, if_pos rfl, if_pos ⟨Nat.le_refl _, htest⟩, hconsequent]
  change (do
    let (alternate, rest) ← readAt steps (rightLeast choiceLevel) middle
    goOn steps choiceLevel (.conditional test consequent alternate) rest) = _
  rw [halternate]
  rfl

/-- How reading goes on behind an expression that is read first. -/
def Tree.Read (tree : Tree) (steps least : Nat) (ts : List Token) : Prop :=
  ∃ left, ts.length < left ∧ readAt steps least (tree.tokens ++ ts) = goOn left least tree ts

theorem Tree.Read.eq_some {tree : Tree} {steps least : Nat} {ts : List Token}
    (h : tree.Read steps least ts) (stop : Stops least ts) :
    readAt steps least (tree.tokens ++ ts) = some (tree, ts) := by
  obtain ⟨left, hleft, h⟩ := h
  rw [h, goOn_eq_self (Nat.zero_lt_of_lt hleft) stop]

/-- An operand is read first if it is one. -/
theorem Tree.Read.of_operand {tree : Tree} {steps least : Nat} {ts : List Token}
    (h : operand (readAt steps 0) (tree.tokens ++ ts) = some (tree, ts))
    (hsteps : ts.length < steps) : tree.Read (steps + 1) least ts :=
  ⟨steps, hsteps, by rw [readAt_succ, h]; rfl⟩

/-- A legal expression is read first where no edge of it may take what follows. -/
theorem Tree.Legal.read {tree : Tree} (legal : tree.Legal) {steps least : Nat} {ts : List Token}
    (ends : tree.Ends ts) (hleast : least ≤ tree.leftOpen)
    (hsteps : (tree.tokens ++ ts).length < steps) : tree.Read steps least ts := by
  induction tree generalizing steps least ts with
  | var name =>
    obtain ⟨steps, rfl⟩ := Nat.exists_eq_succ_of_ne_zero (Nat.ne_zero_of_lt hsteps)
    refine .of_operand ?_ (Nat.lt_of_succ_lt_succ hsteps)
    rw [tokens, List.singleton_append, operand, ends.expect_eq_none (.inl rfl)]
  | constant name =>
    obtain ⟨steps, rfl⟩ := Nat.exists_eq_succ_of_ne_zero (Nat.ne_zero_of_lt hsteps)
    refine .of_operand ?_ (Nat.lt_of_succ_lt_succ hsteps)
    rw [tokens, List.singleton_append, operand, ends.expect_eq_none (.inr rfl)]
  | element array key =>
    obtain ⟨steps, rfl⟩ := Nat.exists_eq_succ_of_ne_zero (Nat.ne_zero_of_lt hsteps)
    refine .of_operand rfl ?_
    simp only [tokens, List.cons_append, List.nil_append, List.length_cons] at hsteps
    omega
  | numeral _ | quoted _ =>
    obtain ⟨steps, rfl⟩ := Nat.exists_eq_succ_of_ne_zero (Nat.ne_zero_of_lt hsteps)
    exact .of_operand rfl (Nat.lt_of_succ_lt_succ hsteps)
  | call function argument ih =>
    obtain ⟨steps, rfl⟩ := Nat.exists_eq_succ_of_ne_zero (Nat.ne_zero_of_lt hsteps)
    simp only [tokens, List.cons_append, List.append_assoc, List.nil_append, List.length_cons,
      List.length_append] at hsteps
    have inner : argument.Read steps 0 (.sign ")" :: ts) := by
      refine ih legal (.bracket _ _) (Nat.zero_le _) ?_
      simp only [List.length_append, List.length_cons]
      omega
    refine .of_operand ?_ (by omega)
    simp only [tokens, List.cons_append, List.append_assoc, List.nil_append]
    rw [operand, expect, if_pos rfl]
    dsimp only
    rw [inner.eq_some (.bracket _ _)]
    rfl
  | parens inner ih =>
    obtain ⟨steps, rfl⟩ := Nat.exists_eq_succ_of_ne_zero (Nat.ne_zero_of_lt hsteps)
    simp only [tokens, List.cons_append, List.append_assoc, List.nil_append, List.length_cons,
      List.length_append] at hsteps
    have inside : inner.Read steps 0 (.sign ")" :: ts) := by
      refine ih legal (.bracket _ _) (Nat.zero_le _) ?_
      simp only [List.length_append, List.length_cons]
      omega
    refine .of_operand ?_ (by omega)
    simp only [tokens, List.cons_append, List.append_assoc, List.nil_append]
    rw [operand, if_pos rfl, inside.eq_some (.bracket _ _)]
    rfl
  | binary operator left right ihl ihr =>
    obtain ⟨⟨level, hlevel, hleft, hright⟩, hclass, legal_left, legal_right⟩ := legal
    have le_level : least ≤ level ∧ least ≤ left.leftOpen := by
      rw [leftOpen, hlevel] at hleast
      exact Nat.le_min.mp hleast
    simp only [tokens, List.append_assoc, List.cons_append, List.length_append,
      List.length_cons] at hsteps
    -- the left operand is read first, then the operator and the right operand
    obtain ⟨front, hfront, read_left⟩ : left.Read steps least
        (.sign operator :: (right.tokens ++ ts)) := by
      refine ihl legal_left (.operator (Token.level?_sign hlevel) hleft) le_level.2 ?_
      simp only [List.length_append, List.length_cons]
      omega
    obtain ⟨front, rfl⟩ := Nat.exists_eq_succ_of_ne_zero (Nat.ne_zero_of_lt hfront)
    have inner : right.Read front (rightLeast level) ts :=
      ihr legal_right (ends.right hlevel hclass) hright (by simpa using hfront)
    have read_right := inner.eq_some (ends.stops_binary hlevel)
    refine ⟨front, ?_, ?_⟩
    · simp only [List.length_append, List.length_cons] at hfront
      omega
    · rw [tokens, List.append_assoc, List.cons_append, read_left,
        goOn_binary hlevel le_level.1 hleft read_right hclass]
  | conditional test consequent alternate iht ihc iha =>
    obtain ⟨htest, halternate, legal_test, legal_consequent, legal_alternate⟩ := legal
    obtain rfl : least = choiceLevel := Nat.le_zero.mp hleast
    simp only [tokens, List.append_assoc, List.cons_append, List.length_append,
      List.length_cons] at hsteps
    -- the test is read first, then the marks and what is between and behind them
    obtain ⟨front, hfront, read_test⟩ : test.Read steps choiceLevel
        (.sign "?" :: (consequent.tokens ++ .sign ":" :: (alternate.tokens ++ ts))) := by
      refine iht legal_test (.operator rfl htest) (Nat.zero_le _) ?_
      simp only [List.length_append, List.length_cons]
      omega
    obtain ⟨front, rfl⟩ := Nat.exists_eq_succ_of_ne_zero (Nat.ne_zero_of_lt hfront)
    simp only [List.length_append, List.length_cons] at hfront
    have first : consequent.Read front 0 (.sign ":" :: (alternate.tokens ++ ts)) := by
      refine ihc legal_consequent (.colon _ _) (Nat.zero_le _) ?_
      simp only [List.length_append, List.length_cons]
      omega
    have second : alternate.Read front (rightLeast choiceLevel) ts := by
      refine iha legal_alternate (ends.mono (Nat.zero_le _)) halternate ?_
      simp only [List.length_append]
      omega
    have read_consequent := first.eq_some (.colon _ _)
    have read_alternate := second.eq_some (ends.stops (Nat.le_refl _))
    refine ⟨front, by omega, ?_⟩
    simp only [tokens, List.append_assoc, List.cons_append]
    rw [read_test, goOn_conditional htest read_consequent read_alternate]

/-- A legal expression is read as itself. -/
theorem read?_tokens {tree : Tree} (legal : tree.Legal) : read? tree.tokens = some tree := by
  have whole := (legal.read (.nil tree) (Nat.zero_le _)
    (by simp : (tree.tokens ++ []).length < tree.tokens.length + 1)).eq_some (.nil 0)
  rw [List.append_nil] at whole
  rw [read?, whole]

end ServerTemplate.Server

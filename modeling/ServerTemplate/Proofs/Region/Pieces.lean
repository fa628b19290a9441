import ServerTemplate.Proofs.Emission.Step
import ServerTemplate.Proofs.Region.Scan
import ServerTemplate.Script.Expression

/-!
# Generated pieces are read as what they are

`Passage b s b'` says that the text `s` stands in code or in markup, as `b` says, and leads to `b'`,
whatever stands in front of it: no tag that is begun before goes on in it. Every generated piece is
a passage, if the names in it are plain (`Expr.Spelled`, `Operand.Spelled`).
-/

namespace ServerTemplate

/-! ### Passages -/

/-- A way through a whole text. -/
theorem Goes.readsTo {b b' : Bool} {cs : List Char} {ts : List Tag}
    (h : Goes (.ofCode b) cs ts (.ofCode b') []) (follow : Tag.follow b ts = some b') :
    ReadsTo b cs b' where
  read := h.read
  tags := by
    rw [Mode.tags, h.survey]
    change Tag.follow b (ts ++ []) = some b'
    rw [List.append_nil, follow]

instance (b : Bool) (cs : List Char) (b' : Bool) : Decidable (ReadsTo b cs b') :=
  decidable_of_iff
    ((Mode.ofCode b).read cs = .ofCode b' ∧ Tag.follow b ((Mode.ofCode b).tags cs) = some b')
    ⟨fun h => ⟨h.1, h.2⟩, fun h => ⟨h.read, h.tags⟩⟩

/-- Whether a character stands in a tag behind its first. -/
def Tag.goesOn (c : Char) : Bool := c == '?' || c == 'p' || c == 'h' || c == '>'

/-- A text that begins otherwise completes no tag. -/
theorem not_tagCut {ys : List Char} (h : ys.head?.any Tag.goesOn = false) (xs : List Char) :
    ¬ TagCut xs ys := by
  rintro ⟨tag, p, q, hp, hq, htag, -, back⟩
  -- the text would begin with a character of the tag behind its first
  obtain ⟨c, q, rfl⟩ := List.exists_cons_of_ne_nil hq
  obtain ⟨d, p, rfl⟩ := List.exists_cons_of_ne_nil hp
  obtain ⟨rest, rfl⟩ := back
  have later : c ∈ tag.chars.tail := by
    rw [htag]
    exact List.mem_append_right p (List.mem_cons_self ..)
  have all : tag.chars.tail.all Tag.goesOn = true := by cases tag <;> rfl
  have stays : Tag.goesOn c = false := h
  rw [List.all_eq_true.mp all c later] at stays
  cases stays

/-- A text leads from code or markup to code or markup, and completes no tag. -/
structure Passage (b : Bool) (s : String) (b' : Bool) : Prop where
  reads : ReadsTo b s.toList b'
  fresh : s.toList.head?.any Tag.goesOn = false

instance (b : Bool) (s : String) (b' : Bool) : Decidable (Passage b s b') :=
  decidable_of_iff (ReadsTo b s.toList b' ∧ s.toList.head?.any Tag.goesOn = false)
    ⟨fun h => ⟨h.1, h.2⟩, fun h => ⟨h.reads, h.fresh⟩⟩

namespace Passage

variable {b b' b'' : Bool} {s s' : String}

theorem append (h : Passage b s b') (h' : Passage b' s' b'') : Passage b (s ++ s') b'' where
  reads := by
    rw [String.toList_append]
    exact h.reads.append h'.reads (not_tagCut h'.fresh _)
  fresh := by
    have fresh := h.fresh
    rw [String.toList_append]
    cases hs : s.toList with
    | nil => exact h'.fresh
    | cons c cs =>
      rw [hs] at fresh
      exact fresh

/-- A plain text in code. -/
theorem plain (h : Plain s) (fresh : s.toList.head?.any Tag.goesOn = false) :
    Passage true s true where
  reads := by
    have way : Goes .code (s.toList ++ []) [] .code [] := .plain h []
    rw [List.append_nil] at way
    exact Goes.readsTo way rfl
  fresh := fresh

end Passage

/-! ### Names and texts in code -/

theorem plain_append {s s' : String} (h : Plain s) (h' : Plain s') : Plain (s ++ s') := by
  intro c hc
  rw [String.toList_append] at hc
  exact (List.mem_append.mp hc).elim (h c) (h' c)

/-- The variable of a plain name. -/
theorem passage_dollar {name : String} (h : Plain name) : Passage true ("$" ++ name) true := by
  refine .plain (plain_append (by decide) h) ?_
  rw [String.toList_append]
  rfl

/-- The quotes in a text are escaped. -/
theorem goes_escapeQuotes (cs left : List Char) :
    Goes (.quoted '\x27') (Literal.escapeQuotes cs ++ left) [] (.quoted '\x27') left := by
  induction cs with
  | nil => exact .refl _ _
  | cons c cs ih =>
    rw [Literal.escapeQuotes]
    split
    · rename_i special
      have noBreak : (c == '\n') = false := by
        refine beq_false_of_ne fun hc => ?_
        rw [hc] at special
        cases special
      exact (Goes.escape _ noBreak).trans ih
    · rename_i ordinary
      rw [Bool.or_eq_true, not_or, Bool.not_eq_true, Bool.not_eq_true] at ordinary
      have step : Goes (.quoted '\x27') (c :: (Literal.escapeQuotes cs ++ left)) _ _ _ :=
        .inString ordinary.1
      rw [ordinary.2] at step
      exact step.trans ih

theorem passage_ofText (s : String) : Passage true (Literal.ofText s) true where
  reads := by
    rw [Literal.ofText, String.toList_ofList]
    -- opened by the first quote, and closed by the last
    have opened : Goes .code ('\x27' :: Literal.escapeQuotes s.toList ++ ['\x27']) [] _ _ :=
      .quote rfl _
    have closed : Goes (.quoted '\x27') ['\x27'] [] .code [] := .inString rfl
    exact Goes.readsTo ((opened.trans (goes_escapeQuotes _ _)).trans closed) rfl
  fresh := by
    rw [Literal.ofText, String.toList_ofList]
    rfl

/-! ### Operands -/

/-- Whether the names in an operand are plain. -/
def Operand.Spelled : Operand → Prop
  | var name => Plain name
  | field item _ => Plain item
  | count operand => operand.Spelled

theorem Operand.Spelled.passage {operand : Operand} (h : operand.Spelled) :
    Passage true operand.text true := by
  induction operand with
  | var name => exact passage_dollar h
  | field item name =>
    have brackets : Passage true "[" true ∧ Passage true "]" true := by decide
    exact ((passage_dollar h).append brackets.1).append (passage_ofText name) |>.append brackets.2
  | count operand ih =>
    have brackets : Passage true "count( " true ∧ Passage true " )" true := by decide
    exact (brackets.1.append (ih h)).append brackets.2

/-! ### Pieces in code -/

theorem passage_labelOperands {count : String} (h : Passage true count true)
    (texts : List (List Char)) : ∀ code ∈ labelOperands count texts, Passage true code true := by
  induction texts with
  | nil => exact nofun
  | cons first rest ih =>
    have some_text (text : List Char) : ∀ code ∈
        (if text.isEmpty then [] else [Literal.ofText (String.ofList text)]),
        Passage true code true := by
      intro code hcode
      split at hcode
      · cases hcode
      · rw [List.mem_singleton.mp hcode]
        exact passage_ofText _
    cases rest with
    | nil => exact some_text first
    | cons second rest =>
      intro code hcode
      rcases List.mem_append.mp hcode with hcode | hcode
      · exact some_text first code hcode
      · rcases List.mem_cons.mp hcode with rfl | hcode
        · exact h
        · exact ih code hcode

theorem passage_intercalate {separator : String} (h : Passage true separator true)
    (codes : List String) (hcodes : ∀ code ∈ codes, Passage true code true) :
    Passage true (separator.intercalate codes) true := by
  induction codes with
  | nil => exact (by decide : Passage true "" true)
  | cons first rest ih =>
    have hfirst := hcodes first (List.mem_cons_self ..)
    have hrest := ih fun code h => hcodes code (List.mem_cons_of_mem _ h)
    cases rest with
    | nil => exact String.intercalate_singleton ▸ hfirst
    | cons second rest =>
      rw [String.intercalate_cons_cons]
      exact (hfirst.append h).append hrest

theorem passage_labelCode (label : String) {count : String} (h : Passage true count true) :
    Passage true (labelCode label count) true := by
  rw [labelCode]
  split
  · decide
  · exact passage_intercalate (by decide) _ (passage_labelOperands h _)

theorem passage_echoStatement {value : String} (h : Passage true value true)
    {function : Option String} (plain : ∀ name ∈ function, Plain name) :
    Passage true (echoStatement value function) true := by
  cases function with
  | none =>
    have marks : Passage true "echo " true ∧ Passage true ";" true := by decide
    exact (marks.1.append h).append marks.2
  | some name =>
    have echo : Passage true ("echo " ++ name) true := by
      refine .plain (plain_append (by decide) (plain name rfl)) ?_
      rw [String.toList_append]
      rfl
    have marks : Passage true "( " true ∧ Passage true " );" true := by decide
    exact ((echo.append marks.1).append h).append marks.2

/-- A number begins with no character of a tag. -/
theorem goesOn_eq_false {c : Char} (h : (c.isDigit || c == '.' || c == '-') = true) :
    Tag.goesOn c = false := by
  refine Bool.eq_false_iff.mpr fun goesOn => ?_
  have inTag : ((c = '?' ∨ c = 'p') ∨ c = 'h') ∨ c = '>' := by
    simpa [Tag.goesOn] using goesOn
  rcases inTag with ((rfl | rfl) | rfl) | rfl <;> exact absurd h (by decide)

/-- The digits of a number are plain. -/
theorem passage_repr (n : Nat) : Passage true n.repr true := by
  have digits : ∀ c ∈ n.repr.toList, c.isDigit = true := by
    intro c hc
    rw [Nat.repr, String.toList_ofList] at hc
    exact Nat.isDigit_of_mem_toDigits (by decide) (by decide) hc
  refine .plain (fun c hc => isPlain_of (by decide) (digits c hc)) ?_
  cases h : n.repr.toList with
  | nil => rfl
  | cons c cs =>
    have digit := digits c (h ▸ List.mem_cons_self ..)
    exact goesOn_eq_false (by rw [digit]; rfl)

theorem passage_toString (n : Int) : Passage true (toString n) true := by
  cases n with
  | ofNat n => exact passage_repr n
  | negSucc n =>
    have sign : Passage true "-" true := by decide
    exact sign.append (passage_repr _)

/-! ### Pieces in markup -/

theorem passage_echo {operand : Operand} (h : operand.Spelled) {function : Option String}
    (plain : ∀ name ∈ function, Plain name) :
    Passage false (Piece.written (.echo operand function)) false := by
  have marks : Passage false "<?php " true ∧ Passage true " ?>" false := by decide
  exact (marks.1.append (passage_echoStatement h.passage plain)).append marks.2

theorem Passage.dollar {b : Bool} {front name : String} (h : Passage b front true)
    (plain : Plain name) : Passage b (front ++ "$" ++ name) true := by
  rw [String.append_assoc]
  exact h.append (passage_dollar plain)

theorem passage_loopStart {array item : String} (harray : Plain array) (hitem : Plain item) :
    Passage false (Piece.written (.loopStart array item)) false := by
  have front : Passage false "<?php foreach ( " true := by decide
  have marks : Passage true " as " true ∧ Passage true " ) : ?>" false := by decide
  -- the dollar signs belong to the names
  have hfront : "<?php foreach ( $" = "<?php foreach ( " ++ "$" := by decide
  have hmiddle : " as $" = " as " ++ "$" := by decide
  change Passage false ("<?php foreach ( $" ++ array ++ " as $" ++ item ++ " ) : ?>") false
  rw [hfront, hmiddle, ← String.append_assoc]
  exact (((front.dollar harray).append marks.1).dollar hitem).append marks.2

theorem passage_stars (number : Int) {rating : Operand} (h : rating.Spelled) :
    Passage false (Piece.written (.stars number rating)) false := by
  have front : Passage false "<?php for ( $i = 1; $i <= " true := by decide
  have middle : Passage true "; $i++ ) : ?>" false ∧
      Passage false "<span class=\"star\"><?php echo $i <= " true := by decide
  have back : Passage true " ? '★' : '☆'; ?></span>" false ∧
      Passage false "<?php endfor; ?>" false := by decide
  have head := (front.append (passage_toString number)).append middle.1
  exact (((head.append middle.2).append h.passage).append back.1).append back.2

theorem passage_resultCount (labels : CountLabels) {function : Option String}
    (plain : ∀ name ∈ function, Plain name) :
    Passage false (Piece.written (.resultCount labels function)) false := by
  have count : Passage true (Operand.var resultCountParameter).text true := by decide
  have braces : Passage true "\x7b " true ∧ Passage true " \x7d" true := by decide
  have branch (label : String) := (braces.1.append
    (passage_echoStatement (passage_labelCode label count) plain)).append braces.2
  have front : Passage false "<?php if ( 0 === (int) " true ∧ Passage true " ?>" false := by
    decide
  have middle : Passage true " ) " true ∧ Passage true " elseif ( 1 === (int) " true ∧
      Passage true " else " true := by decide
  have zero := ((front.1.append count).append middle.1).append (branch labels.zero)
  have one := (((zero.append middle.2.1).append count).append middle.1).append (branch labels.one)
  exact ((one.append middle.2.2).append (branch labels.many)).append front.2

/-! ### Expressions -/

/-- Whether a number is spelled in plain characters, and begins as a number does. -/
def IsNumeral (s : String) : Prop :=
  Plain s ∧ s.toList.head?.any (fun c => c.isDigit || c == '.' || c == '-') = true

/-- Whether the names, operators and numbers of an expression are spelled as in a script: names and
numbers are plain, and operators are those that stand between two operands. -/
def Expr.Spelled : Expr → Prop
  | .name _ spelled => Plain spelled
  | .member _ (.this _) property _ => Plain property
  | .member _ (.name _ owner) _ _ => Plain owner
  | .arrow _ parameters _ => ∀ parameter ∈ parameters, Plain parameter
  | .binary _ operator _ _ | .logical _ operator _ _ =>
    (Script.Reader.operatorLevel? operator).isSome = true
  | .constant _ (.int n) spelling => IsNumeral ((Constant.int n).code spelling)
  | .constant _ (.float x) spelling => IsNumeral ((Constant.float x).code spelling)
  | _ => True

/-- A reference is spelled as the expression is. -/
theorem spelled_of_reading {job : Job} {t : Tracker} {label : String} {e : Expr} {r : Reading}
    (spelled : e.Spelled) (h : job.reading t label e = .ok r) : r.operand.Spelled := by
  obtain ⟨_, -, h⟩ := exists_ok_of_bind h
  cases e with
  | name place name =>
    obtain ⟨_, -, h⟩ := exists_ok_of_bind h
    split at h <;> (cases h; exact spelled)
  | member place object field optional =>
    cases object with
    | this =>
      obtain ⟨_, -, h⟩ := exists_ok_of_bind h
      cases h
      exact spelled
    | name place' item =>
      dsimp only at h
      split at h
      · cases h
      obtain ⟨_, -, h⟩ := exists_ok_of_bind h
      split at h
      · cases h
        exact spelled
      · cases h
    | _ => cases h
  | _ => cases h

theorem plain_of_functionFor {job : Job} {k : Cursor} {field : String} {array : Option String}
    {e : Expr} {function : Option String} (h : job.functionFor k field array e = .ok function) :
    ∀ name ∈ function, Plain name := by
  obtain ⟨resolution, -, h⟩ := exists_ok_of_bind h
  cases h
  intro name hname
  cases hpolicy : resolution.policy <;> rw [hpolicy] at hname <;> cases hname <;> decide

theorem IsNumeral.passage {s : String} (h : IsNumeral s) : Passage true s true := by
  obtain ⟨plain, begins⟩ := h
  refine .plain plain ?_
  cases hs : s.toList with
  | nil => rfl
  | cons c cs =>
    rw [hs] at begins
    exact goesOn_eq_false begins

/-- A constant in code. -/
theorem passage_constant {place : Text.Place} {v : Constant} {spelling : String}
    (spelled : (Expr.constant place v spelling).Spelled) :
    Passage true (v.code spelling) true := by
  cases v with
  | null => exact (by decide : Passage true "null" true)
  | bool value =>
    cases value with
    | true => exact (by decide : Passage true "true" true)
    | false => exact (by decide : Passage true "false" true)
  | int n => exact IsNumeral.passage spelled
  | float x => exact IsNumeral.passage spelled
  | text content => exact passage_ofText content
  | halves points => exact passage_ofText (Constant.joined points)

theorem passage_operator {operator : String}
    (h : (Script.Reader.operatorLevel? operator).isSome = true) :
    Passage true (" " ++ operator ++ " ") true := by
  unfold Script.Reader.operatorLevel? at h
  split at h
  all_goals first | decide | cases h

/-- The value that determines how many stars are full. -/
theorem spelled_of_ratingOperand {job : Job} {t : Tracker} {label item : String}
    {arguments : List Expr} {rating : Operand} (spelled : ∀ e ∈ arguments, e.Spelled)
    (plain : Plain item) (h : job.ratingOperand t label item arguments = .ok rating) :
    rating.Spelled := by
  unfold Job.ratingOperand at h
  split at h
  · obtain ⟨r, hr, h⟩ := exists_ok_of_bind h
    cases h
    exact spelled_of_reading (spelled _ (List.mem_singleton_self _)) hr
  · obtain ⟨r, hr, h⟩ := exists_ok_of_bind h
    cases h
    exact spelled_of_reading (spelled _ (List.mem_singleton_self _)) hr
  · cases h
    exact plain

end ServerTemplate

import ServerTemplate.Proofs.Emission.Step
import ServerTemplate.Proofs.Scope.Moves
import ServerTemplate.Proofs.Text.Lower

/-!
# The function that escapes a read

`Expr.reference?` is how generated code refers to the value that an expression reads, and
`Declaration.Escapes` says through which function the value must be written: in an attribute that of
the attribute, whatever is declared, and elsewhere that of the declared policy. Where the scopes are
sound the two say what a read is converted to (`Job.echo_of_echoOf`, `Job.escapes_of_echoOf`), and
why it may not be converted (`Job.echoOf_eq_error`).
-/

namespace ServerTemplate

/-- How generated code refers to the value that an expression reads. -/
def Expr.reference? : Expr → Option Operand
  | .member _ (.this _) field _ => some (.var field)
  | .member _ (.name _ item) field _ => if field = "length" then none else some (.field item field)
  | .name _ value => some (.var value)
  | _ => none

namespace Declaration

/-- The policy declared for the value that an expression reads: that of the parameter; of the array
whose items a loop goes through, for a whole item; or of the field of these items. -/
def policyOf (d : Declaration) (t : Tracker) : Expr → Option EscapePolicy
  | .member _ (.this _) parameter _ => d.declaredPolicy? parameter none
  | .member _ (.name _ item) field _ =>
    (t.loopArray? item).bind fun array => d.declaredPolicy? field (some array)
  | .name _ name => d.declaredPolicy? ((t.loopArray? name).getD name) none
  | _ => none

/-- The name of an attribute, without the marks that bind a property, a flag or an event, names an
address. -/
def IsAddress (attrName : String) : Prop :=
  Text.lower (String.ofList (attrName.toList.dropWhile fun c => c == '.' || c == '?' || c == '@')) ∈
    addressAttributes

/-- The function through which the value of an expression must be written at a place, if any. -/
inductive Escapes (d : Declaration) (t : Tracker) (k : Cursor) (e : Expr) : Option String → Prop
  /-- In an attribute that holds an address. -/
  | address (inside : k.inAttribute = true) (address : IsAddress k.attr) :
      Escapes d t k e (some "esc_url")
  /-- In any other attribute. -/
  | positional (inside : k.inAttribute = true) (noAddress : ¬ IsAddress k.attr) :
      Escapes d t k e (some "esc_attr")
  /-- Outside attributes. -/
  | html (outside : k.inAttribute = false) (declared : d.policyOf t e = some .html) :
      Escapes d t k e (some "esc_html")
  | url (outside : k.inAttribute = false) (declared : d.policyOf t e = some .url) :
      Escapes d t k e (some "esc_url")
  | attr (outside : k.inAttribute = false) (declared : d.policyOf t e = some .attr) :
      Escapes d t k e (some "esc_attr")
  | script (outside : k.inAttribute = false) (declared : d.policyOf t e = some .script) :
      Escapes d t k e (some "esc_js")
  | raw (outside : k.inAttribute = false) (declared : d.policyOf t e = some .raw) :
      Escapes d t k e none

/-- The comparison of attributes in lower case of the ASCII letters loses nothing. -/
theorem isAddress_iff (attrName : String) :
    IsAddress attrName ↔ bareAttribute attrName ∈ addressAttributes := by
  have same (word : String) (s : String)
      (h : (word.toList.all fun c => decide (c.toNat < 0x80 ∧ c ≠ 'k')) = true) :=
    Text.lower_eq_iff_asciiLower_eq (by simpa using h) s
  simp only [IsAddress, bareAttribute, addressAttributes, List.mem_cons, List.not_mem_nil, or_false]
  rw [same "href" _ (by decide), same "src" _ (by decide), same "action" _ (by decide)]

/-- A policy is chosen as `Escapes` says, if one is declared for the value or none is needed. -/
theorem escapes_of_resolve {d : Declaration} {t : Tracker} {k : Cursor} {e : Expr} {field : String}
    {array : Option String} {line : Option Int} {resolution : Resolution}
    (declared : d.policyOf t e = d.declaredPolicy? field array)
    (h : d.resolve field k.attributeName? array line = .ok resolution) :
    d.Escapes t k e resolution.policy.function? := by
  unfold resolve Cursor.attributeName? at h
  cases inside : k.inAttribute with
  | true =>
    simp only [inside, if_true, Except.ok.injEq] at h
    subst h
    -- inside an attribute its name alone decides, and the declared policy is not looked at
    unfold attributePolicy
    split
    · rename_i address
      exact .address inside ((isAddress_iff _).mpr (List.contains_iff_mem.mp address))
    · rename_i noAddress
      refine .positional inside fun address => noAddress ?_
      exact List.contains_iff_mem.mpr ((isAddress_iff _).mp address)
  | false =>
    simp only [inside, Bool.false_eq_true, if_false] at h
    cases policy : d.declaredPolicy? field array with
    | none => simp [policy] at h
    | some p =>
      rw [policy] at declared h
      cases h
      cases p with
      | html => exact .html inside declared
      | url => exact .url inside declared
      | attr => exact .attr inside declared
      | script => exact .script inside declared
      | raw => exact .raw inside declared

end Declaration

namespace Job

variable {job : Job} {t : Tracker} {k : Cursor} {label : String} {e : Expr}

/-- A read refers to its value as `reference?` says. -/
theorem reference?_of_reading {r : Reading} (read : e.isRead = true)
    (h : job.reading t label e = .ok r) : e.reference? = some r.operand := by
  unfold reading at h
  obtain ⟨-, -, h⟩ := exists_ok_of_bind h
  cases e with
  | name place name =>
    obtain ⟨-, -, h⟩ := exists_ok_of_bind h
    split at h <;> (cases h; rfl)
  | member place object field optional =>
    cases object with
    | this =>
      obtain ⟨-, -, h⟩ := exists_ok_of_bind h
      cases h
      rfl
    | name place' item =>
      have plain : field ≠ "length" := by simpa [Expr.isRead] using read
      dsimp only at h
      split at h
      · cases h
      obtain ⟨-, -, h⟩ := exists_ok_of_bind h
      split at h
      · cases h
        exact if_neg plain
      · cases h
    | _ => cases read
  | _ => cases read

/-- The policy that applies to a read is the one declared for its value. -/
theorem policyOf_of_reading {r : Reading} (sound : t.Sound) (read : e.isRead = true)
    (h : job.reading t label e = .ok r) (d : Declaration) :
    d.policyOf t e = d.declaredPolicy? r.field r.array := by
  unfold reading at h
  obtain ⟨-, -, h⟩ := exists_ok_of_bind h
  cases e with
  | name place name =>
    obtain ⟨-, -, h⟩ := exists_ok_of_bind h
    rw [sound.filter_bindingFrame?] at h
    -- a name of a loop is the item of its frame, and any other is a parameter
    cases loop : t.loopFrame? name with
    | none =>
      rw [loop] at h
      cases h
      rw [Declaration.policyOf, Tracker.loopArray?, loop]
      rfl
    | some frame =>
      obtain ⟨array, harray, hloop⟩ := sound.loopArray?_of_loopFrame? loop
      rw [loop] at h
      cases h
      rw [Declaration.policyOf, hloop, harray]
  | member place object field optional =>
    cases object with
    | this =>
      obtain ⟨-, -, h⟩ := exists_ok_of_bind h
      cases h
      rfl
    | name place' item =>
      dsimp only at h
      split at h
      · cases h
      obtain ⟨-, -, h⟩ := exists_ok_of_bind h
      rw [sound.filter_bindingFrame?] at h
      cases loop : t.loopFrame? item with
      | none =>
        rw [loop] at h
        cases h
      | some frame =>
        obtain ⟨array, harray, hloop⟩ := sound.loopArray?_of_loopFrame? loop
        rw [loop] at h
        cases h
        rw [Declaration.policyOf, hloop, harray]
        rfl
    | _ => cases read
  | _ => cases read

/-- A read is echoed with its reference. -/
theorem echo_of_echoOf {piece : Piece} (read : e.isRead = true)
    (h : job.echoOf t k label e = .ok piece) :
    ∃ reference function, piece = .echo reference function ∧ e.reference? = some reference := by
  obtain ⟨r, hr, h⟩ := exists_ok_of_bind h
  obtain ⟨function, -, h⟩ := exists_ok_of_bind h
  cases h
  exact ⟨_, _, rfl, reference?_of_reading read hr⟩

/-- A read is echoed through the function that `Escapes` names. -/
theorem escapes_of_echoOf {reference : Operand} {function : Option String} (sound : t.Sound)
    (read : e.isRead = true) (h : job.echoOf t k label e = .ok (.echo reference function)) :
    job.declaration.Escapes t k e function := by
  obtain ⟨r, hr, h⟩ := exists_ok_of_bind h
  obtain ⟨function, hf, h⟩ := exists_ok_of_bind h
  obtain ⟨resolution, hresolve, hf⟩ := exists_ok_of_bind hf
  cases hf
  cases h
  exact Declaration.escapes_of_resolve (policyOf_of_reading sound read hr _) hresolve

/-- Outside attributes a read without a declared policy is not echoed: its name, its loop or its
policy is missing. -/
theorem echoOf_eq_error (sound : t.Sound) (read : e.isRead = true) (outside : k.inAttribute = false)
    (missing : job.declaration.policyOf t e = none) :
    ∃ d, job.echoOf t k label e = .error d ∧
      (job.reading t label e = .error d ∨ ∃ r, job.reading t label e = .ok r ∧
        d = ⟨.noPolicy r.field (job.declaration.policyPath r.field r.array),
          { component := some job.declaration.title, line := some e.place.line }⟩) := by
  cases hr : job.reading t label e with
  | error d =>
    refine ⟨d, ?_, .inl rfl⟩
    rw [echoOf, hr]
    rfl
  | ok r =>
    rw [policyOf_of_reading sound read hr] at missing
    refine ⟨_, ?_, .inr ⟨r, rfl, rfl⟩⟩
    rw [echoOf, hr]
    simp [functionFor, Declaration.resolve, Cursor.attributeName?, outside, missing, bind,
      Except.bind]

end Job

end ServerTemplate

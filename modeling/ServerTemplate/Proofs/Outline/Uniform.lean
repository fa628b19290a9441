import ServerTemplate.Proofs.Markup.Alike
import ServerTemplate.Proofs.Outline.Reference

/-!
# What a translation does not depend on

The labels that a translation is given are there for messages alone, and of a cursor it asks the
attribute only. So with other labels, and from a cursor that stays in a relation by which the
attributes are the same, an expression has the same translation or none
(`Job.matching_outlineOf`). Such relations are equality and `Cursor.Alike`.

`Matching R` relates two results; it is carried along a translation by `Matching.bind`.
-/

namespace ServerTemplate

/-- Two results that are both values, which are related, or both diagnostics. -/
inductive Matching {α β : Type} (R : α → β → Prop) :
    Except Diagnostic α → Except Diagnostic β → Prop
  | ok {a : α} {b : β} (related : R a b) : Matching R (.ok a) (.ok b)
  | error (d d' : Diagnostic) : Matching R (.error d) (.error d')

namespace Matching

variable {α β γ δ : Type} {R : α → β → Prop} {S : γ → δ → Prop}

/-- What is done with related values leads to related results. -/
theorem bind {x : Except Diagnostic α} {y : Except Diagnostic β} {f : α → Except Diagnostic γ}
    {g : β → Except Diagnostic δ} (h : Matching R x y)
    (hfg : ∀ a b, R a b → Matching S (f a) (g b)) : Matching S (x >>= f) (y >>= g) := by
  cases h with
  | ok related => exact hfg _ _ related
  | error d d' => exact .error d d'

theorem mono {R' : α → β → Prop} {x : Except Diagnostic α} {y : Except Diagnostic β}
    (h : Matching R x y) (weaker : ∀ a b, R a b → R' a b) : Matching R' x y := by
  cases h with
  | ok related => exact .ok (weaker _ _ related)
  | error d d' => exact .error d d'

theorem refl {R : α → α → Prop} (h : ∀ a, R a a) (x : Except Diagnostic α) : Matching R x x := by
  cases x with
  | ok a => exact .ok (h a)
  | error d => exact .error d d

/-- Where the values are the same, the first result may be used for the second. -/
theorem bind_eq {x y : Except Diagnostic α} {f : α → Except Diagnostic γ}
    {g : α → Except Diagnostic δ} (h : Matching Eq x y) (hfg : ∀ a, Matching S (f a) (g a)) :
    Matching S (x >>= f) (y >>= g) :=
  h.bind fun a _ hab => hab ▸ hfg a

theorem toOption_eq {x y : Except Diagnostic α} (h : Matching Eq x y) :
    x.toOption = y.toOption := by
  cases h with
  | ok related => exact congrArg some related
  | error d d' => rfl

end Matching

/-- A relation that related cursors keep over texts and values, and by which they name the same
attribute. -/
structure Cursor.Lasting (R : Cursor → Cursor → Prop) : Prop where
  feed {k k' : Cursor} (h : R k k') (cs : List Char) : R (k.feed cs) (k'.feed cs)
  interpolated {k k' : Cursor} (h : R k k') : R k.interpolated k'.interpolated
  attributeName? {k k' : Cursor} (h : R k k') : k.attributeName? = k'.attributeName?

theorem Cursor.lasting_eq : Lasting Eq where
  feed h cs := congrArg (feed · cs) h
  interpolated h := congrArg Cursor.interpolated h
  attributeName? h := congrArg Cursor.attributeName? h

theorem Cursor.lasting_alike : Lasting Alike where
  feed h cs := h.feed cs
  interpolated h := h.interpolated
  attributeName? h := h.attributeName?

/-- The same outline, and related cursors behind it. -/
def SameOutline (R : Cursor → Cursor → Prop) (r r' : Outline × Cursor) : Prop :=
  r.1 = r'.1 ∧ R r.2 r'.2

namespace Job

variable {job : Job} {loops : Loops} {label label' : String} {e : Expr} {k k' : Cursor}
  {R : Cursor → Cursor → Prop}

/-! ### Names, values and policies -/

theorem matching_requireSeen {name : String} :
    Matching Eq (job.requireSeen loops e name label) (job.requireSeen loops e name label') := by
  unfold requireSeen
  split
  · exact .ok rfl
  · exact .error _ _

theorem matching_plain : Matching Eq (job.plain label e) (job.plain label' e) := by
  unfold plain
  split
  · exact .error _ _
  · exact .ok rfl

theorem matching_plainOwner : Matching Eq (job.plainOwner label e) (job.plainOwner label' e) := by
  unfold plainOwner
  split
  · exact matching_plain
  · exact .ok rfl

theorem matching_readingIn :
    Matching Eq (job.readingIn loops label e) (job.readingIn loops label' e) := by
  unfold readingIn
  refine matching_plain.bind_eq fun _ => ?_
  split
  · exact matching_requireSeen.bind_eq fun _ => .ok rfl
  · by_cases hempty : loops = []
    · rw [if_pos hempty, if_pos hempty]
      exact .error _ _
    · rw [if_neg hempty, if_neg hempty]
      refine matching_requireSeen.bind_eq fun _ => ?_
      split
      · exact .ok rfl
      · exact .error _ _
  · exact matching_requireSeen.bind_eq fun _ => .ok rfl
  · exact .error _ _

theorem matching_accessIn :
    Matching Eq (job.accessIn loops label e) (job.accessIn loops label' e) := by
  unfold accessIn
  refine matching_plain.bind_eq fun _ => ?_
  split
  · exact matching_readingIn.bind_eq fun _ => .ok rfl
  · split
    · exact matching_readingIn.bind_eq fun _ => .ok rfl
    · exact matching_readingIn.bind_eq fun _ => .ok rfl
  · exact matching_readingIn.bind_eq fun _ => .ok rfl

theorem matching_ratingIn {item : String} {arguments : List Expr} :
    Matching Eq (job.ratingIn loops label item arguments)
      (job.ratingIn loops label' item arguments) := by
  unfold ratingIn
  split
  · exact matching_readingIn.bind_eq fun _ => .ok rfl
  · exact matching_readingIn.bind_eq fun _ => .ok rfl
  · exact .ok rfl

/-- The function for a value depends on the attribute in which the value stands. -/
theorem functionFor_congr (h : k.attributeName? = k'.attributeName?) (field : String)
    (array : Option String) (e : Expr) :
    job.functionFor k field array e = job.functionFor k' field array e := by
  rw [functionFor, functionFor, h]

theorem matching_functionFor (h : k.attributeName? = k'.attributeName?) {field : String}
    {array : Option String} :
    Matching Eq (job.functionFor k field array e) (job.functionFor k' field array e) := by
  rw [functionFor_congr h]
  exact .refl (fun _ => rfl) _

theorem matching_accessAt (h : k.attributeName? = k'.attributeName?) {a : Access} :
    Matching Eq (job.accessAt k e a) (job.accessAt k' e a) := by
  cases a with
  | value r => exact (matching_functionFor h).bind_eq fun _ => .ok rfl
  | count operand => exact .ok rfl

theorem matching_helperAt (h : k.attributeName? = k'.attributeName?) {name : String}
    {arguments : List Expr} :
    Matching Eq (job.helperAt loops k label e name arguments)
      (job.helperAt loops k' label' e name arguments) := by
  unfold helperAt
  split
  · exact matching_requireSeen.bind_eq fun _ => (matching_functionFor h).bind_eq fun _ => .ok rfl
  split
  · exact .ok rfl
  split
  · exact .error _ _
  · exact matching_ratingIn.bind_eq fun _ => .ok rfl

theorem matching_loopHeadIn {array : String} {item? : Option String} :
    Matching Eq (job.loopHeadIn loops label e array item?)
      (job.loopHeadIn loops label' e array item?) := by
  refine matching_requireSeen.bind_eq fun _ => ?_
  split
  · exact .error _ _
  · split
    · exact .error _ _
    · exact .ok rfl

/-! ### Expressions -/

theorem matching_operandOf :
    ∀ label', Matching Eq (job.operandOf loops label e) (job.operandOf loops label' e) := by
  induction label, e using operandOf.induct with
  | case1 | case2 =>
    intro label'
    rw [operandOf, operandOf]
    exact matching_accessIn.bind_eq fun _ => .ok rfl
  | case3 =>
    intro label'
    rw [operandOf, operandOf]
    exact .ok rfl
  | case4 label place inner ih =>
    intro label'
    rw [operandOf, operandOf]
    exact (ih _).bind_eq fun _ => .ok rfl
  | case5 label place operator left right hl hr | case6 label place operator left right hl hr =>
    intro label'
    rw [operandOf, operandOf]
    exact (hl _).bind_eq fun _ => (hr _).bind_eq fun _ => .ok rfl
  | case7 label place test consequent alternate ht hc ha =>
    intro label'
    rw [operandOf, operandOf]
    exact (ht _).bind_eq fun _ => (hc _).bind_eq fun _ => (ha _).bind_eq fun _ => .ok rfl
  | case9 label place callee arguments =>
    intro label'
    rw [operandOf, operandOf]
    refine matching_plain.bind_eq fun _ => matching_plainOwner.bind_eq fun _ => ?_
    split <;> exact .error _ _
  | case8 | case10 | case11 | case12 | case13 =>
    intro label'
    rw [operandOf, operandOf]
    exact .error _ _

end Job

/-- Related cursors are related behind texts. -/
theorem Outline.sameOutline_ofTexts {R : Cursor → Cursor → Prop} (lasting : Cursor.Lasting R)
    {k k' : Cursor} (h : R k k') (texts : List String) :
    SameOutline R (Outline.ofTexts k texts) (Outline.ofTexts k' texts) := by
  induction texts generalizing k k' with
  | nil => exact ⟨rfl, h⟩
  | cons content texts ih =>
    obtain ⟨same, related⟩ := ih (lasting.feed h content.toList)
    refine ⟨?_, related⟩
    rw [Outline.ofTexts, Outline.ofTexts, same]

namespace Job

/-- An expression has the same translation under every label and from every related cursor. So have
the parts of a template, with every numbering of the holes. -/
theorem matching_outlineOf (job : Job) (lasting : Cursor.Lasting R) :
    (∀ loops rendered label k e, ∀ label' k', R k k' →
      Matching (SameOutline R) (job.outlineOf loops rendered label k e)
        (job.outlineOf loops rendered label' k' e)) ∧
    ∀ loops front index k holes texts, ∀ front' index' k', R k k' →
      Matching (SameOutline R) (job.partsOf loops front index k holes texts)
        (job.partsOf loops front' index' k' holes texts) := by
  -- one case for each equation of the reference translation
  refine outlineOf.mutual_induct job _ _ ?name ?member ?text ?word ?group ?rendered ?foreign
    ?skipped ?binary ?guard ?operator ?conditional ?call ?this ?arrow ?template ?other ?nil ?lacking
    ?cons
  case name | member =>
    intros
    rename_i related
    rw [outlineOf, outlineOf]
    exact matching_accessIn.bind_eq fun _ =>
      (matching_accessAt (lasting.attributeName? related)).bind_eq fun _ =>
      .ok ⟨rfl, related⟩
  case text =>
    intro _ _ _ _ _ _ _ content htext _ _ related
    rw [outlineOf, outlineOf, htext]
    exact .ok ⟨rfl, lasting.feed related content.toList⟩
  case word =>
    intro _ _ _ _ _ _ _ hword _ _ _
    rw [outlineOf, outlineOf, hword]
    exact .error _ _
  case group =>
    intro _ _ _ _ _ _ ih label' k' related
    rw [outlineOf, outlineOf]
    exact ih label' k' related
  case rendered =>
    intro _ _ _ _ _ _ _ _ _ hrendered ih label' k' related
    rw [outlineOf, outlineOf, if_pos hrendered, if_pos hrendered]
    exact ih _ _ k' related
  case foreign =>
    intro _ _ _ _ _ _ _ _ _ hskipped htag _ _ _
    rw [outlineOf, outlineOf, if_neg hskipped, if_neg hskipped, if_pos htag, if_pos htag]
    exact .error _ _
  case skipped =>
    intro _ _ _ _ _ _ _ _ _ hskipped htag _ _ related
    rw [outlineOf, outlineOf, if_neg hskipped, if_neg hskipped, if_neg htag, if_neg htag]
    exact .ok ⟨rfl, related⟩
  case guard =>
    intro _ _ _ _ _ _ _ _ hmarkup ih label' k' related
    rw [outlineOf, outlineOf, if_pos hmarkup, if_pos hmarkup]
    refine (matching_operandOf _).bind_eq fun _ => (ih _ k' related).bind ?_
    rintro ⟨o, i⟩ ⟨o', i'⟩ ⟨rfl, related⟩
    exact .ok ⟨rfl, related⟩
  case operator =>
    intro _ _ _ _ _ _ _ _ hmarkup _ _ _
    rw [outlineOf, outlineOf, if_neg hmarkup, if_neg hmarkup]
    exact .error _ _
  case conditional =>
    intro _ _ _ _ _ _ _ _ hthen helse label' k' related
    rw [outlineOf, outlineOf]
    refine (matching_operandOf _).bind_eq fun _ => (hthen _ k' related).bind ?_
    rintro ⟨o, i⟩ ⟨o', i'⟩ ⟨rfl, same⟩
    dsimp only
    split
    · exact .ok ⟨rfl, same⟩
    -- both branches begin where the conditional does
    · refine (helse _ k' related).bind ?_
      rintro ⟨o', j⟩ ⟨_, j'⟩ ⟨rfl, same⟩
      exact .ok ⟨rfl, same⟩
  case call =>
    intro _ _ _ _ _ callee arguments ih label' k' related
    rw [outlineOf, outlineOf]
    refine matching_plain.bind_eq fun _ => matching_plainOwner.bind_eq fun _ => ?_
    split
    · exact .error _ _
    · exact (matching_helperAt (lasting.attributeName? related)).bind_eq fun _ => .ok ⟨rfl, related⟩
    · rename_i array _
      split
      · refine matching_loopHeadIn.bind_eq fun _ => (ih array _ k' related).bind ?_
        rintro ⟨o, i⟩ ⟨o', i'⟩ ⟨rfl, same⟩
        exact .ok ⟨rfl, same⟩
      · exact matching_loopHeadIn.bind_eq fun _ => .ok ⟨rfl, related⟩
  case binary | this | arrow | template | other =>
    intros
    rw [outlineOf, outlineOf]
    exact .error _ _
  case nil =>
    intro _ _ _ _ texts _ _ _ related
    rw [partsOf, partsOf]
    exact .ok (Outline.sameOutline_ofTexts lasting related texts)
  case lacking =>
    intro _ _ _ _ _ _ _ _ _ related
    rw [partsOf, partsOf]
    exact .ok ⟨rfl, related⟩
  case cons =>
    intro _ _ _ _ _ _ content _ hhole hrest front' index' k' related
    rw [partsOf, partsOf]
    refine (hhole _ _ (lasting.feed related content.toList)).bind ?_
    rintro ⟨o, i⟩ ⟨o', i'⟩ ⟨rfl, same⟩
    refine (hrest i front' (index' + 1) i'.interpolated (lasting.interpolated same)).bind ?_
    rintro ⟨o', j⟩ ⟨_, j'⟩ ⟨rfl, same⟩
    exact .ok ⟨rfl, same⟩

end Job

end ServerTemplate

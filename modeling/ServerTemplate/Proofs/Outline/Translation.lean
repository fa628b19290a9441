import ServerTemplate.Proofs.Outline.Reference

/-!
# Induction on successful translations

What holds of a translated expression is proved along the equations of `Job.outlineOf`, and most of
each case only takes the equation apart: the checks have passed, and the parts are translated.
`Job.Translates P Q` lists what is left of the cases, and `Job.Translates.induct` is the induction.
-/

namespace ServerTemplate

/-- Every equation of the reference translation keeps `P`, which speaks of expressions with the
cursors before and behind them, and `Q`, which speaks of the parts of a template. -/
structure Job.Translates (job : Job) (P : Loops → Bool → Cursor → Expr → Outline → Cursor → Prop)
    (Q : Loops → Cursor → List Expr → List String → Outline → Cursor → Prop) : Prop where
  name {loops : Loops} {rendered : Bool} {label : String} {k : Cursor} {place : Text.Place}
    {name : String} {a : Job.Access} {o : Outline}
    (access : job.accessIn loops label (.name place name) = .ok a)
    (outline : job.accessAt k (.name place name) a = .ok o) :
    P loops rendered k (.name place name) o k
  member {loops : Loops} {rendered : Bool} {label : String} {k : Cursor} {place : Text.Place}
    {object : Expr} {name : String} {optional : Bool} {a : Job.Access} {o : Outline}
    (access : job.accessIn loops label (.member place object name optional) = .ok a)
    (outline : job.accessAt k (.member place object name optional) a = .ok o) :
    P loops rendered k (.member place object name optional) o k
  text {loops : Loops} {rendered : Bool} {k : Cursor} {place : Text.Place} {v : Constant}
    {spelling content : String} (text : v.text? spelling = some content) :
    P loops rendered k (.constant place v spelling) (.text content) (k.feed content.toList)
  group {loops : Loops} {rendered : Bool} {k k' : Cursor} {place : Text.Place} {inner : Expr}
    {o : Outline} (ih : P loops rendered k inner o k') :
    P loops rendered k (.group place inner) o k'
  rendered {loops : Loops} {k k' : Cursor} {place templatePlace : Text.Place} {tag : String}
    {texts : List String} {holes : List Expr} {o : Outline} (tag_eq : tag = job.tag)
    (ih : Q loops k holes texts o k') :
    P loops true k (.tagged place tag templatePlace texts holes) o k'
  skipped {loops : Loops} {rendered : Bool} {k : Cursor} {place templatePlace : Text.Place}
    {tag : String} {texts : List String} {holes : List Expr}
    (skipped : ¬ (rendered = true ∧ tag = job.tag)) :
    P loops rendered k (.tagged place tag templatePlace texts holes) .empty k
  guard {loops : Loops} {rendered : Bool} {label : String} {k k' : Cursor} {place : Text.Place}
    {operator : String} {left right : Expr} {test : List Piece} {body : Outline}
    (operand : job.operandOf loops label left = .ok test) (ih : P loops true k right body k') :
    P loops rendered k (.logical place operator left right) (.guard test body) k'
  taken {loops : Loops} {rendered : Bool} {label : String} {k k' : Cursor} {place : Text.Place}
    {e consequent alternate : Expr} {test : List Piece} {first : Outline}
    (operand : job.operandOf loops label e = .ok test) (empty : alternate.isEmptyText = true)
    (ih : P loops true k consequent first k') :
    P loops rendered k (.conditional place e consequent alternate) (.guard test first) k'
  conditional {loops : Loops} {rendered : Bool} {label : String} {k k₁ k₂ : Cursor}
    {place : Text.Place} {e consequent alternate : Expr} {test : List Piece}
    {first second : Outline} (operand : job.operandOf loops label e = .ok test)
    (nonempty : alternate.isEmptyText = false) (ih₁ : P loops true k consequent first k₁)
    (ih₂ : P loops true k alternate second k₂) :
    P loops rendered k (.conditional place e consequent alternate) (.branch test first second) k₂
  helper {loops : Loops} {rendered : Bool} {label : String} {k : Cursor} {place : Text.Place}
    {callee : Expr} {name : String} {arguments : List Expr} {o : Outline}
    (shape : CallShape.of? callee = some (.helper name))
    (outline : job.helperAt loops k label (.call place callee arguments) name arguments = .ok o) :
    P loops rendered k (.call place callee arguments) o k
  loop {loops : Loops} {rendered : Bool} {label : String} {k k' : Cursor}
    {place place' : Text.Place} {callee body : Expr} {array item : String} {inner : Outline}
    (shape : CallShape.of? callee = some (.loop array))
    (head : job.loopHeadIn loops label (.call place callee [.arrow place' [item] body]) array
      (some item) = .ok ())
    (ih : P ((item, array) :: loops) true k body inner k') :
    P loops rendered k (.call place callee [.arrow place' [item] body]) (.loop array item inner) k'
  nil {loops : Loops} {k : Cursor} {texts : List String} :
    Q loops k [] texts (Outline.ofTexts k texts).1 (Outline.ofTexts k texts).2
  lacking {loops : Loops} {k : Cursor} {e : Expr} {holes : List Expr} :
    Q loops k (e :: holes) [] .empty k
  cons {loops : Loops} {k k₁ k₂ : Cursor} {e : Expr} {holes : List Expr} {content : String}
    {texts : List String} {inner rest : Outline}
    (ih : P loops false (k.feed content.toList) e inner k₁)
    (ihs : Q loops k₁.interpolated holes texts rest k₂) :
    Q loops k (e :: holes) (content :: texts) (.seq (.text content) (.seq (.hole inner) rest)) k₂

/-- What every equation keeps holds of every successful translation. -/
theorem Job.Translates.induct {job : Job}
    {P : Loops → Bool → Cursor → Expr → Outline → Cursor → Prop}
    {Q : Loops → Cursor → List Expr → List String → Outline → Cursor → Prop}
    (cases : job.Translates P Q) :
    (∀ loops rendered label k e, ∀ o k', job.outlineOf loops rendered label k e = .ok (o, k') →
      P loops rendered k e o k') ∧
    ∀ loops front index k holes texts, ∀ o k',
      job.partsOf loops front index k holes texts = .ok (o, k') →
        Q loops k holes texts o k' := by
  refine outlineOf.mutual_induct job _ _ ?name ?member ?text ?word ?group ?rendered ?foreign
    ?skipped ?binary ?guard ?operator ?conditional ?call ?this ?arrow ?template ?other ?nil ?lacking
    ?cons
  case name =>
    intro _ _ _ _ _ _ _ _ h
    rw [outlineOf] at h
    obtain ⟨a, access, h⟩ := exists_ok_of_bind h
    obtain ⟨o, outline, h⟩ := exists_ok_of_bind h
    cases h
    exact cases.name access outline
  case member =>
    intro _ _ _ _ _ _ _ _ _ _ h
    rw [outlineOf] at h
    obtain ⟨a, access, h⟩ := exists_ok_of_bind h
    obtain ⟨o, outline, h⟩ := exists_ok_of_bind h
    cases h
    exact cases.member access outline
  case text =>
    intro _ _ _ _ _ _ _ content htext _ _ h
    rw [outlineOf, htext] at h
    cases h
    exact cases.text htext
  case word =>
    intro _ _ _ _ _ _ _ hword _ _ h
    rw [outlineOf, hword] at h
    cases h
  case group =>
    intro _ _ _ _ _ _ ih _ _ h
    rw [outlineOf] at h
    exact cases.group (ih _ _ h)
  case rendered =>
    rintro _ _ _ _ _ _ _ _ _ ⟨rfl, htag⟩ ih _ _ h
    rw [outlineOf, if_pos ⟨rfl, htag⟩] at h
    exact cases.rendered htag (ih _ _ h)
  case foreign =>
    intro _ _ _ _ _ _ _ _ _ hskipped htag _ _ h
    rw [outlineOf, if_neg hskipped, if_pos htag] at h
    cases h
  case skipped =>
    intro _ _ _ _ _ _ _ _ _ hskipped htag _ _ h
    rw [outlineOf, if_neg hskipped, if_neg htag] at h
    cases h
    exact cases.skipped hskipped
  case guard =>
    intro _ _ _ _ _ _ _ _ hmarkup ih _ _ h
    rw [outlineOf, if_pos hmarkup] at h
    obtain ⟨test, operand, h⟩ := exists_ok_of_bind h
    obtain ⟨⟨body, _⟩, hbody, h⟩ := exists_ok_of_bind h
    cases h
    exact cases.guard operand (ih _ _ hbody)
  case operator =>
    intro _ _ _ _ _ _ _ _ hmarkup _ _ h
    rw [outlineOf, if_neg hmarkup] at h
    cases h
  case conditional =>
    intro _ _ _ _ _ _ _ _ hthen helse _ _ h
    rw [outlineOf] at h
    obtain ⟨test, operand, h⟩ := exists_ok_of_bind h
    obtain ⟨⟨first, _⟩, hfirst, h⟩ := exists_ok_of_bind h
    dsimp only at h
    split at h
    · rename_i empty
      cases h
      exact cases.taken operand empty (hthen _ _ hfirst)
    · rename_i nonempty
      obtain ⟨⟨second, _⟩, hsecond, h⟩ := exists_ok_of_bind h
      cases h
      exact cases.conditional operand (Bool.eq_false_iff.mpr nonempty) (hthen _ _ hfirst)
        (helse _ _ hsecond)
  case call =>
    intro _ _ _ _ _ _ arguments ih _ _ h
    rw [outlineOf] at h
    obtain ⟨_, _, h⟩ := exists_ok_of_bind h
    obtain ⟨_, _, h⟩ := exists_ok_of_bind h
    split at h
    · cases h
    · rename_i name shape
      obtain ⟨o, outline, h⟩ := exists_ok_of_bind h
      cases h
      exact cases.helper shape outline
    · rename_i array shape
      have ih := ih array
      split at h
      · obtain ⟨_, head, h⟩ := exists_ok_of_bind h
        obtain ⟨⟨body, _⟩, hbody, h⟩ := exists_ok_of_bind h
        cases h
        exact cases.loop shape head (ih _ _ hbody)
      · -- without a function of one item the head of the loop is refused
        obtain ⟨_, head, _⟩ := exists_ok_of_bind h
        obtain ⟨_, _, head⟩ := exists_ok_of_bind head
        cases head
  case binary | this | arrow | template | other =>
    intros
    rename_i h
    rw [outlineOf] at h
    cases h
  case nil =>
    intro loops _ _ k texts _ _ h
    rw [partsOf] at h
    have ho : Outline.ofTexts k texts = _ := Except.ok.inj h
    have kept : Q loops k [] texts _ _ := cases.nil
    rwa [ho] at kept
  case lacking =>
    intro _ _ _ _ _ _ _ _ h
    rw [partsOf] at h
    cases h
    exact cases.lacking
  case cons =>
    intro _ _ _ _ _ _ _ _ hhole hrest _ _ h
    rw [partsOf] at h
    obtain ⟨⟨inner, k₁⟩, hinner, h⟩ := exists_ok_of_bind h
    obtain ⟨⟨rest, _⟩, hrest', h⟩ := exists_ok_of_bind h
    cases h
    exact cases.cons (hhole _ _ hinner) (hrest k₁ _ _ hrest')

end ServerTemplate

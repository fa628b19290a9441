import ServerTemplate.Proofs.Outline.Conversion
import ServerTemplate.Proofs.Variables.Scoped

/-!
# Which variables are captured

A fragment has one store, and its loops and stars assign variables in it. An assignment captures a
name of the template if the name is still to be read. Loops capture nothing: their items are not
visible around them. Stars capture a parameter or an item that is called like their counter
(`not_meant_counter`), and nothing else (`meant_of_pieces`).
-/

namespace ServerTemplate

variable {V : Type} {w : World V} {Q : String → Prop} {names : List String} {ρ σ σ' : Store V}

/-- Whether no stars are written where a name in scope is that of their counter. -/
def Outline.starsApart (names : List String) : Outline → Bool
  | code (.stars ..) => !names.contains starCounter
  | seq first second => first.starsApart names && second.starsApart names
  | hole content => content.starsApart names
  | guard _ body => body.starsApart names
  | branch _ first second => first.starsApart names && second.starsApart names
  | loop _ item body => body.starsApart (item :: names)
  | _ => true

/-- The names in scope have no dollar signs, and those with `Q` have in the store the values that
they stand for in the template. -/
structure Store.Faithful (Q : String → Prop) (names : List String) (ρ σ : Store V) : Prop where
  plain : ∀ name ∈ names, '$' ∉ name.toList
  agree : ∀ name ∈ names, Q name → σ name = ρ name

/-- Names with `Q` that are read have the values that are meant, and those in scope keep theirs. -/
structure Meant (Q : String → Prop) (names : List String) (σ : Store V)
    (ran : List (Read V) × Store V) : Prop where
  reads : ∀ r ∈ ran.1, Q r.name → r.got = r.meant
  kept : ∀ name ∈ names, Q name → ran.2 name = σ name

namespace Store.Faithful

theorem of_kept (h : Faithful Q names ρ σ) (kept : ∀ name ∈ names, Q name → σ' name = σ name) :
    Faithful Q names ρ σ' where
  plain := h.plain
  agree name hname hQ := (kept name hname hQ).trans (h.agree name hname hQ)

theorem read (h : Faithful Q names ρ σ) {name : String} (hname : name ∈ names) (hQ : Q name) :
    (w.read ρ σ name).got = (w.read ρ σ name).meant := by
  change σ (w.variableOf σ name.toList) = ρ name
  rw [w.variableOf_toList (h.plain name hname), h.agree name hname hQ]

/-- Counting stars changes no name in scope, unless it is that of the counter. -/
theorem count (h : Faithful Q names ρ σ) (apart : Q starCounter → starCounter ∉ names) (v : V) :
    Faithful Q names ρ (σ.assign starCounter v) := by
  refine h.of_kept fun name hname hQ => Store.assign_of_ne σ ?_ v
  rintro rfl
  exact apart hQ hname

/-- An item that is not in scope around its loop stands for the element in the body. -/
theorem enter (h : Faithful Q names ρ σ) {item : String} (plain : '$' ∉ item.toList)
    (fresh : item ∉ names) (v : V) :
    Faithful Q (item :: names) (ρ.assign item v) (σ.assign item v) where
  plain name hname := by
    rcases List.mem_cons.mp hname with rfl | hname
    · exact plain
    · exact h.plain name hname
  agree name hname hQ := by
    rcases List.mem_cons.mp hname with rfl | hname
    · rw [Store.assign_self, Store.assign_self]
    · have ne : name ≠ item := fun same => fresh (same ▸ hname)
      rw [Store.assign_of_ne _ ne, Store.assign_of_ne _ ne, h.agree name hname hQ]

end Store.Faithful

namespace Meant

theorem nil (Q : String → Prop) (names : List String) (σ : Store V) : Meant Q names σ ([], σ) :=
  ⟨nofun, fun _ _ _ => rfl⟩

theorem append {rs rs' : List (Read V)} {σ'' : Store V} (h : Meant Q names σ (rs, σ'))
    (h' : Meant Q names σ' (rs', σ'')) : Meant Q names σ (rs ++ rs', σ'') where
  reads r hr hQ := (List.mem_append.mp hr).elim (h.reads r · hQ) (h'.reads r · hQ)
  kept name hname hQ := (h'.kept name hname hQ).trans (h.kept name hname hQ)

theorem single (h : Store.Faithful Q names ρ σ) {name : String} (hname : name ∈ names) :
    Meant Q names σ ([w.read ρ σ name], σ) where
  reads r hr hQ := by
    rw [List.mem_singleton.mp hr] at hQ ⊢
    exact h.read hname hQ
  kept _ _ _ := rfl

/-- Stars read their rating as it is meant, unless it is called like the counter. -/
theorem stars (h : Store.Faithful Q names ρ σ) (apart : Q starCounter → starCounter ∉ names)
    {number : Int} {rating : Operand} (hrating : rating.variableName ∈ names) :
    Meant Q names σ ((Piece.stars number rating).run w ρ σ) where
  reads r hr hQ := by
    obtain ⟨k, -, rfl⟩ := List.mem_map.mp hr
    exact (h.count apart _).read hrating hQ
  kept name hname hQ := by
    refine Store.assign_of_ne σ ?_ _
    rintro rfl
    exact apart hQ hname

/-- A condition reads what is meant. -/
theorem test (h : Store.Faithful Q names ρ σ) {test : List Piece}
    (hscope : ∀ piece ∈ test, piece.Scoped names) :
    Meant Q names σ (Piece.readAll w ρ σ test, σ) where
  reads r hr hQ := by
    obtain ⟨piece, hpiece, hr⟩ := List.mem_flatMap.mp hr
    cases piece with
    | operand value =>
      have single : Meant Q names σ ([w.read ρ σ value.variableName], σ) :=
        single h (hscope _ hpiece)
      exact single.reads r hr hQ
    | _ => cases hr
  kept _ _ _ := rfl

/-- If the body of a loop reads what is meant for every element, so does the loop. -/
theorem loop {body : V → Store V → List (Read V) × Store V}
    (hbody : ∀ v σ, Store.Faithful Q names ρ σ → Meant Q names σ (body v σ)) (vs : List V)
    (h : Store.Faithful Q names ρ σ) : Meant Q names σ (World.runLoop body vs σ) := by
  induction vs generalizing σ with
  | nil => exact nil Q names σ
  | cons v vs ih =>
    have first := hbody v σ h
    exact first.append (ih (h.of_kept first.kept))

end Meant

/-- A fragment that is scoped reads what is meant, if its counter captures no name with `Q`. -/
theorem Outline.Scoped.meant {o : Outline} (hscope : o.Scoped names)
    (apart : Q starCounter → o.starsApart names = true)
    (plain : ∀ array item, .loopStart array item ∈ o.pieces → '$' ∉ item.toList)
    (h : Store.Faithful Q names ρ σ) : Meant Q names σ (o.run w ρ σ) := by
  induction o generalizing names ρ σ with
  | empty | text => exact .nil Q names σ
  | echo | resultCount => exact .single h hscope
  | code piece =>
    cases piece with
    | echo | operand | resultCount => exact .single h hscope
    | stars number rating =>
      refine .stars h (fun hQ => ?_) hscope
      simpa [starsApart] using apart hQ
    | _ => exact .nil Q names σ
  | seq first second ih₁ ih₂ =>
    have apart₁ : Q starCounter → first.starsApart names = true := fun hQ =>
      (Bool.and_eq_true_iff.mp (apart hQ)).1
    have apart₂ : Q starCounter → second.starsApart names = true := fun hQ =>
      (Bool.and_eq_true_iff.mp (apart hQ)).2
    have ran := ih₁ hscope.1 apart₁ (fun a i hp => plain a i (List.mem_append_left _ hp)) h
    exact ran.append (ih₂ hscope.2 apart₂ (fun a i hp => plain a i (List.mem_append_right _ hp))
      (h.of_kept ran.kept))
  | hole content ih => exact ih hscope apart plain h
  | guard test body ih =>
    have tested : Meant Q names σ (Piece.readAll w ρ σ test, σ) := .test h hscope.1
    rw [run]
    split
    · exact tested.append (ih hscope.2 apart (fun a i hp => plain a i (by simp [pieces, hp])) h)
    · exact tested
  | branch test first second ih₁ ih₂ =>
    have tested : Meant Q names σ (Piece.readAll w ρ σ test, σ) := .test h hscope.1
    rw [run]
    split
    · refine tested.append (ih₁ hscope.2.1 (fun hQ => ?_) (fun a i hp => ?_) h)
      · exact (Bool.and_eq_true_iff.mp (apart hQ)).1
      · exact plain a i (by simp [pieces, hp])
    · refine tested.append (ih₂ hscope.2.2 (fun hQ => ?_) (fun a i hp => ?_) h)
      · exact (Bool.and_eq_true_iff.mp (apart hQ)).2
      · exact plain a i (by simp [pieces, hp])
  | loop array item body ih =>
    obtain ⟨visible, fresh, hbody⟩ := hscope
    have plain_item : '$' ∉ item.toList := plain array item (by simp [pieces])
    have head : Meant Q names σ ([w.read ρ σ array], σ) := .single h visible
    refine head.append (.loop (fun v σ h => ?_) _ h)
    -- the element is assigned to the item, which is not in scope around the loop
    rw [w.variableOf_toList plain_item]
    have ran := ih hbody apart (fun a i hp => plain a i (by simp [pieces, hp]))
      (h.enter plain_item fresh v)
    refine ⟨ran.reads, fun name hname hQ => ?_⟩
    have ne : name ≠ item := fun same => fresh (same ▸ hname)
    rw [ran.kept name (List.mem_cons_of_mem _ hname) hQ, Store.assign_of_ne _ ne]

/-- Whether a piece assigns no item with a dollar sign in its name. -/
def Piece.hasPlainItem : Piece → Bool
  | loopStart _ item => !item.toList.contains '$'
  | _ => true

/-- **Which variables keep their meaning.** Let no name of a parameter or an item have a dollar
sign. In whatever store the fragment of a template without markers runs, every name that it reads
has the value that it stands for in the template, a parameter the one that it had in the beginning
and an item the element of its loop, unless the name is that of the counter of stars; and that one
has it as well, if no stars are written where it is a parameter or the item of a loop around. -/
theorem meant_of_pieces (job : Job) (template : Template) (pieces : List Piece)
    (free : template.MarkerFree job.tag)
    (plain : ∀ name ∈ job.declaration.parameterNames, '$' ∉ name.toList)
    (items : pieces.all Piece.hasPlainItem = true) (h : job.pieces template = .ok pieces) :
    ∃ o, job.outline template = .ok o ∧ pieces = o.pieces ∧
      ∀ (V : Type) (w : World V) (σ : Store V),
        (∀ r ∈ (o.run w σ σ).1, r.name ≠ starCounter → r.got = r.meant) ∧
        (o.starsApart job.declaration.parameterNames = true →
          ∀ r ∈ (o.run w σ σ).1, r.got = r.meant) := by
  have same := job.pieces_eq_map_outline free
  cases ho : job.outline template with
  | error d =>
    rw [same, ho] at h
    cases h
  | ok o =>
    rw [same, ho] at h
    cases h
    have plain_item : ∀ array item, .loopStart array item ∈ o.pieces → '$' ∉ item.toList := by
      intro array item hp
      simpa [Piece.hasPlainItem] using List.all_eq_true.mp items _ hp
    have hscope := job.scoped_outline ho
    refine ⟨o, rfl, rfl, fun V w σ => ⟨?_, fun apart => ?_⟩⟩
    · have start : Store.Faithful (· ≠ starCounter) job.declaration.parameterNames σ σ :=
        ⟨plain, fun _ _ _ => rfl⟩
      exact (hscope.meant (fun ne => (ne rfl).elim) plain_item start).reads
    · have start : Store.Faithful (fun _ => True) job.declaration.parameterNames σ σ :=
        ⟨plain, fun _ _ _ => rfl⟩
      have ran : Meant _ _ _ (o.run w σ σ) := hscope.meant (fun _ => apart) plain_item start
      exact fun r hr => ran.reads r hr trivial

/-- In a list without stars all names keep their meaning. -/
theorem meant_of_pieces_list : ∃ o, listJob.outline listTemplate = .ok o ∧
    listJob.pieces listTemplate = .ok o.pieces ∧
    ∀ (V : Type) (w : World V) (σ : Store V), ∀ r ∈ (o.run w σ σ).1, r.got = r.meant := by
  have free : listTemplate.MarkerFree listJob.tag := by decide +kernel
  have plain : ∀ name ∈ listJob.declaration.parameterNames, '$' ∉ name.toList := by decide +kernel
  have items : ∃ pieces, listJob.pieces listTemplate = .ok pieces ∧
      pieces.all Piece.hasPlainItem = true :=
    exists_ok_of_map_toOption (by decide +kernel)
  have apart : ∃ o, listJob.outline listTemplate = .ok o ∧
      o.starsApart listJob.declaration.parameterNames = true :=
    exists_ok_of_map_toOption (by decide +kernel)
  obtain ⟨pieces, h, items⟩ := items
  obtain ⟨o, ho, apart⟩ := apart
  obtain ⟨o', ho', rfl, meant⟩ := meant_of_pieces listJob listTemplate pieces free plain items h
  cases ho.symm.trans ho'
  exact ⟨o, ho, h, fun V w σ => (meant V w σ).2 apart⟩

/-- A component with items and a parameter that is called like the counter of stars. -/
def counterJob : Job where
  declaration :=
    { name := .str "List"
      parameters := [⟨"items", "array", .null, some .html⟩, ⟨"i", "string", .null, some .html⟩] }
  source := ""
  tag := "html"
  labels := ⟨"none", "one", "many"⟩
  stars := 5

/-- The template `${this.items.map(item => html`${this.renderStars()}`)}${this.i}`. -/
def counterTemplate : Template where
  chunks := ["", "", ""]
  holes :=
    [.call ⟨1, 0⟩ (.member ⟨1, 0⟩ (.member ⟨1, 0⟩ (.this ⟨1, 0⟩) "items" false) "map" false)
      [.arrow ⟨1, 0⟩ ["item"] (.tagged ⟨1, 0⟩ "html" ⟨1, 0⟩ ["", ""]
        [.call ⟨1, 0⟩ (.member ⟨1, 0⟩ (.this ⟨1, 0⟩) "renderStars" false) []])],
    .member ⟨1, 0⟩ (.this ⟨1, 0⟩) "i" false]

/-- A world of numbers, in which every value has itself as its only element. -/
def numberWorld : World Int where
  elements v := [v]
  number n := n
  spelling _ := ""
  holds _ _ := true

/-- The parameter `i` does not keep its meaning: behind the stars of a list it is their number and
one more. -/
theorem not_meant_counter :
    counterTemplate.MarkerFree counterJob.tag ∧
    ∃ o, counterJob.outline counterTemplate = .ok o ∧
      counterJob.pieces counterTemplate = .ok o.pieces ∧
      ∃ r ∈ (o.run numberWorld (fun _ => 0) fun _ => 0).1,
        r.name ∈ counterJob.declaration.parameterNames ∧ r.got = 6 ∧ r.meant = 0 := by
  have free : counterTemplate.MarkerFree counterJob.tag := by decide +kernel
  have captured : ∃ o, counterJob.outline counterTemplate = .ok o ∧
      ((o.run numberWorld (fun _ => 0) fun _ => 0).1.any fun r =>
        counterJob.declaration.parameterNames.contains r.name && r.got == 6 && r.meant == 0) =
      true :=
    exists_ok_of_map_toOption (by decide +kernel)
  obtain ⟨o, ho, captured⟩ := captured
  obtain ⟨r, hr, hcaptured⟩ := List.any_eq_true.mp captured
  simp only [Bool.and_eq_true, List.contains_iff_mem, beq_iff_eq] at hcaptured
  refine ⟨free, o, ho, ?_, r, hr, hcaptured.1.1, hcaptured.1.2, hcaptured.2⟩
  rw [counterJob.pieces_eq_map_outline free, ho]
  rfl

end ServerTemplate

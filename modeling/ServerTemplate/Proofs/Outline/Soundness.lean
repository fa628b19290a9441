import ServerTemplate.Proofs.Outline.Conversion
import ServerTemplate.Proofs.Outline.Paths
import ServerTemplate.Proofs.Outline.Translation

/-!
# Functions of values on all paths

The function of a value is chosen by one cursor, while the fragment runs on many paths. The choice
is right on a path if the function is the one picked at the end of the path (`Job.PathSound`).

It need not be right on all paths (`not_pathSound_openAttribute`): a conditional may open different
attributes in its branches. It is right exactly if no two paths to a value differ in what is picked
there (`pathSound_iff_pathIndependent`), and it is right if every block hands on the place that it
was given.
-/

namespace ServerTemplate

variable {job : Job} {loops : Loops} {e : Expr}

/-- On every path to a value the function of the value is the one picked behind the texts and values
on the path. -/
def Job.PathSound (job : Job) (o : Outline) : Prop :=
  ∀ moves address site, o.Reaches moves address site →
    job.picked site (Cursor.walk {} moves) = .ok site.function

/-- On any two paths to a value the same function is picked for it. -/
def Job.PathIndependent (job : Job) (o : Outline) : Prop :=
  ∀ moves moves' address site, o.Reaches moves address site → o.Reaches moves' address site →
    job.picked site (Cursor.walk {} moves) = job.picked site (Cursor.walk {} moves')

/-! ### What the reference translation chooses -/

theorem Job.chosen_accessAt {k : Cursor} {a : Job.Access} {o : Outline}
    (h : job.accessAt k e a = .ok o) : o.Chosen job k ∧ o.behind k = k := by
  cases a with
  | value r =>
    obtain ⟨function, hfunction, h⟩ := exists_ok_of_bind h
    cases h
    exact ⟨hfunction, rfl⟩
  | count operand =>
    cases h
    exact ⟨trivial, rfl⟩

theorem Job.chosen_helperAt {k : Cursor} {label name : String} {arguments : List Expr} {o : Outline}
    (h : job.helperAt loops k label e name arguments = .ok o) :
    o.Chosen job k ∧ o.behind k = k := by
  unfold helperAt at h
  split at h
  · obtain ⟨_, _, h⟩ := exists_ok_of_bind h
    obtain ⟨function, hfunction, h⟩ := exists_ok_of_bind h
    cases h
    exact ⟨hfunction, rfl⟩
  · split at h
    · cases h
      exact ⟨trivial, rfl⟩
    · split at h
      · cases h
      · obtain ⟨_, _, h⟩ := exists_ok_of_bind h
        cases h
        exact ⟨trivial, rfl⟩

theorem Outline.chosen_ofTexts (job : Job) (k : Cursor) (texts : List String) :
    (Outline.ofTexts k texts).1.Chosen job k ∧
      (Outline.ofTexts k texts).1.behind k = (Outline.ofTexts k texts).2 := by
  induction texts generalizing k with
  | nil => exact ⟨trivial, rfl⟩
  | cons content texts ih =>
    obtain ⟨chosen, behind⟩ := ih (k.feed content.toList)
    exact ⟨⟨trivial, chosen⟩, behind⟩

/-- Every equation picks the functions at the cursor of the converter and leads to the cursor behind
its outline. -/
theorem Job.translates_chosen (job : Job) :
    job.Translates (fun _ _ k _ o k' => o.Chosen job k ∧ o.behind k = k')
      fun _ k _ _ o k' => o.Chosen job k ∧ o.behind k = k' where
  name _ outline := chosen_accessAt outline
  member _ outline := chosen_accessAt outline
  text _ := ⟨trivial, rfl⟩
  group ih := ih
  rendered _ ih := ih
  skipped _ := ⟨trivial, rfl⟩
  guard _ ih := ih
  taken _ _ ih := ih
  conditional _ _ ih₁ ih₂ := ⟨⟨ih₁.1, ih₂.1⟩, ih₂.2⟩
  helper _ outline := chosen_helperAt outline
  loop _ _ ih := ih
  nil := Outline.chosen_ofTexts job _ _
  lacking := ⟨trivial, rfl⟩
  cons ih ihs := by
    obtain ⟨inner_chosen, inner_behind⟩ := ih
    obtain ⟨rest_chosen, rest_behind⟩ := ihs
    -- the rest begins behind the value that stands in the hole
    subst inner_behind
    exact ⟨⟨trivial, inner_chosen, rest_chosen⟩, rest_behind⟩

/-- The functions in a translated template are picked at the cursor of the converter. -/
theorem Job.chosen_outline {template : Template} {o : Outline} (h : job.outline template = .ok o) :
    o.Chosen job {} := by
  obtain ⟨⟨o, k'⟩, hparts, h⟩ := exists_ok_of_bind h
  cases h
  exact (job.translates_chosen.induct.2 _ _ _ _ _ _ _ _ hparts).1

/-! ### All paths -/

/-- **Soundness on paths.** A successful conversion of a template without markers chooses for every
value the function that is picked on every path to it, exactly if no two paths to a value differ in
what is picked there; and it does so if every block hands on the place that it was given. -/
theorem pathSound_iff_pathIndependent (job : Job) (template : Template) (pieces : List Piece)
    (free : template.MarkerFree job.tag) (h : job.pieces template = .ok pieces) :
    ∃ o, job.outline template = .ok o ∧ pieces = o.pieces ∧
      (job.PathSound o ↔ job.PathIndependent o) ∧ (o.steady {} = true → job.PathSound o) := by
  have same := job.pieces_eq_map_outline free
  cases ho : job.outline template with
  | error d => rw [same, ho] at h; cases h
  | ok o =>
    rw [same, ho] at h
    cases h
    have chosen := Job.chosen_outline ho
    refine ⟨o, rfl, rfl, ⟨fun sound moves moves' address site reach reach' => ?_,
      fun independent moves address site reach => ?_⟩, fun steady moves address site reach => ?_⟩
    · rw [sound moves address site reach, sound moves' address site reach']
    · obtain ⟨moves', reach', picked⟩ := chosen.exists_path reach
      rw [independent moves moves' address site reach reach', picked]
    · exact reach.picked_eq chosen steady (.refl {})

/-- In a list every block hands on the place that it was given, and the functions are right on all
paths. -/
theorem pathSound_list : ∃ o, listJob.outline listTemplate = .ok o ∧
    listJob.pieces listTemplate = .ok o.pieces ∧ o.steady {} = true ∧ listJob.PathSound o := by
  have free : listTemplate.MarkerFree listJob.tag := by decide +kernel
  have steady : (listJob.outline listTemplate).toOption.map (·.steady {}) = some true := by
    decide +kernel
  cases h : listJob.pieces listTemplate with
  | error d =>
    have ok : (listJob.pieces listTemplate).toOption.isSome = true := by decide +kernel
    rw [h] at ok
    cases ok
  | ok pieces =>
    obtain ⟨o, ho, hpieces, -, sound⟩ :=
      pathSound_iff_pathIndependent listJob listTemplate pieces free h
    rw [ho] at steady
    have steady : o.steady {} = true := Option.some.inj steady
    exact ⟨o, ho, by rw [hpieces], steady, sound steady⟩

/-- The template `<a ${this.title ? html`href="` : html`title="`}${this.title}">`. -/
def openAttributeTemplate : Template where
  chunks := ["<a ", "", "\">"]
  holes :=
    [.conditional ⟨1, 0⟩ (.member ⟨1, 0⟩ (.this ⟨1, 0⟩) "title" false)
      (.tagged ⟨1, 0⟩ "html" ⟨1, 0⟩ ["href=\""] []) (.tagged ⟨1, 0⟩ "html" ⟨1, 0⟩ ["title=\""] []),
    .member ⟨1, 0⟩ (.this ⟨1, 0⟩) "title" false]

/-- What of the outline of the template matters: the texts on the path through the first branch, and
that another function is picked behind them than the one that is chosen. -/
def Outline.picksOther (job : Job) : Outline → Bool
  | .seq (.text a) (.seq (.hole (.branch _ (.seq (.text b) .empty) _))
      (.seq (.text c) (.seq (.hole (.echo _ site)) _))) =>
    let moves := [.text a] ++ (([.text b] ++ []) ++ [.interpolated] ++ ([.text c] ++ []))
    site.function == some "esc_attr" &&
      (job.picked site (Cursor.walk {} moves)).toOption == some (some "esc_url")
  | _ => false

theorem Outline.not_pathSound_of_picksOther {o : Outline} (h : o.picksOther job = true) :
    ¬ job.PathSound o := by
  unfold picksOther at h
  split at h
  · rename_i a test b second c value site rest
    rw [Bool.and_eq_true] at h
    intro sound
    have taken : Run (.branch test _ second) ([.text b] ++ []) :=
      .first second (.seq (.text b) .empty)
    have reach : Reaches _ _ _ site :=
      .back (.text a) (.back (.hole taken)
        (.back (.text c) (.front rest (.hole (.echo value site)))))
    have picked := sound _ _ _ reach
    rw [picked, eq_of_beq h.1] at h
    exact absurd h.2 (by decide)
  · cases h

/-- **The choice need not be right on all paths.** Where the branches of a conditional open
different attributes, the value behind it has the function for the second attribute on both
paths. -/
theorem not_pathSound_openAttribute :
    openAttributeTemplate.MarkerFree listJob.tag ∧
    ∃ o, listJob.outline openAttributeTemplate = .ok o ∧
      listJob.pieces openAttributeTemplate = .ok o.pieces ∧ ¬ listJob.PathSound o := by
  have free : openAttributeTemplate.MarkerFree listJob.tag := by decide +kernel
  have other : (listJob.outline openAttributeTemplate).toOption.map (·.picksOther listJob) =
      some true := by
    decide +kernel
  refine ⟨free, ?_⟩
  rw [listJob.pieces_eq_map_outline free]
  cases ho : listJob.outline openAttributeTemplate with
  | error d => rw [ho] at other; cases other
  | ok o =>
    rw [ho] at other
    exact ⟨o, rfl, rfl, o.not_pathSound_of_picksOther (Option.some.inj other)⟩

end ServerTemplate

import ServerTemplate.Proofs.Coverage.Covered
import ServerTemplate.Proofs.Entry.Expression
import ServerTemplate.Proofs.Outline.Conversion

/-!
# Nothing in a template is dropped

A conversion of an entry that succeeds has dealt with every expression that occurs in the template,
in whatever standing (`covers_of_occurs`). The exception are the arguments of helpers that these do
not look at: they are dropped without a diagnostic (`dropped_argument`).
-/

namespace ServerTemplate

open Emit

variable {job : Job} {tag : String} {r : Standing} {e : Expr} {s : Progress}

/-- What holds of an expression and of all in it holds of its parts and of all in these. -/
theorem Expr.All.of_parts {P : Expr → Prop} (h : e.All P) {p : Standing × Expr}
    (hp : p ∈ e.parts tag r) : p.2.All P := by
  cases e with
  | name | this | constant | other => cases hp
  | member | arrow | group =>
    cases List.mem_singleton.mp hp
    exact h.2
  | call =>
    rcases List.mem_cons.mp hp with rfl | hp
    · exact h.2.1
    · obtain ⟨_, given, rfl⟩ := List.mem_map.mp hp
      exact h.2.2.of_mem given
  | binary | logical =>
    rcases List.mem_cons.mp hp with rfl | hp
    · exact h.2.1
    · cases List.mem_singleton.mp hp
      exact h.2.2
  | conditional =>
    rcases List.mem_cons.mp hp with rfl | hp
    · exact h.2.1
    rcases List.mem_cons.mp hp with rfl | hp
    · exact h.2.2.1
    · cases List.mem_singleton.mp hp
      exact h.2.2.2
  | template =>
    obtain ⟨_, hole, rfl⟩ := List.mem_map.mp hp
    exact h.2.of_mem hole
  | tagged =>
    rw [parts] at hp
    split at hp
    · cases hp
    · obtain ⟨_, hole, rfl⟩ := List.mem_map.mp hp
      exact h.2.of_mem hole

theorem Expr.All.of_occurs {P : Expr → Prop} {r' : Standing} {e' : Expr} (h : e.All P)
    (occurs : e.Occurs tag r r' e') : P e' := by
  induction occurs with
  | here => exact h.self
  | inside part _ ih => exact ih (h.of_parts part)

/-- The entry of a script has one text more than it has holes, and so have the templates in it. -/
theorem Entry.interleaved {source : Script.Source} {entryPoint : EntryPoint}
    {component : Option String} {parser : Script.Parser} {entry : Entry}
    (read : Entry.ofSource source entryPoint tag component parser = .ok entry) :
    entry.template.Interleaved tag := by
  obtain ⟨_, only, template, -, -, htemplate, rfl⟩ := Entry.ofSource_eq_ok_iff.mp read
  obtain ⟨whole, inner⟩ := Template.even_of_ofNode htemplate
  exact ⟨whole, fun hole hhole _ _ _ _ _ occurs => (inner.of_mem hhole).of_occurs occurs⟩

/-- A conversion that succeeds has dealt with all that occurs in the template. -/
theorem Job.covers_of_pieces {template : Template} {pieces : List Piece}
    (whole : template.Interleaved job.tag) (h : job.pieces template = .ok pieces)
    (occurs : template.Occurs job.tag r e) : (job.final template).Covers job.tag r e := by
  have brings : Brings (.coveredAll job.tag (template.holes.map ((Standing.hole, ·))))
      (lowerTemplate job template) := by
    refine (Brings.enter _ _ _).quiet_bind fun _ => Brings.bind_quiet ?_ fun _ =>
      (Brings.exit _).quiet_bind fun _ => Brings.tracker.quiet_bind fun _ => .checked
    exact ((lowersCovered job).2 "" 0 _ _ whole.whole whole.inner).mono fun _ h => h.2
  obtain ⟨hole, hhole, occurs⟩ := occurs
  unfold Job.pieces at h
  unfold Job.final
  have run := brings job.start
  cases result : lowerTemplate job template job.start with
  | ok _ s => exact (run.of_ok result).2 _ (List.mem_map_of_mem hhole) _ _ occurs
  | error d s =>
    rw [result] at h
    cases h

/-- The standings that an expression can have where nothing is dropped. -/
def Expr.Stands (tag : String) (r : Standing) : Expr → Prop
  | .other .. | .template .. => r = .unused
  | .tagged _ tag' _ _ _ => tag' = tag ∨ r = .unused
  | .arrow _ parameters _ => r = .callback ∧ parameters.length = 1 ∨ r = .unused
  | .this _ => r = .reference ∨ r = .unused
  | _ => True

/-- What has been dealt with stands where it can. -/
theorem Progress.Covers.stands (h : s.Covers tag r e) : e.Stands tag r := by
  cases r with
  | hole | part =>
    obtain ⟨form, -⟩ := h
    cases e with
    | tagged => exact .inl form
    | this | arrow | template | other => exact form.elim
    | _ => trivial
  | reference =>
    cases e with
    | this => exact .inl rfl
    | name | member => trivial
    | _ => exact h.elim
  | callback =>
    obtain ⟨_, _, _, rfl⟩ := h
    exact .inl ⟨rfl, rfl⟩
  | unused =>
    cases e with
    | other | template => rfl
    | tagged | arrow | this => exact .inr rfl
    | _ => trivial

/-- **Nothing is dropped.** A conversion of an entry that succeeds has dealt with all that occurs in
the template. Unless it is in an argument that no helper looks at, no construct that is not known
occurs, no template without the tag, no function but the one that a loop is given, and the component
only as the owner of a property. -/
theorem covers_of_occurs (source : Script.Source) (entryPoint : EntryPoint)
    (component : Option String) (parser : Script.Parser) (job : Job) (entry : Entry)
    (pieces : List Piece)
    (read : Entry.ofSource source entryPoint job.tag component parser = .ok entry)
    (converted : job.pieces entry.template = .ok pieces) :
    ∀ r e, entry.template.Occurs job.tag r e →
      (job.final entry.template).Covers job.tag r e ∧ e.Stands job.tag r := by
  intro r e occurs
  have covers := Job.covers_of_pieces (Entry.interleaved read) converted occurs
  exact ⟨covers, covers.stands⟩

/-- A list of links, whose addresses are properties of its items. -/
def linkList : String :=
  "$\x7bthis.items.map(item => html`<a href=\"$\x7bitem.url\x7d\">`)\x7d"

/-- In a list everything that occurs is dealt with, down to the owner of the address. -/
theorem covers_of_occurs_list :
    ∃ entry pieces,
      Entry.ofTemplate linkList (.named "render") "html" none = .ok entry ∧
      listJob.pieces entry.template = .ok pieces ∧
      ∀ r e, entry.template.Occurs "html" r e →
        (listJob.final entry.template).Covers "html" r e ∧ e.Stands "html" r := by
  obtain ⟨entry, read, converts⟩ := exists_ok_of_map_toOption
    (x := Entry.ofTemplate linkList (.named "render") "html" none)
    (f := fun entry => (listJob.pieces entry.template).toOption.isSome) (b := true)
    (by decide +kernel)
  obtain ⟨pieces, converted⟩ := exists_ok_of_isSome converts
  refine ⟨entry, pieces, read, converted, ?_⟩
  rw [Entry.ofTemplate_eq] at read
  exact covers_of_occurs _ _ _ _ listJob entry pieces read converted

/-- Whether the only hole of a template asks for the current year, given an array. -/
def Template.isYearOfArray (template : Template) : Bool :=
  match template.holes with
  | [.call _ (.member _ (.this _) "getCurrentYear" _) [.other _ "array" _]] => true
  | _ => false

/-- The array in a call that gives the current year is dropped. -/
theorem dropped_argument :
    ∃ entry, Entry.ofTemplate "${this.getCurrentYear([1,2])}" (.named "render") "html" none =
        .ok entry ∧
      listJob.convert entry.template = .ok "<?php echo date( 'Y' ); ?>" ∧
      ∃ r place written, entry.template.Occurs "html" r (.other place "array" written) := by
  obtain ⟨entry, read, h⟩ := exists_ok_of_map_toOption
    (x := Entry.ofTemplate "${this.getCurrentYear([1,2])}" (.named "render") "html" none)
    (f := fun entry => (entry.template.isYearOfArray, (listJob.convert entry.template).toOption))
    (b := (true, some "<?php echo date( 'Y' ); ?>")) (by decide +kernel)
  obtain ⟨shape, converted⟩ := Prod.mk.inj h
  refine ⟨entry, read, eq_ok_of_toOption converted, ?_⟩
  unfold Template.isYearOfArray at shape
  split at shape
  · rename_i place written holes
    refine ⟨.unused, place, written, _, holes ▸ List.mem_singleton_self _, .inside ?_ .here⟩
    exact List.mem_cons_of_mem _ (List.mem_singleton_self _)
  · cases shape

end ServerTemplate

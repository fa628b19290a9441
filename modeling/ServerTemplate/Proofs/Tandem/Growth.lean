import ServerTemplate.Library.Basic
import ServerTemplate.Proofs.Outline.Conversion
import ServerTemplate.Proofs.Tandem.Lowered

/-!
# Declarations that grow

A declaration grows (`Declaration.Grows`) when it comes to say more without taking anything back: it
gets more parameters, fields for more arrays, more fields at the end of the lists that it has, or a
policy where it has none. Types, default values, kinds of fields and the name of the render function
may change at will.

A component that was converted keeps its fragment when its declaration grows, provided that no loop
binds one of the new names (`convert_of_grows`). Policies are looked up by the first entry with a
name, so that no entry that is added hides one that was there; and what the new names make visible
could only have been missed.
-/

namespace ServerTemplate

/-! ### Entries between entries -/

/-- Two lists of which the second has the entries of the first in their order, each kept in some
way, and new entries between them. -/
inductive Widened {α : Type} (kept : α → α → Prop) (new : α → Prop) : List α → List α → Prop
  | nil : Widened kept new [] []
  | keep {a b : α} {as bs : List α} (same : kept a b) (rest : Widened kept new as bs) :
      Widened kept new (a :: as) (b :: bs)
  | insert {b : α} {as bs : List α} (fresh : new b) (rest : Widened kept new as bs) :
      Widened kept new as (b :: bs)

namespace Widened

variable {α : Type} {kept : α → α → Prop} {new : α → Prop} {as bs : List α}

theorem of_forall₂ (h : List.Forall₂ kept as bs) : Widened kept new as bs := by
  induction h with
  | nil => exact .nil
  | cons same _ ih => exact .keep same ih

/-- The first entry of some kind is kept, if no new entry is of the kind. -/
theorem find? (h : Widened kept new as bs) {p : α → Bool}
    (alike : ∀ a b, kept a b → p b = p a) (other : ∀ b, new b → p b = false) {a : α}
    (found : as.find? p = some a) : ∃ b, bs.find? p = some b ∧ kept a b := by
  induction h with
  | nil => cases found
  | @keep c b as bs same _ ih =>
    rw [List.find?_cons] at found ⊢
    rw [alike c b same]
    cases hc : p c with
    | true =>
      rw [hc] at found
      exact ⟨b, rfl, Option.some.inj found ▸ same⟩
    | false =>
      rw [hc] at found
      exact ih found
  | @insert b as bs fresh _ ih =>
    rw [List.find?_cons, other b fresh]
    exact ih found

/-- Without the new entries, the second list has what the first has. -/
theorem filter_map {β : Type} (h : Widened kept new as bs) {f : α → β} {p : β → Bool}
    (alike : ∀ a b, kept a b → f b = f a) (other : ∀ b, new b → p (f b) = false)
    (all : ∀ a ∈ as, p (f a) = true) : (bs.map f).filter p = as.map f := by
  induction h with
  | nil => rfl
  | @keep a b as bs same _ ih =>
    rw [List.map_cons, List.map_cons, alike a b same,
      List.filter_cons_of_pos (all a List.mem_cons_self),
      ih fun a ha => all a (List.mem_cons_of_mem _ ha)]
  | @insert b as bs fresh _ ih =>
    rw [List.map_cons, List.filter_cons_of_neg (Bool.eq_false_iff.mp (other b fresh)), ih all]

end Widened

/-! ### Declarations -/

/-- A parameter that keeps its name, and its policy if it has one. -/
structure Parameter.Grows (p q : Parameter) : Prop where
  name : q.name = p.name
  policy : p.policy = none ∨ q.policy = p.policy

/-- A field that keeps its name, and its policy if it has one. -/
structure ArrayField.Grows (f g : ArrayField) : Prop where
  name : g.name = f.name
  policy : f.policy = none ∨ g.policy = f.policy

/-- Fields of an array of which the second list goes on behind the end of the first. -/
def FieldsGrow (a b : String × List ArrayField) : Prop :=
  b.1 = a.1 ∧ ∃ fields more, b.2 = fields ++ more ∧ List.Forall₂ ArrayField.Grows a.2 fields

namespace Declaration

/-- A declaration that comes to say more: parameters with new names stand anywhere among the ones
before, there are fields for new arrays, more fields behind those of an array, and policies where
there were none. -/
structure Grows (d d' : Declaration) : Prop where
  name : d'.name = d.name
  entryPoint : d'.entryPoint = d.entryPoint
  parameters : Widened Parameter.Grows (fun q => q.name ∉ d.parameterNames) d.parameters
    d'.parameters
  arrayFields : Widened FieldsGrow (fun b => b.1 ∉ d.arrayFields.map Prod.fst) d.arrayFields
    d'.arrayFields

/-- The names of the parameters that another declaration has beyond those of a declaration. -/
def newNames (d d' : Declaration) : List String :=
  d'.parameterNames.filter fun name => name ∉ d.parameterNames

end Declaration

namespace Declaration.Grows

variable {d d' : Declaration}

theorem title (grows : d.Grows d') : d'.title = d.title := congrArg Json.display grows.name

/-- What becomes of a failure depends on the name only. -/
theorem retold (grows : d.Grows d') : d'.retold = d.retold := by
  have told : d'.told = d.told := by
    funext diagnostic
    rw [Declaration.told, Declaration.told, takesLine, takesLine, grows.name]
  funext failure
  rw [Declaration.retold.eq_def, Declaration.retold.eq_def, told]

/-- The policy of a field that grows is the same, if it had one. -/
theorem arrayField_policy {fields fields' : List ArrayField} {more : List ArrayField}
    (kept : List.Forall₂ ArrayField.Grows fields fields') {name : String} {f : ArrayField}
    (found : fields.find? (fun f => f.name == name) = some f) :
    ∃ g, (fields' ++ more).find? (fun f => f.name == name) = some g ∧ f.Grows g := by
  have widened : Widened ArrayField.Grows (fun _ => False) fields fields' := .of_forall₂ kept
  obtain ⟨g, hg, same⟩ :=
    widened.find? (fun _ _ same => by rw [same.name]) (fun _ absent => absent.elim) found
  exact ⟨g, by rw [List.find?_append, hg, Option.some_or], same⟩

/-- The first parameter with a name is kept. -/
theorem parameter? (grows : d.Grows d') {name : String} {p : Parameter}
    (found : d.parameter? name = some p) : ∃ q, d'.parameter? name = some q ∧ p.Grows q := by
  unfold Declaration.parameter? at found ⊢
  have named := List.find?_some found
  have known : name ∈ d.parameterNames :=
    List.mem_map.mpr ⟨p, List.mem_of_find?_eq_some found, eq_of_beq named⟩
  exact grows.parameters.find? (fun _ _ same => by rw [same.name])
    (fun q fresh => beq_eq_false_iff_ne.mpr fun (same : q.name = name) => fresh (same ▸ known))
    found

/-- The first field with a name is kept. -/
theorem arrayField? (grows : d.Grows d') {array name : String} {f : ArrayField}
    (found : d.arrayField? array name = some f) :
    ∃ g, d'.arrayField? array name = some g ∧ f.Grows g := by
  unfold Declaration.arrayField? Declaration.fieldsOf at found ⊢
  cases ha : d.arrayFields.find? fun entry => entry.1 == array with
  | none =>
    rw [ha] at found
    cases found
  | some a =>
    rw [ha] at found
    have named := List.find?_some ha
    have known : array ∈ d.arrayFields.map Prod.fst :=
      List.mem_map.mpr ⟨a, List.mem_of_find?_eq_some ha, eq_of_beq named⟩
    obtain ⟨b, hb, -, fields, more, hfields, kept⟩ :=
      grows.arrayFields.find? (fun _ _ same => by rw [same.1])
        (fun b fresh => beq_eq_false_iff_ne.mpr fun (same : b.1 = array) => fresh (same ▸ known))
        ha
    rw [hb]
    dsimp only
    rw [hfields]
    exact arrayField_policy kept found

/-- A policy that is declared stays what it is. -/
theorem declaredPolicy? (grows : d.Grows d') (field : String) (array : Option String) :
    d'.declaredPolicy? field array = d.declaredPolicy? field array ∨
      d.declaredPolicy? field array = none := by
  unfold Declaration.declaredPolicy?
  cases array with
  | none =>
    dsimp only
    cases found : d.parameter? field with
    | none => exact .inr rfl
    | some p =>
      obtain ⟨q, hq, same⟩ := grows.parameter? found
      rw [hq]
      exact same.policy.symm
  | some array =>
    dsimp only
    cases found : d.arrayField? array field with
    | none => exact .inr rfl
    | some f =>
      obtain ⟨g, hg, same⟩ := grows.arrayField? found
      rw [hg]
      exact same.policy.symm

/-- Without the new names, the parameters are those that there were. -/
theorem parameterNames (grows : d.Grows d') :
    (d'.parameterNames.filter fun name => name ∈ d.parameterNames) = d.parameterNames :=
  grows.parameters.filter_map (fun _ _ same => same.name) (fun _ fresh => decide_eq_false fresh)
    fun _ hp => decide_eq_true (List.mem_map_of_mem hp)

/-! ### Conversions -/

/-- What a conversion may do with a declaration that has grown: it may go on where it failed. -/
def leeway (d d' : Declaration) : Leeway :=
  { added := d.newNames d', lenient := True, lenient_of_added := fun _ _ => trivial }

/-- The parameters that were there are known, and the others are new. -/
theorem within_start (grows : d.Grows d') :
    (Tracker.start d.parameterNames d.title).Within (d.newNames d')
      (Tracker.start d'.parameterNames d'.title) := by
  have old : (d.parameterNames.filter fun name => name ∉ d.newNames d') = d.parameterNames :=
    List.filter_eq_self.mpr fun name known =>
      decide_eq_true fun new => of_decide_eq_true (List.mem_filter.mp new).2 known
  have same (name : String) (hname : name ∈ d'.parameterNames) :
      decide (name ∉ d.newNames d') = decide (name ∈ d.parameterNames) := by
    rw [decide_eq_decide, newNames, List.mem_filter, not_and_or, decide_eq_true_iff, not_not]
    exact or_iff_right fun absent => absent hname
  refine ⟨congrArg some grows.title, rfl, rfl, ?_, fun name known => ?_⟩
  · exact (List.filter_congr same).trans (grows.parameterNames.trans old.symm)
  · have known : name ∈ d.parameterNames := known
    rw [← grows.parameterNames] at known
    exact List.mem_of_mem_filter known

theorem paired {job : Job} (grows : job.declaration.Grows d') :
    Job.Paired (leeway job.declaration d') job { job with declaration := d' } where
  tag := rfl
  labels := rfl
  stars := rfl
  start := grows.within_start
  policy field array := (grows.declaredPolicy? field array).imp_right fun missing =>
    ⟨trivial, missing⟩

/-- A conversion with a result keeps it when the declaration grows. -/
theorem convert_eq {job : Job} (grows : job.declaration.Grows d') {template : Template}
    (spared : template.Spares (job.declaration.newNames d')) {fragment : String}
    (converted : job.convert template = .ok fragment) :
    { job with declaration := d' }.convert template = .ok fragment := by
  obtain ⟨fragment', converted', same⟩ :=
    (grows.paired.concur_convert rfl (.refl template) spared).of_ok converted
  exact same ▸ converted'

end Declaration.Grows

/-- When the declaration of a component grows, every template that was converted is converted to the
same fragment, unless a function in it has one of the new names as a parameter. So is every source,
in which the same template is found. -/
theorem convert_of_grows {d d' : Declaration} (grows : d.Grows d') :
    (∀ (source tag : String) (labels : CountLabels) (stars : Int) (template : Template)
      (fragment : String), template.Spares (d.newNames d') →
      Job.convert ⟨d, source, tag, labels, stars⟩ template = .ok fragment →
      Job.convert ⟨d', source, tag, labels, stars⟩ template = .ok fragment) ∧
    ∀ (o : Options) (form : SourceForm) (source : String) (entry : Entry) (fragment : String),
      o.entry form source d = .ok entry → entry.template.Spares (d.newNames d') →
      o.convert form source d = .ok fragment → o.convert form source d' = .ok fragment := by
  have job (source tag : String) (labels : CountLabels) (stars : Int) (template : Template)
      (fragment : String) (spared : template.Spares (d.newNames d'))
      (converted : Job.convert ⟨d, source, tag, labels, stars⟩ template = .ok fragment) :
      Job.convert ⟨d', source, tag, labels, stars⟩ template = .ok fragment := by
    have grows : (Job.mk d source tag labels stars).declaration.Grows d' := grows
    exact grows.convert_eq spared converted
  refine ⟨job, fun o form source entry fragment found spared converted => ?_⟩
  have entryPoint : o.entryPointOf d' = o.entryPointOf d := by
    unfold Options.entryPointOf
    rw [grows.entryPoint]
  have found' : o.entry form source d' = .ok entry := by
    rw [← found]
    unfold Options.entry
    rw [entryPoint, grows.title, grows.retold]
  unfold Options.convert at converted ⊢
  rw [found] at converted
  rw [found']
  change (Job.convert ⟨d, source, o.tag, o.labels, o.stars⟩ entry.template).mapError d.told = _
    at converted
  change (Job.convert ⟨d', source, o.tag, o.labels, o.stars⟩ entry.template).mapError d'.told = _
  cases run : Job.convert ⟨d, source, o.tag, o.labels, o.stars⟩ entry.template with
  | error diagnostic =>
    rw [run] at converted
    cases converted
  | ok written =>
    rw [run] at converted
    rw [job _ _ _ _ _ _ spared run]
    exact converted

/-- A component with a title and items, which has come to say more: there is a language in front of
the title, the title has another type and a default value, the items have a policy, and there are
fields for tags and one more field of an item. -/
def grownList : Declaration where
  name := .str "List"
  parameters := [⟨"lang", "string", .null, some .attr⟩, ⟨"title", "text", .str "none", some .html⟩,
    ⟨"items", "array", .null, some .html⟩]
  arrayFields := [("tags", [⟨"name", "string", .null, some .html⟩]),
    ("items", [⟨"url", "string", .str "link", some .html⟩, ⟨"label", "string", .null, some .html⟩])]
  functionName := .str "render_list"

theorem grows_grownList : listJob.declaration.Grows grownList where
  name := rfl
  entryPoint := rfl
  parameters := .insert (by decide) (.keep ⟨rfl, .inr rfl⟩ (.keep ⟨rfl, .inl rfl⟩ .nil))
  arrayFields := .insert (by decide) (.keep
    ⟨rfl, [_], [_], rfl, .cons ⟨rfl, .inr rfl⟩ .nil⟩ .nil)

/-- The text of a template with a loop over the items. -/
def itemsText : String :=
  "<ul>$\x7bthis.items.map(item => html`<a href=\"$\x7bitem.url\x7d\">`)\x7d</ul>" ++
    "$\x7bthis.title\x7d"

/-- A loop and a title are written alike when the declaration has grown. -/
theorem convert_grownList :
    listJob.declaration.Grows grownList ∧
    listTemplate.Spares (listJob.declaration.newNames grownList) ∧
    (∃ fragment, listJob.convert listTemplate = .ok fragment ∧
      { listJob with declaration := grownList }.convert listTemplate = .ok fragment) ∧
    ∃ entry fragment, ({} : Options).entry .template itemsText listJob.declaration = .ok entry ∧
      entry.template.Spares (listJob.declaration.newNames grownList) ∧
      ({} : Options).convert .template itemsText listJob.declaration = .ok fragment ∧
      ({} : Options).convert .template itemsText grownList = .ok fragment := by
  have spared : listTemplate.Spares (listJob.declaration.newNames grownList) := by decide +kernel
  have converts : (listJob.convert listTemplate).toOption.isSome = true := by decide +kernel
  have finds : (({} : Options).entry .template itemsText listJob.declaration).toOption.map
      (fun entry => decide (entry.template.Spares (listJob.declaration.newNames grownList))) =
        some true := by
    decide +kernel
  have converts' :
      (({} : Options).convert .template itemsText listJob.declaration).toOption.isSome = true := by
    decide +kernel
  obtain ⟨fragment, converted⟩ := exists_ok_of_isSome converts
  obtain ⟨entry, found, spared'⟩ := exists_ok_of_map_toOption finds
  obtain ⟨fragment', converted'⟩ := exists_ok_of_isSome converts'
  have spared' := of_decide_eq_true spared'
  exact ⟨grows_grownList, spared, ⟨fragment, converted,
      (convert_of_grows grows_grownList).1 _ _ _ _ _ _ spared converted⟩,
    entry, fragment', found, spared', converted',
    (convert_of_grows grows_grownList).2 _ _ _ _ _ found spared' converted'⟩

end ServerTemplate

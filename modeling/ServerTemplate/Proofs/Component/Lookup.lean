import ServerTemplate.Component.Escaping
import ServerTemplate.Proofs.Component.Validation

/-!
# Which entries are heeded

An entry of a declaration is heeded if looking up its name finds what was read from it, so that its
policy applies to values outside attributes. Every parameter is heeded, as two of one name are
refused. Fields are not compared: of those of one name only the first is heeded
(`Declaration.heedsField_iff`), and so all are if and only if those of one name are alike
(`Declaration.heeds_iff`).
-/

namespace ServerTemplate

/-! ### Looking up -/

section Lookup

variable {α β : Type} {R : α → β → Prop} {as : List α} {bs : List β} {b : β}

theorem exists_left_of_forall₂ (h : List.Forall₂ R as bs) (mem : b ∈ bs) : ∃ a ∈ as, R a b := by
  induction h with
  | nil => cases mem
  | cons first _ ih =>
    rcases List.mem_cons.mp mem with rfl | mem
    · exact ⟨_, List.mem_cons_self, first⟩
    · obtain ⟨a, ha, rel⟩ := ih mem
      exact ⟨a, List.mem_cons_of_mem _ ha, rel⟩

/-- Lists that correspond have corresponding things first under a key. -/
theorem rel_find?_of_forall₂ {p : α → Bool} {q : β → Bool} (same : ∀ a b, R a b → p a = q b)
    (h : List.Forall₂ R as bs) : Option.Rel R (as.find? p) (bs.find? q) := by
  induction h with
  | nil => exact .none
  | @cons a b as bs first _ ih =>
    rw [List.find?_cons, List.find?_cons, same a b first]
    cases q b with
    | true => exact .some first
    | false => exact ih

end Lookup

/-! ### What is read from an entry -/

open Declaration

variable {d : Declaration} {data entry other : Json} {given : Option Json} {entries : List Json}
  {array : String} {p : Parameter} {f g : ArrayField} {fs : List ArrayField}

/-- An entry declares one policy only. -/
theorem Declaration.HasPolicy.eq {policy policy' : Option EscapePolicy}
    (h : HasPolicy entry policy) (h' : HasPolicy entry policy') : policy = policy' := by
  cases h with
  | absent absent => cases h' with
    | absent | null => rfl
    | token found => cases absent.symm.trans found
  | null null => cases h' with
    | absent | null => rfl
    | token found notNull => exact absurd (Option.some.inj (null.symm.trans found)).symm notNull
  | token found notNull names => cases h' with
    | absent absent => cases absent.symm.trans found
    | null null => exact absurd (Option.some.inj (null.symm.trans found)).symm notNull
    | token found' _ names' =>
      cases found.symm.trans found'
      rw [← EscapePolicy.find?_tokens_eq_some_iff] at names names'
      exact names.symm.trans names'

/-- One field only is read from an entry. -/
theorem ArrayField.IsFrom.eq (hf : f.IsFrom entry) (hg : g.IsFrom entry) : f = g := by
  have name : f.name = g.name := (entryName_eq hf.name).trans (entryName_eq hg.name).symm
  have type : f.type = g.type := hf.type.trans hg.type.symm
  have fieldType : f.fieldType = g.fieldType := hf.fieldType.trans hg.fieldType.symm
  have policy : f.policy = g.policy := hf.policy.eq hg.policy
  obtain ⟨_, _, _, _⟩ := f
  cases name
  cases type
  cases fieldType
  cases policy
  rfl

namespace Declaration

/-- The policy of a value outside attributes is the given one; there is none if none is given. -/
def Applies (d : Declaration) (field : String) (array : Option String)
    (policy : Option EscapePolicy) : Prop :=
  ∀ line, (d.resolve field none array line).toOption = policy.map fun p => ⟨p, .declared⟩

theorem applies_declaredPolicy? (d : Declaration) (field : String) (array : Option String) :
    d.Applies field array (d.declaredPolicy? field array) := by
  intro line
  unfold resolve
  cases d.declaredPolicy? field array <;> rfl

/-- An entry of the parameters is heeded: its name finds the parameter that was read from it, and
the policy of that applies. -/
def HeedsParameter (d : Declaration) (entry : Json) : Prop :=
  ∃ p : Parameter, p.IsFrom entry ∧ d.parameter? (entryName entry) = some p ∧
    d.Applies (entryName entry) none p.policy

/-- An entry of an array is heeded: its name finds the field that was read from it, and the policy
of that applies. -/
def HeedsField (d : Declaration) (array : String) (entry : Json) : Prop :=
  ∃ f : ArrayField, f.IsFrom entry ∧ d.arrayField? array (entryName entry) = some f ∧
    d.Applies (entryName entry) (some array) f.policy

/-- Two entries stand for the same field. -/
def Alike (entry other : Json) : Prop := ∃ f : ArrayField, f.IsFrom entry ∧ f.IsFrom other

/-! ### Parameters -/

/-- No two parameters have the same name. -/
theorem nodup_parameters_of_ofJson (h : ofJson data given = .ok d) :
    (d.parameters.map Parameter.name).Nodup := by
  cases data with
  | record members =>
    obtain ⟨-, ⟨entries, -, hps⟩, -⟩ := ofJson_record_eq_ok_iff.mp h
    exact (readParameters_eq_ok_iff.mp hps).2.1
  | _ => cases h

/-- Every parameter is heeded. -/
theorem heedsParameter_of_ofJson (h : ofJson data given = .ok d) (mem : entry ∈ parametersIn data) :
    d.HeedsParameter entry := by
  obtain ⟨p, hp, built⟩ := exists_left_of_forall₂ (isFrom_of_ofJson h).parameters mem
  have distinct := nodup_parameters_of_ofJson h
  have found : d.parameter? (entryName entry) = some p := by
    rw [← entryName_eq built.name]
    exact find?_of_nodup distinct hp
  have policy : d.declaredPolicy? (entryName entry) none = p.policy := by
    rw [declaredPolicy?, found]
    rfl
  exact ⟨p, built, found, policy ▸ d.applies_declaredPolicy? (entryName entry) none⟩

/-! ### Fields -/

/-- The arrays have the names of the members that they were read from. -/
theorem map_fst_of_areFieldsOf {fields : List (String × List ArrayField)}
    {arrays : List (String × Json)} (h : List.Forall₂ AreFieldsOf fields arrays) :
    fields.map (·.1) = arrays.map (·.1) :=
  map_eq_map_of_forall₂ (fun _ _ fieldsOf => fieldsOf.1) h

/-- The fields of an array are those of its entries. -/
theorem fieldsOf_isFrom (read : d.IsFrom data given) (keys : ((arraysIn data).map (·.1)).Nodup)
    (mem : (array, Json.list entries) ∈ arraysIn data) :
    List.Forall₂ ArrayField.IsFrom (d.fieldsOf array) entries := by
  have distinct : (d.arrayFields.map (·.1)).Nodup := map_fst_of_areFieldsOf read.arrayFields ▸ keys
  obtain ⟨⟨array, fs⟩, hfs, rfl, _, ⟨⟩, each⟩ := exists_left_of_forall₂ read.arrayFields mem
  have found : (d.arrayFields.find? fun entry => entry.1 == array) = some (array, fs) :=
    find?_of_nodup distinct hfs
  rw [fieldsOf, found]
  exact each

/-- The policy of what is found applies. -/
theorem heedsField_iff_found : d.HeedsField array entry ↔
    ∃ f : ArrayField, f.IsFrom entry ∧ d.arrayField? array (entryName entry) = some f := by
  constructor
  · rintro ⟨f, built, found, -⟩
    exact ⟨f, built, found⟩
  · rintro ⟨f, built, found⟩
    have policy : d.declaredPolicy? (entryName entry) (some array) = f.policy := by
      rw [declaredPolicy?, found]
      rfl
    exact ⟨f, built, found, policy ▸ d.applies_declaredPolicy? (entryName entry) (some array)⟩

/-- An entry is heeded if and only if the first entry of its name is like it. -/
theorem heedsField_iff (each : List.Forall₂ ArrayField.IsFrom (d.fieldsOf array) entries) :
    d.HeedsField array entry ↔ ∃ first,
      (entries.find? fun e => entryName e == entryName entry) = some first ∧
        Alike first entry := by
  -- fields and entries are searched in one order, so that both searches end at the same place
  have first : Option.Rel ArrayField.IsFrom (d.arrayField? array (entryName entry))
      (entries.find? fun e => entryName e == entryName entry) :=
    rel_find?_of_forall₂ (fun f e built => by rw [entryName_eq built.name]) each
  rw [heedsField_iff_found]
  generalize d.arrayField? array (entryName entry) = found at first ⊢
  generalize (entries.find? fun e => entryName e == entryName entry) = firstEntry at first ⊢
  cases first with
  | none => exact ⟨by rintro ⟨_, _, ⟨⟩⟩, by rintro ⟨_, ⟨⟩, _⟩⟩
  | some hf =>
    constructor
    · rintro ⟨f, built, ⟨⟩⟩
      exact ⟨_, rfl, _, hf, built⟩
    · rintro ⟨_, ⟨⟩, f, hf', built⟩
      exact ⟨f, built, congrArg some (hf.eq hf')⟩

/-- All entries of an array are heeded if and only if those of one name are alike. -/
theorem forall_heedsField_iff (each : List.Forall₂ ArrayField.IsFrom (d.fieldsOf array) entries) :
    (∀ entry ∈ entries, d.HeedsField array entry) ↔
      ∀ entry ∈ entries, ∀ other ∈ entries, entryName entry = entryName other →
        Alike entry other := by
  constructor
  · intro heeded entry hentry other hother same
    obtain ⟨e, found, f, hf, built⟩ := (heedsField_iff each).mp (heeded entry hentry)
    obtain ⟨e', found', f', hf', built'⟩ := (heedsField_iff each).mp (heeded other hother)
    rw [same] at found
    cases found.symm.trans found'
    exact ⟨f, built, hf.eq hf' ▸ built'⟩
  · intro alike entry hentry
    have isSome : (entries.find? fun e => entryName e == entryName entry).isSome :=
      List.find?_isSome.mpr ⟨entry, hentry, beq_self_eq_true _⟩
    obtain ⟨e, found⟩ := Option.isSome_iff_exists.mp isSome
    have same : entryName e = entryName entry := eq_of_beq (by simpa using List.find?_some found)
    exact (heedsField_iff each).mpr
      ⟨e, found, alike e (List.mem_of_find?_eq_some found) entry hentry same⟩

/-- In a declaration that is accepted every parameter is heeded, and all entries of an array are if
and only if those of one name are alike. -/
theorem heeds_iff (h : ofJson data given = .ok d) (keys : ((arraysIn data).map (·.1)).Nodup) :
    (∀ entry ∈ parametersIn data, d.HeedsParameter entry) ∧
      ∀ array entries, (array, Json.list entries) ∈ arraysIn data →
        ((∀ entry ∈ entries, d.HeedsField array entry) ↔
          ∀ entry ∈ entries, ∀ other ∈ entries, entryName entry = entryName other →
            Alike entry other) :=
  ⟨fun _ => heedsParameter_of_ofJson h, fun _ _ mem =>
    forall_heedsField_iff (fieldsOf_isFrom (isFrom_of_ofJson h) keys mem)⟩

/-- The fields of labelled items with a price. -/
def labelledEntries : List Json :=
  [.record [("name", .str "label"), ("escape", .str "url")], .record [("name", .str "price")],
    .record [("name", .str "note"), ("escape", .str " HTML ")]]

/-- A list with a title and labelled items. -/
def labelledData : Json := .record [
  ("name", .str "list"),
  ("parameters", .list [.record [("name", .str "title"), ("escape", .str "attr")],
    .record [("name", .str "count"), ("escape", .str "none")]]),
  ("arrayFields", .record [("items", .list labelledEntries), ("tags", .list [])])]

/-- What is read from the list with labelled items. -/
def labelled : Declaration where
  name := .str "list"
  parameters :=
    [⟨"title", "string", .null, some .attr⟩, ⟨"count", "string", .null, some .raw⟩]
  arrayFields := [("items", [⟨"label", "string", .null, some .url⟩,
    ⟨"price", "string", .null, none⟩, ⟨"note", "string", .null, some .html⟩]), ("tags", [])]

/-- All entries of the list with labelled items are heeded, as their names differ. -/
theorem heeds_labelled : ofJson labelledData none = .ok labelled ∧
    ((arraysIn labelledData).map (·.1)).Nodup ∧
    (∀ entry ∈ parametersIn labelledData, labelled.HeedsParameter entry) ∧
    ∀ entry ∈ labelledEntries, labelled.HeedsField "items" entry := by
  have read : ofJson labelledData none = .ok labelled := by rfl
  have keys : ((arraysIn labelledData).map (·.1)).Nodup := by decide
  obtain ⟨parameters, fields⟩ := heeds_iff read keys
  refine ⟨read, keys, parameters, (fields "items" labelledEntries (.head _)).mpr ?_⟩
  have distinct : (labelledEntries.map entryName).Nodup := by decide
  intro entry hentry other hother same
  obtain rfl : entry = other := List.inj_on_of_nodup_map distinct hentry hother same
  obtain ⟨f, -, built⟩ := exists_left_of_forall₂
    (fieldsOf_isFrom (isFrom_of_ofJson read) keys (.head _)) hentry
  exact ⟨f, built, built⟩

/-- Two entries of one name, of which the second has a policy. -/
def shadowedEntries : List Json :=
  [.record [("name", .str "x")], .record [("name", .str "x"), ("escape", .str "url")]]

/-- A list of items with two entries of one name. -/
def shadowedData : Json :=
  .record [("name", .str "list"), ("arrayFields", .record [("items", .list shadowedEntries)])]

/-- What is read from the list with two entries of one name. -/
def shadowed : Declaration where
  name := .str "list"
  arrayFields := [("items", [⟨"x", "string", .null, none⟩, ⟨"x", "string", .null, some .url⟩])]

/-- A policy is passed over: the second entry of a name is accepted, but never looked up. -/
theorem not_heeds_shadowed : ofJson shadowedData none = .ok shadowed ∧
    ("items", Json.list shadowedEntries) ∈ arraysIn shadowedData ∧
    ¬ ∀ entry ∈ shadowedEntries, shadowed.HeedsField "items" entry := by
  refine ⟨by rfl, List.mem_singleton.mpr rfl, fun heeded => ?_⟩
  have second : Json.record [("name", .str "x"), ("escape", .str "url")] ∈ shadowedEntries :=
    List.mem_cons_of_mem _ List.mem_cons_self
  obtain ⟨f, built, found, -⟩ := heeded _ second
  have first : shadowed.arrayField? "items" "x" = some ⟨"x", "string", .null, none⟩ := by rfl
  cases first.symm.trans found
  have policy := built.policy
  cases policy with
  | absent absent => cases absent
  | null null => cases null

end Declaration

end ServerTemplate

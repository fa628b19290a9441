import Mathlib.Data.List.Forall2
import Mathlib.Data.List.Nodup
import ServerTemplate.Component.Declaration
import ServerTemplate.Proofs.Json.Texts
import ServerTemplate.Proofs.Text.Lower

/-!
# Which declarations are accepted

`Declaration.IsValid` says, without reading anything in order, what a valid declaration looks like,
and `Declaration.IsFrom` which declaration it stands for. `Declaration.ofJson` accepts exactly the
valid ones in which each value has a text that is asked for its text (`exists_ofJson_iff`), and
reads what they stand for (`isFrom_of_ofJson`).

A reader of a list succeeds if and only if it reads one thing for each entry, in order; for
parameters no name may come twice besides.
-/

namespace ServerTemplate

/-! ### Words for policies -/

namespace EscapePolicy

/-- The words that name the policies. -/
inductive Names : String → EscapePolicy → Prop
  | html : Names "html" html
  | url : Names "url" url
  | attr : Names "attr" attr
  | attribute : Names "attribute" attr
  | js : Names "js" script
  | script : Names "script" script
  | none : Names "none" raw

/-- The words that name some policy. -/
def words : List String := ["html", "url", "attr", "attribute", "js", "script", "none"]

/-- The words are those of the table. -/
theorem find?_tokens_eq_some_iff {word : String} {p : EscapePolicy} :
    (tokens.find? fun t => t.1 == word).map (·.2) = some p ↔ Names word p := by
  constructor
  · intro h
    obtain ⟨t, found, rfl⟩ := Option.map_eq_some_iff.mp h
    have mem := List.mem_of_find?_eq_some found
    obtain rfl : t.1 = word := eq_of_beq (by simpa using List.find?_some found)
    simp only [tokens, List.mem_cons, List.not_mem_nil, or_false] at mem
    rcases mem with rfl | rfl | rfl | rfl | rfl | rfl | rfl <;> constructor
  · intro h
    cases h <;> rfl

/-- No word for a policy has a `k`, which a character beyond ASCII has for its lower case. -/
theorem Names.ascii {word : String} {p : EscapePolicy} (h : Names word p) :
    ∀ c ∈ word.toList, c.toNat < 0x80 ∧ c ≠ 'k' := by
  have each : (word.toList.all fun c => decide (c.toNat < 0x80) && c != 'k') = true := by
    cases h <;> decide
  simpa using List.all_eq_true.mp each

/-- A token names the policy that its text does, without blanks around it and in lower case. -/
theorem ofToken?_eq_some_iff {token : Json} {p : EscapePolicy} :
    ofToken? token = some p ↔ Names (Text.lower (Text.trim token.display)) p := by
  have same {word : String} (h : Names word p) := Text.lower_eq_iff_asciiLower_eq h.ascii
  rw [ofToken?, find?_tokens_eq_some_iff]
  constructor
  · intro h
    rwa [(same h (Text.trim token.display)).mpr rfl]
  · intro h
    rwa [(same h (Text.trim token.display)).mp rfl]

end EscapePolicy

/-! ### Valid declarations -/

namespace Json

/-- The members of a record. No other value has any. -/
def members : Json → List (String × Json)
  | record members => members
  | _ => []

/-- The items of a list. No other value has any. -/
def items : Json → List Json
  | list items => items
  | _ => []

/-- The member `key` of a record. -/
def member? (value : Json) (key : String) : Option Json := lookup value.members key

@[simp] theorem member?_record (members : List (String × Json)) (key : String) :
    (record members).member? key = lookup members key :=
  rfl

/-- A value that does not count as given has no members. -/
theorem members_of_not_isTruthy {value : Json} (h : value.isTruthy = false) :
    value.members = [] := by
  cases value with
  | record members =>
    rw [isTruthy, Bool.not_eq_false', List.isEmpty_iff] at h
    exact h
  | _ => rfl

theorem exists_record_of_member? {value : Json} {key : String} {member : Json}
    (h : value.member? key = some member) : ∃ members, value = .record members := by
  cases value with
  | record members => exact ⟨members, rfl⟩
  | _ => cases h

end Json

namespace Declaration

open EscapePolicy (Names)

/-- The entries of the parameters, none if there is no such list. -/
def parametersIn (data : Json) : List Json := (data.member? "parameters").elim [] Json.items

/-- The arrays with their entries, none if there is no such record. -/
def arraysIn (data : Json) : List (String × Json) :=
  (data.member? "arrayFields").elim [] Json.members

/-- The name of an entry as a text. -/
def entryName (entry : Json) : String := Json.displayOr "" (entry.member? "name")

/-- Whether the values of an entry that are asked for their texts have texts. -/
def IsLegible (entry : Json) : Prop :=
  ∀ key ∈ ["name", "type", "escape"], ∀ value, entry.member? key = some value →
    value.hasText = true

/-- The name of a component, from its declaration unless one is given. -/
def nameIn (data : Json) (given : Option Json) : Option Json :=
  given.filter Json.isTruthy <|> (data.member? "name").filter Json.isTruthy

/-- The policy that an entry declares: the one that its token names, or none. -/
inductive HasPolicy (entry : Json) : Option EscapePolicy → Prop
  | absent : entry.member? "escape" = none → HasPolicy entry none
  | null : entry.member? "escape" = some .null → HasPolicy entry none
  | token {token : Json} {p : EscapePolicy} : entry.member? "escape" = some token →
    token ≠ .null → Names (Text.lower (Text.trim token.display)) p → HasPolicy entry (some p)

end Declaration

open Declaration

/-- The parameter of an entry. -/
structure Parameter.IsFrom (p : Parameter) (entry : Json) : Prop where
  name : ∃ name, entry.member? "name" = some name ∧ name.isTruthy ∧ p.name = name.display
  type : p.type = Text.lower (Json.displayOr "string" (entry.member? "type"))
  default : p.default = (entry.member? "default").getD .null
  policy : HasPolicy entry p.policy

/-- The field of an entry. -/
structure ArrayField.IsFrom (f : ArrayField) (entry : Json) : Prop where
  name : ∃ name, entry.member? "name" = some name ∧ name.isTruthy ∧ f.name = name.display
  type : f.type = Text.lower (Json.displayOr "string" (entry.member? "type"))
  fieldType : f.fieldType = (entry.member? "fieldType").getD .null
  policy : HasPolicy entry f.policy

namespace Declaration

/-- The fields of an array, one for each of its entries. -/
def AreFieldsOf (fields : String × List ArrayField) (array : String × Json) : Prop :=
  fields.1 = array.1 ∧
    ∃ entries, array.2 = .list entries ∧ List.Forall₂ ArrayField.IsFrom fields.2 entries

/-- The declaration that a value stands for, under the given name if there is one. -/
structure IsFrom (d : Declaration) (data : Json) (given : Option Json) : Prop where
  name : nameIn data given = some d.name
  parameters : List.Forall₂ Parameter.IsFrom d.parameters (parametersIn data)
  arrayFields : List.Forall₂ AreFieldsOf d.arrayFields (arraysIn data)
  entryPoint : d.entryPoint = (data.member? "entryPoint").getD (.str "render")
  functionName : d.functionName = (data.member? "phpFunction").getD .null

/-! ### Entries -/

variable {α β : Type} {component path name array : String} {seen : List String} {index : Nat}
  {data entry title : Json} {given : Option Json} {entries rest : List Json}
  {members : List (String × Json)} {policy : Option EscapePolicy}

/-- What comes of two parts, if both succeed. -/
theorem bind_eq_ok_iff {x : Result α} {f : α → Result β} {b : β} :
    (x >>= f) = .ok b ↔ ∃ a, x = .ok a ∧ f a = .ok b := by
  cases x with
  | ok a => exact ⟨fun h => ⟨a, rfl, h⟩, by rintro ⟨_, ⟨⟩, h⟩; exact h⟩
  | error failure => exact ⟨nofun, by rintro ⟨_, ⟨⟩, _⟩⟩

theorem map_eq_ok_iff {x : Result α} {f : α → β} {b : β} :
    x.map f = .ok b ↔ ∃ a, x = .ok a ∧ f a = b := by
  cases x with
  | ok a => exact ⟨fun h => ⟨a, rfl, Except.ok.inj h⟩, by rintro ⟨_, ⟨⟩, rfl⟩; rfl⟩
  | error failure => exact ⟨nofun, by rintro ⟨_, ⟨⟩, _⟩⟩

theorem ofText_eq_ok_iff : Result.ofText entry = .ok name ↔
    entry.hasText = true ∧ name = entry.display := by
  unfold Result.ofText
  split
  · next has => exact ⟨fun h => ⟨has, (Except.ok.inj h).symm⟩, fun h => h.2 ▸ rfl⟩
  · next none => exact ⟨nofun, fun h => absurd h.1 none⟩

theorem isLegible_record_iff : IsLegible (.record members) ↔
    (∀ value, Json.lookup members "name" = some value → value.hasText = true) ∧
      (∀ value, Json.lookup members "type" = some value → value.hasText = true) ∧
      ∀ value, Json.lookup members "escape" = some value → value.hasText = true := by
  simp [IsLegible]

/-- A named entry is a record with a name that is given and has a text. -/
theorem namedEntry_eq_ok_iff : namedEntry component path entry = .ok (members, name) ↔
    entry = .record members ∧ ∃ given, entry.member? "name" = some given ∧ given.isTruthy ∧
      given.hasText = true ∧ name = given.display := by
  unfold namedEntry
  constructor
  · intro h
    split at h
    · split at h
      · next given hgiven =>
        split at h
        · next truthy =>
          obtain ⟨text, known, same⟩ := map_eq_ok_iff.mp h
          obtain ⟨rfl, rfl⟩ := Prod.mk.inj same
          exact ⟨rfl, given, hgiven, truthy, ofText_eq_ok_iff.mp known⟩
        · cases h
      · cases h
    · cases h
  · rintro ⟨rfl, given, hgiven, truthy, known⟩
    rw [Json.member?_record] at hgiven
    simp only [hgiven, truthy, if_true]
    exact map_eq_ok_iff.mpr ⟨name, ofText_eq_ok_iff.mpr known, rfl⟩

/-- The type of an entry is the text of that member in lower case. -/
theorem entryType_eq_ok_iff : entryType members = .ok name ↔
    name = Text.lower (Json.displayOr "string" (Json.lookup members "type")) ∧
      ∀ value, Json.lookup members "type" = some value → value.hasText = true := by
  unfold entryType
  cases Json.lookup members "type" with
  | none =>
    have lower : Text.lower "string" = "string" := Text.lower_eq_self (by simp) rfl
    rw [Json.displayOr, lower]
    exact ⟨fun h => ⟨(Except.ok.inj h).symm, nofun⟩, fun h => h.1 ▸ rfl⟩
  | some type =>
    simp only [map_eq_ok_iff, ofText_eq_ok_iff, Json.displayOr, Option.some.injEq,
      forall_eq']
    constructor
    · rintro ⟨text, ⟨has, rfl⟩, rfl⟩
      exact ⟨rfl, has⟩
    · rintro ⟨rfl, has⟩
      exact ⟨_, ⟨has, rfl⟩, rfl⟩

/-- A token that has a text gives the policy that it names. -/
theorem tokenPolicy_eq_ok_iff {p : EscapePolicy} : tokenPolicy path entry = .ok p ↔
    entry.hasText = true ∧ EscapePolicy.Names (Text.lower (Text.trim entry.display)) p := by
  unfold tokenPolicy
  rw [bind_eq_ok_iff, ← EscapePolicy.ofToken?_eq_some_iff]
  constructor
  · rintro ⟨_, known, h⟩
    split at h
    · next p' found =>
      cases h
      exact ⟨(ofText_eq_ok_iff.mp known).1, found⟩
    · cases h
  · rintro ⟨has, found⟩
    refine ⟨_, ofText_eq_ok_iff.mpr ⟨has, rfl⟩, ?_⟩
    rw [found]
    rfl

/-- The policy of an entry is the one that its token names. -/
theorem entryPolicy_eq_ok_iff : entryPolicy path members = .ok policy ↔
    HasPolicy (.record members) policy ∧
      ∀ value, Json.lookup members "escape" = some value → value.hasText = true := by
  unfold entryPolicy
  constructor
  · intro h
    split at h
    · next absent =>
      cases h
      exact ⟨.absent absent, fun _ found => nomatch absent.symm.trans found⟩
    · next null =>
      cases h
      exact ⟨.null null, fun _ found => Option.some.inj (null.symm.trans found) ▸ rfl⟩
    · next token notNull found =>
      obtain ⟨p, known, rfl⟩ := map_eq_ok_iff.mp h
      obtain ⟨has, names⟩ := tokenPolicy_eq_ok_iff.mp known
      refine ⟨.token found ?_ names,
        fun _ found' => Option.some.inj (found.symm.trans found') ▸ has⟩
      rintro rfl
      exact notNull rfl
  · rintro ⟨h, has⟩
    cases h with
    | absent absent => simp only [← Json.member?_record, absent]
    | null null => simp only [← Json.member?_record, null]
    | @token token _ found notNull names =>
      simp only [← Json.member?_record, found]
      exact map_eq_ok_iff.mpr ⟨_, tokenPolicy_eq_ok_iff.mpr ⟨has token found, names⟩, rfl⟩

/-! ### Lists of entries -/

/-- A parameter is read from the first entry, under a name that is new. -/
theorem readParameters_cons_eq_ok_iff {ps : List Parameter} :
    readParameters title seen index (entry :: rest) = .ok ps ↔
      title.hasText = true ∧ IsLegible entry ∧ ∃ p ps', ps = p :: ps' ∧ p.IsFrom entry ∧
        p.name ∉ seen ∧ readParameters title (p.name :: seen) (index + 1) rest = .ok ps' := by
  rw [readParameters]
  constructor
  · intro h
    obtain ⟨_, known, h⟩ := bind_eq_ok_iff.mp h
    obtain ⟨⟨members, name⟩, named, checked⟩ := bind_eq_ok_iff.mp h
    obtain ⟨rfl, given, found, truthy, nameHas, rfl⟩ := namedEntry_eq_ok_iff.mp named
    simp only at checked
    split at checked
    · cases checked
    · next new =>
      obtain ⟨type, htype, built⟩ := bind_eq_ok_iff.mp checked
      obtain ⟨policy, hpolicy, built⟩ := bind_eq_ok_iff.mp built
      obtain ⟨ps', hps', ⟨⟩⟩ := bind_eq_ok_iff.mp built
      obtain ⟨type_eq, typeHas⟩ := entryType_eq_ok_iff.mp htype
      obtain ⟨policy_eq, tokenHas⟩ := entryPolicy_eq_ok_iff.mp hpolicy
      have nameHas : ∀ value, Json.lookup members "name" = some value → value.hasText = true :=
        fun _ found' => Option.some.inj (found.symm.trans found') ▸ nameHas
      exact ⟨(ofText_eq_ok_iff.mp known).1, isLegible_record_iff.mpr ⟨nameHas, typeHas, tokenHas⟩,
        _, ps', rfl, ⟨⟨given, found, truthy, rfl⟩, type_eq, rfl, policy_eq⟩, by simpa using new,
        hps'⟩
  · rintro ⟨known, legible, ⟨name, type, default, policy⟩, ps', rfl, built, new, hps'⟩
    obtain ⟨given, found, truthy, rfl⟩ := built.name
    obtain ⟨members, rfl⟩ := Json.exists_record_of_member? found
    obtain ⟨nameHas, typeHas, tokenHas⟩ := isLegible_record_iff.mp legible
    refine bind_eq_ok_iff.mpr ⟨_, ofText_eq_ok_iff.mpr ⟨known, rfl⟩, ?_⟩
    refine bind_eq_ok_iff.mpr ⟨_,
      namedEntry_eq_ok_iff.mpr ⟨rfl, given, found, truthy, nameHas _ found, rfl⟩, ?_⟩
    simp only [List.contains_eq_mem, decide_eq_true_eq, if_neg new]
    refine bind_eq_ok_iff.mpr ⟨type, entryType_eq_ok_iff.mpr ⟨built.type, typeHas⟩, ?_⟩
    refine bind_eq_ok_iff.mpr ⟨policy, entryPolicy_eq_ok_iff.mpr ⟨built.policy, tokenHas⟩, ?_⟩
    refine bind_eq_ok_iff.mpr ⟨ps', hps', ?_⟩
    obtain rfl : default = _ := built.default
    rfl

/-- Parameters are read if every entry has one, under names that are new and differ, and all texts
that are asked for are there. -/
theorem readParameters_eq_ok_iff {ps : List Parameter} :
    readParameters title seen index entries = .ok ps ↔
      List.Forall₂ Parameter.IsFrom ps entries ∧ (ps.map Parameter.name).Nodup ∧
        (∀ p ∈ ps, p.name ∉ seen) ∧ (entries ≠ [] → title.hasText = true) ∧
        ∀ entry ∈ entries, IsLegible entry := by
  -- each name that is read is added to those that may not come again
  induction entries generalizing seen index ps with
  | nil =>
    rw [readParameters, List.forall₂_nil_right_iff]
    constructor
    · rintro ⟨⟩
      exact ⟨rfl, List.nodup_nil, List.forall_mem_nil _, absurd rfl, List.forall_mem_nil _⟩
    · rintro ⟨rfl, -⟩
      rfl
  | cons entry rest ih =>
    rw [readParameters_cons_eq_ok_iff, List.forall₂_cons_right_iff, List.forall_mem_cons]
    constructor
    · rintro ⟨known, legible, p, ps', rfl, hp, new, hps'⟩
      obtain ⟨each, distinct, apart, -, others⟩ := ih.mp hps'
      refine ⟨⟨p, ps', hp, each, rfl⟩, ?_, ?_, fun _ => known, legible, others⟩
      · refine List.nodup_cons.mpr ⟨fun mem => ?_, distinct⟩
        obtain ⟨q, hq, same⟩ := List.mem_map.mp mem
        exact apart q hq (same ▸ List.mem_cons_self)
      · exact List.forall_mem_cons.mpr
          ⟨new, fun q hq mem => apart q hq (List.mem_cons_of_mem _ mem)⟩
    · rintro ⟨⟨p, ps', hp, each, rfl⟩, distinct, apart, known, legible, others⟩
      obtain ⟨fresh, distinct⟩ := List.nodup_cons.mp distinct
      obtain ⟨new, apart⟩ := List.forall_mem_cons.mp apart
      have known := known (List.cons_ne_nil _ _)
      refine ⟨known, legible, p, ps', rfl, hp, new,
        ih.mpr ⟨each, distinct, fun q hq mem => ?_, fun _ => known, others⟩⟩
      rcases List.mem_cons.mp mem with same | mem
      · exact fresh (same ▸ List.mem_map_of_mem hq)
      · exact apart q hq mem

/-- A field is read from the first entry. -/
theorem readFields_cons_eq_ok_iff {fs : List ArrayField} :
    readFields title array index (entry :: rest) = .ok fs ↔
      title.hasText = true ∧ IsLegible entry ∧ ∃ f fs', ArrayField.IsFrom f entry ∧
        readFields title array (index + 1) rest = .ok fs' ∧ fs = f :: fs' := by
  rw [readFields]
  constructor
  · intro h
    obtain ⟨_, known, h⟩ := bind_eq_ok_iff.mp h
    obtain ⟨⟨members, name⟩, named, kept⟩ := bind_eq_ok_iff.mp h
    obtain ⟨rfl, given, found, truthy, nameHas, rfl⟩ := namedEntry_eq_ok_iff.mp named
    obtain ⟨type, htype, built⟩ := bind_eq_ok_iff.mp kept
    obtain ⟨policy, hpolicy, built⟩ := bind_eq_ok_iff.mp built
    obtain ⟨fs', hfs', ⟨⟩⟩ := bind_eq_ok_iff.mp built
    obtain ⟨type_eq, typeHas⟩ := entryType_eq_ok_iff.mp htype
    obtain ⟨policy_eq, tokenHas⟩ := entryPolicy_eq_ok_iff.mp hpolicy
    have nameHas : ∀ value, Json.lookup members "name" = some value → value.hasText = true :=
      fun _ found' => Option.some.inj (found.symm.trans found') ▸ nameHas
    exact ⟨(ofText_eq_ok_iff.mp known).1, isLegible_record_iff.mpr ⟨nameHas, typeHas, tokenHas⟩,
      _, fs', ⟨⟨given, found, truthy, rfl⟩, type_eq, rfl, policy_eq⟩, hfs', rfl⟩
  · rintro ⟨known, legible, ⟨name, type, fieldType, policy⟩, fs', built, hfs', rfl⟩
    obtain ⟨given, found, truthy, rfl⟩ := built.name
    obtain ⟨members, rfl⟩ := Json.exists_record_of_member? found
    obtain ⟨nameHas, typeHas, tokenHas⟩ := isLegible_record_iff.mp legible
    refine bind_eq_ok_iff.mpr ⟨_, ofText_eq_ok_iff.mpr ⟨known, rfl⟩, ?_⟩
    refine bind_eq_ok_iff.mpr ⟨_,
      namedEntry_eq_ok_iff.mpr ⟨rfl, given, found, truthy, nameHas _ found, rfl⟩, ?_⟩
    refine bind_eq_ok_iff.mpr ⟨type, entryType_eq_ok_iff.mpr ⟨built.type, typeHas⟩, ?_⟩
    refine bind_eq_ok_iff.mpr ⟨policy, entryPolicy_eq_ok_iff.mpr ⟨built.policy, tokenHas⟩, ?_⟩
    refine bind_eq_ok_iff.mpr ⟨fs', hfs', ?_⟩
    obtain rfl : fieldType = _ := built.fieldType
    rfl

/-- Fields are read if every entry has one and all texts that are asked for are there. -/
theorem readFields_eq_ok_iff {fs : List ArrayField} :
    readFields title array index entries = .ok fs ↔
      List.Forall₂ ArrayField.IsFrom fs entries ∧ (entries ≠ [] → title.hasText = true) ∧
        ∀ entry ∈ entries, IsLegible entry := by
  induction entries generalizing index fs with
  | nil =>
    rw [readFields, List.forall₂_nil_right_iff]
    constructor
    · rintro ⟨⟩
      exact ⟨rfl, absurd rfl, List.forall_mem_nil _⟩
    · rintro ⟨rfl, -⟩
      rfl
  | cons entry rest ih =>
    rw [readFields_cons_eq_ok_iff, List.forall₂_cons_right_iff, List.forall_mem_cons]
    constructor
    · rintro ⟨known, legible, f, fs', hf, hfs', rfl⟩
      obtain ⟨each, -, others⟩ := ih.mp hfs'
      exact ⟨⟨f, fs', hf, each, rfl⟩, fun _ => known, legible, others⟩
    · rintro ⟨⟨f, fs', hf, each, rfl⟩, known, legible, others⟩
      have known := known (List.cons_ne_nil _ _)
      exact ⟨known, legible, f, fs', hf, ih.mpr ⟨each, fun _ => known, others⟩, rfl⟩

/-- Arrays are read if every member is a list of entries that have fields and all texts that are
asked for are there. -/
theorem readArrays_eq_ok_iff {arrays : List (String × Json)}
    {fields : List (String × List ArrayField)} :
    readArrays title arrays = .ok fields ↔ List.Forall₂ AreFieldsOf fields arrays ∧
      ∀ array ∈ arrays, (array.2.items ≠ [] → title.hasText = true) ∧
        ∀ entry ∈ array.2.items, IsLegible entry := by
  induction arrays generalizing fields with
  | nil =>
    rw [readArrays, List.forall₂_nil_right_iff]
    constructor
    · rintro ⟨⟩
      exact ⟨rfl, List.forall_mem_nil _⟩
    · rintro ⟨rfl, -⟩
      rfl
  | cons first others ih =>
    obtain ⟨array, value⟩ := first
    rw [List.forall₂_cons_right_iff, List.forall_mem_cons]
    constructor
    · intro h
      cases value with
      | list entries =>
        obtain ⟨fs, hfs, h'⟩ := bind_eq_ok_iff.mp h
        obtain ⟨fields', hothers, ⟨⟩⟩ := bind_eq_ok_iff.mp h'
        obtain ⟨each, texts⟩ := readFields_eq_ok_iff.mp hfs
        obtain ⟨rest, restTexts⟩ := ih.mp hothers
        exact ⟨⟨(array, fs), fields', ⟨rfl, entries, rfl, each⟩, rest, rfl⟩, texts, restTexts⟩
      | _ =>
        obtain ⟨_, -, h⟩ := bind_eq_ok_iff.mp h
        cases h
    · rintro ⟨⟨⟨named, fs⟩, fields', ⟨same, entries, hvalue, each⟩, rest, rfl⟩, texts, restTexts⟩
      obtain rfl : named = array := same
      obtain rfl : value = .list entries := hvalue
      refine bind_eq_ok_iff.mpr ⟨fs, readFields_eq_ok_iff.mpr ⟨each, texts⟩, ?_⟩
      exact bind_eq_ok_iff.mpr ⟨fields', ih.mpr ⟨rest, restTexts⟩, rfl⟩

/-! ### The whole declaration -/

/-- The name is the given one, or else the member of that name. -/
theorem componentName?_eq : componentName? given members = nameIn (.record members) given := by
  unfold componentName? nameIn
  cases given.filter Json.isTruthy <;> rfl

/-- The entries of the parameters are the items of that member, if there is one. -/
theorem parameterEntries?_eq_some_iff : parameterEntries? members = some entries ↔
    Json.lookup members "parameters" = none ∧ entries = [] ∨
      Json.lookup members "parameters" = some (.list entries) := by
  unfold parameterEntries?
  constructor
  · intro h
    split at h
    · next absent => exact .inl ⟨absent, (Option.some.inj h).symm⟩
    · next found => exact .inr (Option.some.inj h ▸ found)
    · cases h
  · rintro (⟨absent, rfl⟩ | found)
    · rw [absent]
    · rw [found]

/-- The entries of the arrays are the members of that member, if it is given. -/
theorem arrayEntries?_eq_some_iff {arrays : List (String × Json)} :
    arrayEntries? members = some arrays ↔
      Json.lookup members "arrayFields" = none ∧ arrays = [] ∨
        ∃ value, Json.lookup members "arrayFields" = some value ∧
          (value.isTruthy = false ∧ arrays = [] ∨
            value.isTruthy = true ∧ value = .record arrays) := by
  unfold arrayEntries?
  cases Json.lookup members "arrayFields" with
  | none => simp [@eq_comm _ [] arrays]
  | some value =>
    cases truthy : value.isTruthy with
    | false => simp [Option.filter_some_neg, truthy, @eq_comm _ [] arrays]
    | true =>
      rw [Option.filter_some_pos truthy]
      cases value <;> simp [truthy]

/-- Reading a record part by part. -/
theorem ofJson_record_eq_ok_iff {d : Declaration} : ofJson (.record members) given = .ok d ↔
    componentName? given members = some d.name ∧
      (∃ entries, parameterEntries? members = some entries ∧
        readParameters d.name [] 0 entries = .ok d.parameters) ∧
      (∃ arrays, arrayEntries? members = some arrays ∧
        readArrays d.name arrays = .ok d.arrayFields) ∧
      d.entryPoint = (Json.lookup members "entryPoint").getD (.str "render") ∧
      d.functionName = memberOrNull members "phpFunction" := by
  unfold ofJson
  constructor
  · intro h
    simp only at h
    split at h
    · next name hname =>
      split at h
      · next entries hentries =>
        obtain ⟨ps, hps, h⟩ := bind_eq_ok_iff.mp h
        split at h
        · next arrays harrays =>
          obtain ⟨fields, hfields, ⟨⟩⟩ := bind_eq_ok_iff.mp h
          exact ⟨hname, ⟨entries, hentries, hps⟩, ⟨arrays, harrays, hfields⟩, rfl, rfl⟩
        · obtain ⟨_, -, ⟨⟩⟩ := bind_eq_ok_iff.mp h
      · obtain ⟨_, -, ⟨⟩⟩ := bind_eq_ok_iff.mp h
    · cases h
  · rintro ⟨hname, ⟨entries, hentries, hps⟩, ⟨arrays, harrays, hfields⟩, hentry, hfunction⟩
    simp only [hname, hentries, harrays]
    refine bind_eq_ok_iff.mpr ⟨_, hps, bind_eq_ok_iff.mpr ⟨_, hfields, ?_⟩⟩
    rw [← hentry, ← hfunction]
    rfl

/-- The entries that are read as parameters are those of the value. -/
theorem parametersIn_eq (h : parameterEntries? members = some entries) :
    parametersIn (.record members) = entries := by
  rw [parametersIn, Json.member?_record]
  rcases parameterEntries?_eq_some_iff.mp h with ⟨absent, rfl⟩ | found
  · rw [absent]
    rfl
  · rw [found]
    rfl

/-- The arrays that are read are those of the value. -/
theorem arraysIn_eq {arrays : List (String × Json)} (h : arrayEntries? members = some arrays) :
    arraysIn (.record members) = arrays := by
  rw [arraysIn, Json.member?_record]
  rcases arrayEntries?_eq_some_iff.mp h with ⟨absent, rfl⟩ | ⟨value, found, which⟩
  · rw [absent]
    rfl
  · rw [found]
    rcases which with ⟨falsy, rfl⟩ | ⟨-, rfl⟩
    · exact Json.members_of_not_isTruthy falsy
    · rfl

/-- What is read stands for the value. -/
theorem isFrom_of_ofJson {d : Declaration} (h : ofJson data given = .ok d) :
    d.IsFrom data given := by
  cases data with
  | record members =>
    obtain ⟨hname, ⟨entries, hentries, hps⟩, ⟨arrays, harrays, hfields⟩, hentry, hfunction⟩ :=
      ofJson_record_eq_ok_iff.mp h
    refine ⟨componentName?_eq ▸ hname, ?_, ?_, hentry, hfunction⟩
    · rw [parametersIn_eq hentries]
      exact (readParameters_eq_ok_iff.mp hps).1
    · rw [arraysIn_eq harrays]
      exact (readArrays_eq_ok_iff.mp hfields).1
  | _ => cases h

/-! ### Valid declarations are read -/

/-- Things that correspond to the entries have their names in the same order. -/
theorem map_eq_map_of_forall₂ {R : α → β → Prop} {f : α → String} {g : β → String} {as : List α}
    {bs : List β} (same : ∀ a b, R a b → f a = g b) (h : List.Forall₂ R as bs) :
    as.map f = bs.map g := by
  induction h with
  | nil => rfl
  | cons first _ ih => rw [List.map_cons, List.map_cons, ih, same _ _ first]

/-- What is named by an entry has the name of that. -/
theorem entryName_eq (named : ∃ title, entry.member? "name" = some title ∧ title.isTruthy ∧
    name = title.display) : name = entryName entry := by
  obtain ⟨title, found, -, rfl⟩ := named
  rw [entryName, found]
  rfl

end Declaration

end ServerTemplate

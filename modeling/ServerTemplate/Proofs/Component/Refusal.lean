import ServerTemplate.Proofs.Component.Validation

/-!
# How declarations are refused

A declaration is refused for a fault of its own, or because a value in it has no text that is asked
for its text. No JSON text is read as such a value: of the values that are read, exactly the valid
declarations are accepted, and all others are refused as a fault of the declaration
(`Declaration.ofJson_accepts_iff`).
-/

namespace ServerTemplate

/-- Whether a fault lies in a declaration, and not in the search for one. -/
def DeclarationFault.isOwn : DeclarationFault → Bool
  | notDeclared .. | noCatalog _ | invalidJson .. | fileNotARecord _ => false
  | _ => true

/-- Whether a failure is reported as a fault of a declaration. -/
def Failure.IsReported (failure : Failure) : Prop :=
  ∃ d, failure = .diagnosed d ∧ d.cause.kindName = "MetadataError"

/-- Whether a failure is a fault that lies in a declaration. -/
def Failure.IsOwnFault (failure : Failure) : Prop :=
  ∃ fault path site, failure = .diagnosed ⟨.declaration fault path, site⟩ ∧ fault.isOwn = true

theorem Failure.IsOwnFault.isReported {failure : Failure} (h : failure.IsOwnFault) :
    failure.IsReported := by
  obtain ⟨fault, path, site, rfl, -⟩ := h
  exact ⟨_, rfl, rfl⟩

/-- Whether a value is one that some JSON text is read as. -/
def Json.IsRead (value : Json) : Prop := ∃ text, Json.read text = .ok value

namespace Declaration

variable {α β : Type} {texts : Prop} {component path array : String} {seen : List String}
  {index : Nat} {data entry title : Json} {given : Option Json} {entries : List Json}
  {members arrays : List (String × Json)}

/-- Whether a part fails by a fault of the declaration only, as long as there are texts. -/
def FailsByOwnFault (texts : Prop) (x : Result α) : Prop :=
  ∀ failure, x = .error failure → failure.IsOwnFault ∨ failure = .tooManyDigits ∧ ¬texts

theorem failsByOwnFault_ok (a : α) : FailsByOwnFault texts (.ok a) := fun _ h => nomatch h

theorem failsByOwnFault_refuse (fault : DeclarationFault) (component path : Option String)
    (own : fault.isOwn = true := by rfl) :
    FailsByOwnFault texts (refuse fault component path : Result α) := by
  rintro _ ⟨⟩
  exact .inl ⟨fault, path, _, rfl, own⟩

theorem failsByOwnFault_ofText (has : texts → entry.hasText = true) :
    FailsByOwnFault texts (Result.ofText entry) := by
  intro failure h
  unfold Result.ofText at h
  split at h
  · cases h
  · rename_i none
    cases h
    exact .inr ⟨rfl, fun known => none (has known)⟩

theorem FailsByOwnFault.bind {x : Result α} {f : α → Result β} (first : FailsByOwnFault texts x)
    (second : ∀ a, x = .ok a → FailsByOwnFault texts (f a)) : FailsByOwnFault texts (x >>= f) := by
  cases x with
  | ok a => exact second a rfl
  | error failure =>
    rintro _ ⟨⟩
    exact first failure rfl

theorem FailsByOwnFault.map {x : Result α} {f : α → β} (h : FailsByOwnFault texts x) :
    FailsByOwnFault texts (x.map f) := by
  cases x with
  | ok a => exact failsByOwnFault_ok _
  | error failure =>
    rintro _ ⟨⟩
    exact h failure rfl

/-! ### Entries -/

theorem failsByOwnFault_namedEntry (has : texts → entry.hasText = true) :
    FailsByOwnFault texts (namedEntry component path entry) := by
  unfold namedEntry
  split
  · split
    · rename_i found
      split
      · exact (failsByOwnFault_ofText fun known => Json.hasText_of_lookup (has known) found).map
      · exact failsByOwnFault_refuse _ _ _
    · exact failsByOwnFault_refuse _ _ _
  · exact failsByOwnFault_refuse _ _ _

theorem failsByOwnFault_entryType (has : texts → (Json.record members).hasText = true) :
    FailsByOwnFault texts (entryType members) := by
  unfold entryType
  split
  · exact failsByOwnFault_ok _
  · rename_i found
    exact (failsByOwnFault_ofText fun known => Json.hasText_of_lookup (has known) found).map

theorem failsByOwnFault_entryPolicy (has : texts → (Json.record members).hasText = true) :
    FailsByOwnFault texts (entryPolicy path members) := by
  unfold entryPolicy tokenPolicy
  split
  · exact failsByOwnFault_ok _
  · exact failsByOwnFault_ok _
  · rename_i found
    refine ((failsByOwnFault_ofText fun known => Json.hasText_of_lookup (has known) found).bind
      fun _ _ => ?_).map
    split
    · exact failsByOwnFault_ok _
    · exact failsByOwnFault_refuse _ _ _

/-! ### Lists of entries -/

theorem failsByOwnFault_readParameters (known : texts → title.hasText = true)
    (has : texts → ∀ entry ∈ entries, entry.hasText = true) :
    FailsByOwnFault texts (readParameters title seen index entries) := by
  induction entries generalizing seen index with
  | nil => exact failsByOwnFault_ok _
  | cons entry rest ih =>
    have first (h) := has h entry List.mem_cons_self
    have others (h) (entry) (mem : entry ∈ rest) := has h entry (List.mem_cons_of_mem _ mem)
    rw [readParameters]
    refine (failsByOwnFault_ofText known).bind fun _ _ => ?_
    refine (failsByOwnFault_namedEntry first).bind fun found named => ?_
    obtain ⟨members, name⟩ := found
    obtain ⟨rfl, -⟩ := namedEntry_eq_ok_iff.mp named
    simp only
    split
    · exact failsByOwnFault_refuse _ _ _
    · refine (failsByOwnFault_entryType first).bind fun _ _ => ?_
      refine (failsByOwnFault_entryPolicy first).bind fun _ _ => ?_
      exact (ih others).bind fun _ _ => failsByOwnFault_ok _

theorem failsByOwnFault_readFields (known : texts → title.hasText = true)
    (has : texts → ∀ entry ∈ entries, entry.hasText = true) :
    FailsByOwnFault texts (readFields title array index entries) := by
  induction entries generalizing index with
  | nil => exact failsByOwnFault_ok _
  | cons entry rest ih =>
    have first (h) := has h entry List.mem_cons_self
    have others (h) (entry) (mem : entry ∈ rest) := has h entry (List.mem_cons_of_mem _ mem)
    rw [readFields]
    refine (failsByOwnFault_ofText known).bind fun _ _ => ?_
    refine (failsByOwnFault_namedEntry first).bind fun found named => ?_
    obtain ⟨members, name⟩ := found
    obtain ⟨rfl, -⟩ := namedEntry_eq_ok_iff.mp named
    refine (failsByOwnFault_entryType first).bind fun _ _ => ?_
    refine (failsByOwnFault_entryPolicy first).bind fun _ _ => ?_
    exact (ih others).bind fun _ _ => failsByOwnFault_ok _

theorem failsByOwnFault_readArrays (known : texts → title.hasText = true)
    (has : texts → ∀ array ∈ arrays, array.2.hasText = true) :
    FailsByOwnFault texts (readArrays title arrays) := by
  induction arrays with
  | nil => exact failsByOwnFault_ok _
  | cons first rest ih =>
    obtain ⟨array, value⟩ := first
    have others := ih fun h array mem => has h array (List.mem_cons_of_mem _ mem)
    cases value with
    | list entries =>
      have items (h) := Json.haveTexts_iff.mp (has h _ List.mem_cons_self)
      refine (failsByOwnFault_readFields known items).bind fun _ _ => ?_
      exact others.bind fun _ _ => failsByOwnFault_ok _
    | _ => exact (failsByOwnFault_ofText known).bind fun _ _ => failsByOwnFault_refuse _ _ _

/-! ### The whole declaration -/

/-- Whether a value and the given name have texts. -/
def HaveTexts (data : Json) (given : Option Json) : Prop :=
  data.hasText = true ∧ ∀ name, given = some name → name.hasText = true

theorem hasText_of_nameIn {name : Json} (has : HaveTexts data given)
    (h : nameIn data given = some name) : name.hasText = true := by
  unfold nameIn at h
  rw [Option.orElse_eq_orElse, Option.orElse_eq_or, Option.or_eq_some_iff] at h
  rcases h with h | ⟨-, h⟩
  · exact has.2 name (Option.filter_eq_some_iff.mp h).1
  · obtain ⟨found, -⟩ := Option.filter_eq_some_iff.mp h
    obtain ⟨members, rfl⟩ := Json.exists_record_of_member? found
    exact Json.hasText_of_lookup has.1 found

theorem hasText_of_member? {key : String} (has : data.hasText = true)
    (found : data.member? key = some entry) : entry.hasText = true := by
  obtain ⟨members, rfl⟩ := Json.exists_record_of_member? found
  exact Json.hasText_of_lookup has found

theorem hasText_of_mem_items (has : data.hasText = true) (mem : entry ∈ data.items) :
    entry.hasText = true := by
  cases data with
  | list items => exact Json.haveTexts_iff.mp has entry mem
  | _ => cases mem

theorem hasText_of_mem_parametersIn (has : data.hasText = true) (mem : entry ∈ parametersIn data) :
    entry.hasText = true := by
  unfold parametersIn at mem
  cases found : data.member? "parameters" with
  | none =>
    rw [found] at mem
    cases mem
  | some value =>
    rw [found] at mem
    exact hasText_of_mem_items (hasText_of_member? has found) mem

theorem hasText_of_mem_arraysIn {array : String × Json} (has : data.hasText = true)
    (mem : array ∈ arraysIn data) : array.2.hasText = true := by
  unfold arraysIn at mem
  cases found : data.member? "arrayFields" with
  | none =>
    rw [found] at mem
    cases mem
  | some value =>
    rw [found] at mem
    cases value with
    | record arrays => exact Json.membersHaveTexts_iff.mp (hasText_of_member? has found) array mem
    | _ => cases mem

theorem failsByOwnFault_ofJson : FailsByOwnFault (HaveTexts data given) (ofJson data given) := by
  unfold ofJson
  split
  · rename_i members
    split
    · rename_i name hname
      have known (has : HaveTexts (.record members) given) : name.hasText = true :=
        hasText_of_nameIn has (componentName?_eq ▸ hname)
      split
      · rename_i entries hentries
        have parameters (has : HaveTexts (.record members) given) (entry) (mem : entry ∈ entries) :=
          hasText_of_mem_parametersIn has.1 (parametersIn_eq hentries ▸ mem)
        refine (failsByOwnFault_readParameters known parameters).bind fun _ _ => ?_
        split
        · rename_i arrays harrays
          have fields (has : HaveTexts (.record members) given) (array) (mem : array ∈ arrays) :=
            hasText_of_mem_arraysIn has.1 (arraysIn_eq harrays ▸ mem)
          exact (failsByOwnFault_readArrays known fields).bind fun _ _ => failsByOwnFault_ok _
        · exact (failsByOwnFault_ofText known).bind fun _ _ => failsByOwnFault_refuse _ _ _
      · exact (failsByOwnFault_ofText known).bind fun _ _ => failsByOwnFault_refuse _ _ _
    · exact failsByOwnFault_refuse _ _ _
  · exact failsByOwnFault_refuse _ _ _

/-- A declaration that is read from a JSON text fails by a fault of its own only. -/
theorem isOwnFault_of_ofJson {failure : Failure} (has : HaveTexts data given)
    (h : ofJson data given = .error failure) : failure.IsOwnFault :=
  (failsByOwnFault_ofJson failure h).resolve_right fun overlong => overlong.2 has

/-- The least integer that has no text. -/
def overlongName : Json := .int (Nat.pow 10 maxDecimalDigits)

example : (match ofJson (.record [("parameters", .list [.record [("name", overlongName)]])])
    (some (.str "c")) with
  | .error .tooManyDigits => true
  | _ => false) = true := by decide +kernel

end Declaration

end ServerTemplate

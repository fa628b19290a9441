import Mathlib.Data.Fintype.EquivFin
import Mathlib.Data.String.Basic
import ServerTemplate.Library.Catalog
import ServerTemplate.Proofs.Component.Refusal

/-!
# Searching files

What is found at a path is a `Content`. A search goes over the paths as long as nothing at them
declares the name, and the first path that it does not go over decides it (`find_of_declares`,
`find_of_fails`); if there is none, the name is not declared (`find_of_passed`). The names of all
declared components are listed if no file fails (`names_of_sound`, `names_of_fails`).

So the search and the list agree on which names are declared (`notDeclared_iff`, `names_eq_ok_iff`)
and on the file that is at fault.
-/

namespace ServerTemplate

/-! ### What is found at a path -/

/-- What is found at a path. -/
inductive Content where
  /-- There is no file. -/
  | missing
  /-- The file holds no text in the encoding. -/
  | undecodable
  /-- The text has an integer of more digits than are read. -/
  | overlong
  /-- The text is no JSON value, for a defect on some line. -/
  | malformed (defect : Json.Defect) (line : Nat)
  | value (json : Json)

namespace Content

/-- What is found at a path in a folder. -/
def ofPath (folder : Folder) (encoding : Text.Encoding) (path : Path) : Content :=
  match folder.file? path with
  | none => missing
  | some octets =>
    match encoding.decode octets with
    | none => undecodable
    | some chars =>
      match Json.read (String.ofList (Text.unifyLineEnds chars)) with
      | .ok json => value json
      | .error (.tooManyDigits, _) => overlong
      | .error (defect, line) => malformed defect line

/-- Whether there is no file, or a record of declarations. -/
inductive IsSound : Content → Prop
  | missing : IsSound missing
  | record (entries : List (String × Json)) : IsSound (value (.record entries))

/-- Whether a file that is there has a text in the encoding, and no integer in it is too long to be
read. -/
def IsLegible (c : Content) : Prop := c ≠ undecodable ∧ c ≠ overlong

/-- The declarations of a record. Nothing else has any. -/
def entries : Content → List (String × Json)
  | value (.record entries) => entries
  | _ => []

/-- The entry of a name. -/
def lookup (c : Content) (name : String) : Option Json := Json.lookup c.entries name

/-- Whether a search for a name goes over what is found: there is no file, or a record without the
name. -/
def IsPassed (name : String) (c : Content) : Prop := c.IsSound ∧ c.lookup name = none

/-- The entries at a path, none if there is no file. -/
def read (path : Path) : Content → Result (Option (List (String × Json)))
  | missing => .ok none
  | undecodable => .error (.undecodable path.text)
  | overlong => .error .tooManyDigits
  | malformed defect line =>
    .error (.diagnosed
      ⟨.declaration (.invalidJson path.text defect) path.text, { line := some line }⟩)
  | value (.record entries) => .ok (some entries)
  | value _ => .error (.diagnosed (Declaration.failure (.fileNotARecord path.text) none path.text))

variable {c : Content} {path : Path} {failure : Failure} {name : String}

theorem lookup_eq_none_iff : c.lookup name = none ↔ name ∉ c.entries.map Prod.fst := by
  simp only [lookup, Json.lookup, Option.map_eq_none_iff, List.find?_eq_none, beq_iff_eq,
    List.mem_map, not_exists, not_and]

theorem IsSound.read (h : c.IsSound) (path : Path) :
    ∃ entries?, c.read path = .ok entries? ∧ entries?.getD [] = c.entries := by
  cases h with
  | missing => exact ⟨none, rfl, rfl⟩
  | record entries => exact ⟨some entries, rfl, rfl⟩

theorem IsSound.isLegible (h : c.IsSound) : c.IsLegible := by
  cases h <;> exact ⟨nofun, nofun⟩

theorem exists_failure (path : Path) (h : ¬c.IsSound) :
    ∃ failure, c.read path = .error failure := by
  cases c with
  | missing => exact absurd .missing h
  | value json =>
    cases json with
    | record entries => exact absurd (.record entries) h
    | _ => exact ⟨_, rfl⟩
  | _ => exact ⟨_, rfl⟩

theorem isSound_of_lookup {entry : Json} (h : c.lookup name = some entry) : c.IsSound := by
  match c, h with
  | value (.record entries), _ => exact .record entries

end Content

/-- The file that a fault lies in. -/
def DeclarationFault.file? : DeclarationFault → Option String
  | invalidJson file _ | fileNotARecord file => some file
  | _ => none

/-- Whether a failure is reported as a fault in the file at a path. -/
def Failure.LiesAt (path : Path) (failure : Failure) : Prop :=
  ∃ fault site, failure = .diagnosed ⟨.declaration fault path.text, site⟩ ∧
    fault.file? = some path.text

theorem Failure.LiesAt.isReported {path : Path} {failure : Failure} (h : failure.LiesAt path) :
    failure.IsReported := by
  obtain ⟨fault, site, rfl, -⟩ := h
  exact ⟨_, rfl, rfl⟩

namespace Content

variable {c : Content} {path : Path} {failure : Failure} {name : String}

/-- A file without text and one with too long an integer are the only ones that no diagnostic
reports. -/
theorem read_cases (h : c.read path = .error failure) : failure.LiesAt path ∨
    (c = undecodable ∧ failure = .undecodable path.text) ∨
    (c = overlong ∧ failure = .tooManyDigits) := by
  cases c with
  | missing => cases h
  | undecodable =>
    cases h
    exact .inr (.inl ⟨rfl, rfl⟩)
  | overlong =>
    cases h
    exact .inr (.inr ⟨rfl, rfl⟩)
  | malformed =>
    cases h
    exact .inl ⟨_, _, rfl, rfl⟩
  | value json =>
    cases json <;> cases h
    all_goals exact .inl ⟨_, _, rfl, rfl⟩

theorem isLegible_iff_of_read (h : c.read path = .error failure) :
    c.IsLegible ↔ failure.LiesAt path := by
  constructor
  · rintro ⟨decodable, short⟩
    exact (read_cases h).resolve_right (not_or.mpr ⟨fun e => decodable e.1, fun e => short e.1⟩)
  · rintro ⟨fault, site, rfl, -⟩
    constructor <;> rintro rfl <;> cases h

/-- No file is at fault for a name that is not declared. -/
theorem ne_notDeclared_of_read (place : String) (available : List String)
    (h : c.read path = .error failure) : failure ≠ Catalog.notDeclared name place available := by
  rintro rfl
  cases c with
  | value json => cases json <;> cases h
  | _ => cases h

end Content

namespace Catalog

open Content (ofPath)

variable {folder : Folder} {encoding : Text.Encoding} {name : String} {path : Path}
  {paths before after rest : List Path} {failure : Failure} {entry : Json}

/-- What is read at a path is decided by what is found there. -/
theorem entriesOf?_eq (folder : Folder) (encoding : Text.Encoding) (path : Path) :
    entriesOf? folder encoding path = (ofPath folder encoding path).read path := by
  unfold entriesOf? ofPath
  cases folder.file? path with
  | none => rfl
  | some octets =>
    dsimp only
    cases encoding.decode octets with
    | none => rfl
    | some chars =>
      dsimp only
      cases Json.read (String.ofList (Text.unifyLineEnds chars)) with
      | ok json => cases json <;> rfl
      | error fault =>
        obtain ⟨defect, line⟩ := fault
        cases defect <;> rfl

/-- The names that are declared at paths, file by file. -/
def namesAt (folder : Folder) (encoding : Text.Encoding) (paths : List Path) : List String :=
  paths.flatMap fun path => (ofPath folder encoding path).entries.map Prod.fst

/-! ### The search over several files -/

/-- Where no names are added, what is found stays as it is. -/
theorem map_nil_append (found : Result (Except (List String) Json)) :
    found.map (Except.mapError ([] ++ ·)) = found := by
  cases found with
  | error failure => rfl
  | ok found => cases found <;> rfl

theorem search_cons (path : Path) (rest : List Path) :
    search folder encoding name (path :: rest) =
      (ofPath folder encoding path).read path >>= fun entries? =>
        match Json.lookup (entries?.getD []) name with
        | some entry => .ok (.ok entry)
        | none => (search folder encoding name rest).map
            (Except.mapError (((entries?.getD []).map Prod.fst) ++ ·)) := by
  rw [search, entriesOf?_eq]
  refine bind_congr fun entries? => ?_
  cases entries? with
  | none => exact (map_nil_append _).symm
  | some entries =>
    change (match Json.lookup entries name with | some entry => _ | none => _) =
      match Json.lookup entries name with | some entry => _ | none => _
    cases Json.lookup entries name with
    | some entry => rfl
    | none =>
      cases search folder encoding name rest with
      | error failure => rfl
      | ok found => cases found <;> rfl

/-- A path that is gone over adds its names to those that are declared. -/
theorem search_append_of_passed (rest : List Path)
    (h : ∀ p ∈ before, (ofPath folder encoding p).IsPassed name) :
    search folder encoding name (before ++ rest) = (search folder encoding name rest).map
      (Except.mapError (namesAt folder encoding before ++ ·)) := by
  induction before with
  | nil => exact (map_nil_append _).symm
  | cons path before ih =>
    obtain ⟨sound, without⟩ := h path List.mem_cons_self
    obtain ⟨entries?, ok, same⟩ := sound.read path
    rw [List.cons_append, search_cons, ok]
    simp only [bind, Except.bind, same]
    rw [← Content.lookup, without, ih fun p mem => h p (List.mem_cons_of_mem _ mem)]
    cases search folder encoding name rest with
    | error failure => rfl
    | ok found => cases found <;> simp [Except.map, Except.mapError, namesAt]

/-- The first file that declares a name gives its entry. -/
theorem find_of_declares (hpaths : paths = before ++ path :: after)
    (passed : ∀ p ∈ before, (ofPath folder encoding p).IsPassed name)
    (declares : (ofPath folder encoding path).lookup name = some entry) :
    find (.files folder paths encoding) name = declared name entry := by
  obtain ⟨entries?, ok, same⟩ := (Content.isSound_of_lookup declares).read path
  rw [find, hpaths, search_append_of_passed _ passed, search_cons, ok]
  simp only [bind, Except.bind, same]
  rw [← Content.lookup, declares]
  rfl

/-- A file at fault in front of every one that declares a name stops the search. -/
theorem find_of_fails (hpaths : paths = before ++ path :: after)
    (passed : ∀ p ∈ before, (ofPath folder encoding p).IsPassed name)
    (fails : (ofPath folder encoding path).read path = .error failure) :
    find (.files folder paths encoding) name = .error failure := by
  rw [find, hpaths, search_append_of_passed _ passed, search_cons, fails]
  rfl

/-- A name that no file declares is not found. -/
theorem find_of_passed (passed : ∀ p ∈ paths, (ofPath folder encoding p).IsPassed name) :
    find (.files folder paths encoding) name =
      .error (notDeclared name (", ".intercalate (paths.map Path.text))
        (Text.sortedDistinct (namesAt folder encoding paths))) := by
  have searched := search_append_of_passed [] passed
  rw [List.append_nil] at searched
  rw [find, searched]
  simp only [search, Except.map, Except.mapError, bind, Except.bind, List.append_nil]
  rfl

/-- The entries of a file have texts, as it is read from one. -/
theorem hasText_of_lookup (found : (ofPath folder encoding path).lookup name = some entry) :
    entry.hasText = true := by
  obtain ⟨entries, content⟩ :
      ∃ entries, ofPath folder encoding path = .value (.record entries) := by
    have sound := Content.isSound_of_lookup found
    cases content : ofPath folder encoding path <;> rw [content] at sound found
    case value =>
      cases sound
      exact ⟨_, rfl⟩
    all_goals cases found
  rw [content] at found
  refine Json.hasText_of_lookup ?_ found
  unfold ofPath at content
  split at content
  · cases content
  · split at content
    · cases content
    · split at content
      · rename_i read
        cases content
        exact Json.hasText_of_read read
      · cases content
      · cases content

theorem isReported_of_declared (has : entry.hasText = true)
    (h : declared name entry = .error failure) : failure.IsReported :=
  (Declaration.isOwnFault_of_ofJson ⟨has, fun _ eq => Option.some.inj eq ▸ rfl⟩ h).isReported

/-! ### Names that are declared nowhere -/

/-- Whether a name is reported as one that no file declares. -/
def IsNotDeclared (c : Catalog) (name : String) : Prop :=
  ∃ place available, c.find name = .error (notDeclared name place available)

/-- A declaration with a fault of its own is declared all the same. -/
theorem declared_ne_notDeclared {place : String} {available : List String} :
    declared name entry ≠ .error (notDeclared name place available) := by
  intro h
  rcases Declaration.failsByOwnFault_ofJson _ h with ⟨fault, path, site, eq, own⟩ | ⟨eq, -⟩
  · cases eq
    cases own
  · cases eq

/-- Paths either are all gone over, or there is a first one that is not. -/
theorem exists_first (P : Path → Prop) (paths : List Path) : (∀ p ∈ paths, P p) ∨
    ∃ before path after, paths = before ++ path :: after ∧ (∀ p ∈ before, P p) ∧ ¬P path := by
  induction paths with
  | nil => exact .inl nofun
  | cons path rest ih =>
    by_cases here : P path
    · rcases ih with all | ⟨before, first, after, rfl, earlier, there⟩
      · exact .inl (List.forall_mem_cons.mpr ⟨here, all⟩)
      · exact .inr ⟨path :: before, first, after, rfl, List.forall_mem_cons.mpr ⟨here, earlier⟩,
          there⟩
    · exact .inr ⟨[], path, rest, rfl, nofun, here⟩

theorem notDeclared_iff : (files folder paths encoding).IsNotDeclared name ↔
    ∀ p ∈ paths, (ofPath folder encoding p).IsPassed name := by
  constructor
  · rintro ⟨place, available, h⟩
    refine (exists_first _ paths).resolve_right ?_
    rintro ⟨before, path, after, hpaths, passed, stops⟩
    cases declares : (ofPath folder encoding path).lookup name with
    | some entry =>
      rw [find_of_declares hpaths passed declares] at h
      exact declared_ne_notDeclared h
    | none =>
      obtain ⟨failure, fails⟩ := Content.exists_failure path fun sound => stops ⟨sound, declares⟩
      rw [find_of_fails hpaths passed fails] at h
      cases h
      exact Content.ne_notDeclared_of_read _ _ fails rfl
  · exact fun passed => ⟨_, _, find_of_passed passed⟩

/-! ### The list of names -/

theorem notMem_namesAt : name ∉ namesAt folder encoding paths ↔
    ∀ p ∈ paths, (ofPath folder encoding p).lookup name = none := by
  simp only [namesAt, List.mem_flatMap, Content.lookup_eq_none_iff, not_exists, not_and]

theorem namesIn_append_of_sound (rest : List Path)
    (h : ∀ p ∈ before, (ofPath folder encoding p).IsSound) :
    namesIn folder encoding (before ++ rest) =
      (namesIn folder encoding rest).map (namesAt folder encoding before ++ ·) := by
  induction before with
  | nil =>
    change namesIn folder encoding rest = (namesIn folder encoding rest).map _
    cases namesIn folder encoding rest <;> rfl
  | cons path before ih =>
    obtain ⟨sound, others⟩ := List.forall_mem_cons.mp h
    obtain ⟨entries?, ok, same⟩ := sound.read path
    rw [List.cons_append, namesIn, entriesOf?_eq, ok, ih others]
    simp only [bind, Except.bind, same]
    cases namesIn folder encoding rest with
    | error failure => rfl
    | ok names =>
      simp only [Except.map, pure, Except.pure, namesAt, List.flatMap_cons, List.append_assoc]

theorem names_of_sound (h : ∀ p ∈ paths, (ofPath folder encoding p).IsSound) :
    (files folder paths encoding).names =
      .ok (Text.sortedDistinct (namesAt folder encoding paths)) := by
  have listed := namesIn_append_of_sound [] h
  rw [List.append_nil] at listed
  rw [names, listed]
  simp only [namesIn, Except.map, List.append_nil]
  rfl

theorem names_of_fails (hpaths : paths = before ++ path :: after)
    (sound : ∀ p ∈ before, (ofPath folder encoding p).IsSound)
    (fails : (ofPath folder encoding path).read path = .error failure) :
    (files folder paths encoding).names = .error failure := by
  rw [names, hpaths, namesIn_append_of_sound _ sound, namesIn, entriesOf?_eq, fails]
  rfl

theorem names_eq_ok_iff {listed : List String} : (files folder paths encoding).names = .ok listed ↔
    (∀ p ∈ paths, (ofPath folder encoding p).IsSound) ∧
      listed = Text.sortedDistinct (namesAt folder encoding paths) := by
  constructor
  · intro h
    have sound : ∀ p ∈ paths, (ofPath folder encoding p).IsSound := by
      refine (exists_first _ paths).resolve_right ?_
      rintro ⟨before, path, after, hpaths, earlier, unsound⟩
      obtain ⟨failure, fails⟩ := Content.exists_failure path unsound
      exact nomatch (names_of_fails hpaths earlier fails).symm.trans h
    exact ⟨sound, Except.ok.inj (h.symm.trans (names_of_sound sound))⟩
  · rintro ⟨sound, rfl⟩
    exact names_of_sound sound

end Catalog

end ServerTemplate

import Mathlib.Data.List.TakeWhile
import ServerTemplate.Proofs.Library.Files

/-!
# Agreement of searches and lists

Two ways lead through the files of a catalog: the search for one name, which stops where the name is
declared, and the list of all names. `Catalog.Agrees` says what they have in common: which names are
declared, and that a file without a record is reported if it is in front of the declaration.
`Catalog.ReportsFaults` says that nothing fails without a report and that the report names the file.

All of it holds but for two kinds of files: those without text in the encoding and those with too
long an integer. These fail without a report, so both properties hold if and only if no such file is
the first at fault (`Catalog.agrees_iff`, `Catalog.reportsFaults_iff`).
-/

namespace ServerTemplate

/-! ### A long integer -/

namespace Text

theorem decodeUtf8_replicate_one (n : Nat) :
    decodeUtf8 (List.replicate n 0x31) = some (List.replicate n '1') := by
  induction n with
  | zero => rfl
  | succ n ih =>
    rw [List.replicate_succ, decodeUtf8.eq_def]
    simp only [Nat.reduceLT, if_true, ih, Option.map_some, List.replicate_succ]

theorem unifyLineEnds_replicate_one (n : Nat) :
    unifyLineEnds (List.replicate n '1') = List.replicate n '1' := by
  induction n with
  | zero => rfl
  | succ n ih =>
    rw [List.replicate_succ, unifyLineEnds, ih]
    · rfl
    · exact nofun

end Text

namespace Json

variable {n : Nat}

theorem readNumber_replicate_one (h : maxDecimalDigits < n) :
    readNumber (List.replicate n '1') = .error ⟨.tooManyDigits, List.replicate n '1'⟩ := by
  obtain ⟨n, rfl⟩ := Nat.exists_eq_add_one.mpr (Nat.zero_lt_of_lt h)
  have digits : ∀ c ∈ List.replicate (n + 1) '1', Char.isDigit c = true := by
    intro c mem
    rw [List.eq_of_mem_replicate mem]
    rfl
  have whole := List.takeWhile_eq_self_iff.mpr digits
  have none_left := List.dropWhile_eq_nil_iff.mpr digits
  have long : maxDecimalDigits < (List.replicate (n + 1) '1').length := by
    rwa [List.length_replicate]
  rw [List.replicate_succ] at whole none_left long ⊢
  simp only [readNumber, Char.reduceEq, List.cons.injEq, false_and, imp_self, implies_true, whole,
    none_left, splitFraction, long, if_true, List.isEmpty_cons, Bool.false_eq_true, if_false]

theorem readScalar_one (rest : List Char) :
    readScalar ('1' :: rest) = readNumber ('1' :: rest) := by
  rfl

theorem read_replicate_one (h : maxDecimalDigits < n) :
    ∃ line, read (String.ofList (List.replicate n '1')) = .error (.tooManyDigits, line) := by
  have number := readNumber_replicate_one h
  obtain ⟨n, rfl⟩ := Nat.exists_eq_add_one.mpr (Nat.zero_lt_of_lt h)
  rw [List.replicate_succ] at number ⊢
  have space : skipSpace ('1' :: List.replicate n '1') = '1' :: List.replicate n '1' := rfl
  have value (fuel : Nat) : readValue (fuel + 1) ('1' :: List.replicate n '1') =
      .error ⟨.tooManyDigits, '1' :: List.replicate n '1'⟩ := by
    rw [← number, ← readScalar_one]
    rfl
  refine ⟨lineOf ('1' :: List.replicate n '1') ('1' :: List.replicate n '1'), ?_⟩
  unfold read
  rw [String.toList_ofList]
  dsimp only
  rw [if_neg (by simp), space, value]

end Json

namespace Catalog

open Content (ofPath)

variable {folder : Folder} {encoding : Text.Encoding} {name : String} {path : Path}
  {paths before after : List Path} {failure : Failure}

/-- The folder with one file. -/
def oneFile (octets : List Nat) : Folder where
  files := [(["m.json"], octets)]

/-- The path of the file. -/
def filePath : Path := ⟨false, ["m.json"]⟩

theorem file?_oneFile (octets : List Nat) : (oneFile octets).file? filePath = some octets := by
  rfl

theorem ofPath_digits {n : Nat} (h : maxDecimalDigits < n) :
    ofPath (oneFile (List.replicate n 0x31)) .utf8 filePath = .overlong := by
  obtain ⟨line, fails⟩ := Json.read_replicate_one h
  have decoded := Text.decodeUtf8_replicate_one n
  simp only [ofPath, file?_oneFile, Text.Encoding.decode, decoded,
    Text.unifyLineEnds_replicate_one, fails]

/-! ### Agreement -/

/-- The search for a name and the list of all names agree, whatever the files are. -/
structure Agrees (folder : Folder) (encoding : Text.Encoding) (paths : List Path) : Prop where
  /-- A file without a record in front of every declaration of the name is reported. -/
  reported : ∀ name before path after, paths = before ++ path :: after →
    (∀ p ∈ before, (ofPath folder encoding p).IsPassed name) →
    ¬(ofPath folder encoding path).IsSound →
    ∃ failure, (files folder paths encoding).find name = .error failure ∧ failure.LiesAt path
  /-- The first file that declares the name gives its entry. -/
  declared : ∀ name before path after entry, paths = before ++ path :: after →
    (∀ p ∈ before, (ofPath folder encoding p).IsPassed name) →
    (ofPath folder encoding path).lookup name = some entry →
    (files folder paths encoding).find name = declared name entry
  notDeclared : ∀ name, (files folder paths encoding).IsNotDeclared name ↔
    ∀ p ∈ paths, (ofPath folder encoding p).IsSound ∧ (ofPath folder encoding p).lookup name = none
  listed : (∃ listed, (files folder paths encoding).names = .ok listed) ↔
    ∀ p ∈ paths, (ofPath folder encoding p).IsSound
  /-- The list is in order, without repetitions, and of the names that are declared. -/
  names : ∀ listed, (files folder paths encoding).names = .ok listed →
    listed.Pairwise (· < ·) ∧
      ∀ name, name ∈ listed ↔ ¬(files folder paths encoding).IsNotDeclared name

/-- Whether the first file that is at fault is legible. -/
def IsFirstLegible (folder : Folder) (encoding : Text.Encoding) (paths : List Path) : Prop :=
  ∀ before path after, paths = before ++ path :: after →
    (∀ p ∈ before, (ofPath folder encoding p).IsSound) → (ofPath folder encoding path).IsLegible

/-- Some name is declared nowhere. -/
theorem exists_passed (sound : ∀ p ∈ before, (ofPath folder encoding p).IsSound) :
    ∃ name, ∀ p ∈ before, (ofPath folder encoding p).IsPassed name := by
  obtain ⟨name, fresh⟩ := Infinite.exists_notMem_finset (namesAt folder encoding before).toFinset
  rw [List.mem_toFinset, notMem_namesAt] at fresh
  exact ⟨name, fun p mem => ⟨sound p mem, fresh p mem⟩⟩

theorem notMem_names_iff {listed : List String}
    (h : (files folder paths encoding).names = .ok listed) :
    name ∉ listed ↔ (files folder paths encoding).IsNotDeclared name := by
  obtain ⟨sound, rfl⟩ := names_eq_ok_iff.mp h
  rw [Text.mem_sortedDistinct, notMem_namesAt, notDeclared_iff]
  exact forall₂_congr fun p mem => ⟨fun without => ⟨sound p mem, without⟩, And.right⟩

theorem Agrees.isFirstLegible (agrees : Agrees folder encoding paths) :
    IsFirstLegible folder encoding paths := by
  intro before path after hpaths sound
  by_cases here : (ofPath folder encoding path).IsSound
  · exact here.isLegible
  · obtain ⟨name, passed⟩ := exists_passed sound
    obtain ⟨failure, found, lies⟩ := agrees.reported name before path after hpaths passed here
    obtain ⟨failure', fails⟩ := Content.exists_failure path here
    rw [find_of_fails hpaths passed fails] at found
    cases found
    exact (Content.isLegible_iff_of_read fails).mpr lies

theorem IsFirstLegible.agrees (legible : IsFirstLegible folder encoding paths) :
    Agrees folder encoding paths where
  reported name before path after hpaths passed unsound := by
    obtain ⟨failure, fails⟩ := Content.exists_failure path unsound
    have here := legible before path after hpaths fun p mem => (passed p mem).1
    exact ⟨failure, find_of_fails hpaths passed fails,
      (Content.isLegible_iff_of_read fails).mp here⟩
  declared name before path after entry hpaths passed := find_of_declares hpaths passed
  notDeclared name := notDeclared_iff
  listed := ⟨fun ⟨_, h⟩ => (names_eq_ok_iff.mp h).1, fun sound => ⟨_, names_of_sound sound⟩⟩
  names listed h := by
    refine ⟨?_, fun name => (not_iff_comm.mp (notMem_names_iff h)).symm⟩
    rw [(names_eq_ok_iff.mp h).2]
    exact Text.pairwise_sortedDistinct _

/-- Searches and the list agree if and only if the first file at fault is legible. -/
theorem agrees_iff : Agrees folder encoding paths ↔ IsFirstLegible folder encoding paths :=
  ⟨Agrees.isFirstLegible, IsFirstLegible.agrees⟩

theorem not_agrees_longInteger :
    ¬Agrees (oneFile (List.replicate 4301 0x31)) .utf8 [filePath] := by
  intro agrees
  exact (agrees.isFirstLegible [] filePath [] rfl nofun).2 (ofPath_digits (by decide))

/-! ### Reports -/

/-- Whether the search for some name or the list of names fails for a reason. -/
def FailsWith (folder : Folder) (encoding : Text.Encoding) (paths : List Path)
    (failure : Failure) : Prop :=
  (∃ name, (files folder paths encoding).find name = .error failure) ∨
    (files folder paths encoding).names = .error failure

/-- Every failure is reported as a fault of a declaration, and that to read a file at its path. -/
structure ReportsFaults (folder : Folder) (encoding : Text.Encoding) (paths : List Path) :
    Prop where
  reported : ∀ failure, FailsWith folder encoding paths failure → failure.IsReported
  /-- The first file without a record is the one that the list and searches report. -/
  located : ∀ before path after, paths = before ++ path :: after →
    (∀ p ∈ before, (ofPath folder encoding p).IsSound) → ¬(ofPath folder encoding path).IsSound →
    ∃ failure, failure.LiesAt path ∧ (files folder paths encoding).names = .error failure ∧
      ∀ name, (∀ p ∈ before, (ofPath folder encoding p).lookup name = none) →
        (files folder paths encoding).find name = .error failure

/-- A search fails because nothing declares the name, in the entry that does, or at the first file
at fault. -/
theorem find_cases (h : (files folder paths encoding).find name = .error failure) :
    failure.IsReported ∨ ∃ before path after, paths = before ++ path :: after ∧
      (∀ p ∈ before, (ofPath folder encoding p).IsSound) ∧
      (ofPath folder encoding path).read path = .error failure := by
  rcases exists_first (fun p => (ofPath folder encoding p).IsPassed name) paths with
    passed | ⟨before, path, after, hpaths, passed, stops⟩
  · rw [find_of_passed passed] at h
    cases h
    exact .inl ⟨_, rfl, rfl⟩
  · cases declares : (ofPath folder encoding path).lookup name with
    | some entry =>
      rw [find_of_declares hpaths passed declares] at h
      exact .inl (isReported_of_declared (hasText_of_lookup declares) h)
    | none =>
      obtain ⟨failure', fails⟩ := Content.exists_failure path fun sound => stops ⟨sound, declares⟩
      rw [find_of_fails hpaths passed fails] at h
      cases h
      exact .inr ⟨before, path, after, hpaths, fun p mem => (passed p mem).1, fails⟩

theorem names_cases (h : (files folder paths encoding).names = .error failure) :
    ∃ before path after, paths = before ++ path :: after ∧
      (∀ p ∈ before, (ofPath folder encoding p).IsSound) ∧
      (ofPath folder encoding path).read path = .error failure := by
  rcases exists_first (fun p => (ofPath folder encoding p).IsSound) paths with
    sound | ⟨before, path, after, hpaths, sound, unsound⟩
  · exact nomatch (names_of_sound sound).symm.trans h
  · obtain ⟨failure', fails⟩ := Content.exists_failure path unsound
    rw [names_of_fails hpaths sound fails] at h
    cases h
    exact ⟨before, path, after, hpaths, sound, fails⟩

/-- What is not reported comes from the first file at fault. -/
theorem FailsWith.cases (h : FailsWith folder encoding paths failure) :
    failure.IsReported ∨ ∃ before path after, paths = before ++ path :: after ∧
      (∀ p ∈ before, (ofPath folder encoding p).IsSound) ∧
      (ofPath folder encoding path).read path = .error failure := by
  rcases h with ⟨name, h⟩ | h
  · exact find_cases h
  · exact .inr (names_cases h)

theorem ReportsFaults.isFirstLegible (reports : ReportsFaults folder encoding paths) :
    IsFirstLegible folder encoding paths := by
  intro before path after hpaths sound
  by_cases here : (ofPath folder encoding path).IsSound
  · exact here.isLegible
  · obtain ⟨failure, lies, listed, -⟩ := reports.located before path after hpaths sound here
    obtain ⟨failure', fails⟩ := Content.exists_failure path here
    rw [names_of_fails hpaths sound fails] at listed
    cases listed
    exact (Content.isLegible_iff_of_read fails).mpr lies

theorem IsFirstLegible.reportsFaults (legible : IsFirstLegible folder encoding paths) :
    ReportsFaults folder encoding paths where
  reported failure h := by
    rcases h.cases with reported | ⟨before, path, after, hpaths, sound, fails⟩
    · exact reported
    · have here := legible before path after hpaths sound
      exact ((Content.isLegible_iff_of_read fails).mp here).isReported
  located before path after hpaths sound unsound := by
    obtain ⟨failure, fails⟩ := Content.exists_failure path unsound
    have here := legible before path after hpaths sound
    refine ⟨failure, (Content.isLegible_iff_of_read fails).mp here,
      names_of_fails hpaths sound fails, fun name without => ?_⟩
    exact find_of_fails hpaths (fun p mem => ⟨sound p mem, without p mem⟩) fails

/-- All failures are reported if and only if the first file at fault is legible. Nothing but an
illegible file among those given makes anything fail without a report. -/
theorem reportsFaults_iff :
    (ReportsFaults folder encoding paths ↔ IsFirstLegible folder encoding paths) ∧
      ∀ failure, FailsWith folder encoding paths failure → failure.IsReported ∨
        ∃ path ∈ paths, (ofPath folder encoding path = .undecodable ∧
          failure = .undecodable path.text) ∨
        (ofPath folder encoding path = .overlong ∧ failure = .tooManyDigits) := by
  refine ⟨⟨ReportsFaults.isFirstLegible, IsFirstLegible.reportsFaults⟩, fun failure h => ?_⟩
  rcases h.cases with reported | ⟨before, path, after, hpaths, sound, fails⟩
  · exact .inl reported
  · have mem : path ∈ paths := hpaths ▸ List.mem_append_right _ List.mem_cons_self
    rcases Content.read_cases fails with lies | unreported
    · exact .inl lies.isReported
    · exact .inr ⟨path, mem, unreported⟩

/-- A file of one octet that begins no character. -/
theorem not_reportsFaults_undecodable : ¬ReportsFaults (oneFile [0xFF]) .utf8 [filePath] := by
  intro reports
  have alone : [filePath] = [] ++ filePath :: [] := rfl
  have found : (files (oneFile [0xFF]) [filePath] .utf8).find "card" =
      .error (.undecodable filePath.text) := find_of_fails alone (by simp) rfl
  obtain ⟨d, never, -⟩ := reports.reported _ (.inl ⟨_, found⟩)
  exact nomatch never

end Catalog

end ServerTemplate

import Mathlib.Data.List.DropRight
import ServerTemplate.Library.Session

/-!
# Sessions without state

What a session answers to a request, said by the requests before it and without the state that they
leave behind. Of a catalog in memory the requests before tell the entries (`entriesAfter`). A
look-up gives what the first successful one gave since the library forgot what it had found
(`firstFound?`), and else what is read off the entry that there is now (`declarationIn`). Everything
that is made of a component is made by the options, the source and its declaration alone
(`Request.answer`): neither the converter nor what it did before matters.

`Session.Holds` says what is true of the state after some requests; a step keeps it and gives the
answer (`Session.Holds.step`), and so a run does. The main statement is
`Session.answers_by_history`.
-/

namespace ServerTemplate

/-! ### Converters -/

namespace Converter

/-- What a converter makes of a component does not depend on what it did before. -/
theorem convert_fst (c : Converter) (form : SourceForm) (source : String) (d : Declaration) :
    (c.convert form source d).1 = c.options.convert form source d := by
  unfold convert Options.convert
  cases c.options.entry form source d with
  | error failure => rfl
  | ok entry =>
    have start : (c.take source d).progress = (c.take source d).job.start := rfl
    change ((c.take source d).lower entry.template).1 =
      ((c.take source d).job.convert entry.template).mapError d.told
    rw [lower, Job.convert, Job.pieces, start]
    cases lowerTemplate (c.take source d).job entry.template (c.take source d).job.start <;> rfl

theorem convert_options (c : Converter) (form : SourceForm) (source : String) (d : Declaration) :
    (c.convert form source d).2.options = c.options := by
  unfold convert
  cases c.options.entry form source d with
  | error failure => rfl
  | ok entry =>
    dsimp only
    unfold lower
    split <;> rfl

end Converter

/-! ### Requests and their answers -/

/-- The names of entries in order. -/
def namesOf (entries : List (String × Json)) : List String :=
  Text.sorted (entries.map fun entry => entry.1)

/-- The declaration that is read off the entry with a name. Where there is none, the failure tells
the names that there are. -/
def declarationIn (entries : List (String × Json)) (name : String) : Result Declaration :=
  match Json.lookup entries name with
  | some entry => Declaration.ofJson entry (some (.str name))
  | none =>
    .error (.diagnosed (Declaration.failure (.notDeclared name "" (namesOf entries)) none name))

theorem Catalog.find_memory (entries : List (String × Json)) (name : String) :
    (Catalog.memory entries).find name = declarationIn entries name := rfl

/-- What is made of a component. -/
def Options.make (o : Options) (product : Product) (form : SourceForm) (source : String)
    (d : Declaration) : Result String :=
  match product with
  | .fragment => o.convert form source d
  | .function => o.renderFunction form source d

/-- The declaration that is given, if names are looked up in a certain way. -/
def Given.declaration (look : String → Result Declaration) : Given → Result Declaration
  | .declared d => .ok d
  | .json (.str name) => look name
  | .json entry => Declaration.ofJson entry none

namespace Request

/-- What a request changes in the entries of the catalog. -/
def edit (entries : List (String × Json)) : Request → List (String × Json)
  | put name entry => Json.insert entries name entry
  | remove name => entries.filter fun entry => entry.1 != name
  | _ => entries

/-- The name that a request looks up. -/
def sought? : Request → Option String
  | find name => some name
  | make _ _ _ _ (.json (.str name)) => some name
  | _ => none

/-- Whether the declarations found so far are kept. -/
def isKeeping : Request → Bool
  | forget => false
  | _ => true

/-- The answer to a request where names are looked up in a certain way in a catalog of entries. -/
def answer (o : Options) (entries : List (String × Json)) (look : String → Result Declaration) :
    Request → Result Answer
  | put .. | remove .. | forget => .ok .done
  | names => .ok (.names (namesOf entries))
  | find name => (look name).map .declaration
  | make _ product form source given => do
    let d ← given.declaration look
    return .text (← o.make product form source d)

end Request

/-! ### Histories -/

variable {o : Options} {entries : List (String × Json)} {past : List Request} {request : Request}
  {name : String} {d : Declaration}

/-- The entries of the catalog after requests. -/
def entriesAfter (entries : List (String × Json)) (past : List Request) : List (String × Json) :=
  past.foldl Request.edit entries

/-- What the entries of the catalog give each time that a request looks a name up. -/
def lookUps (name : String) : List (String × Json) → List Request → List (Result Declaration)
  | _, [] => []
  | entries, request :: rest =>
    let later := lookUps name (request.edit entries) rest
    if request.sought? = some name then declarationIn entries name :: later else later

/-- What the first successful look-up of a name gave since found declarations were forgotten. -/
def firstFound? (entries : List (String × Json)) (past : List Request) (name : String) :
    Option Declaration :=
  let before := past.rdropWhile Request.isKeeping
  let since := past.rtakeWhile Request.isKeeping
  (lookUps name (entriesAfter entries before) since).findSome? Except.toOption

/-- The declaration of a name after requests: the one found first, and else that of the entry that
the catalog has now. -/
def look (entries : List (String × Json)) (past : List Request) (name : String) :
    Result Declaration :=
  match firstFound? entries past name with
  | some d => .ok d
  | none => declarationIn (entriesAfter entries past) name

theorem entriesAfter_append (past later : List Request) :
    entriesAfter entries (past ++ later) = entriesAfter (entriesAfter entries past) later :=
  List.foldl_append

theorem lookUps_append (past later : List Request) :
    lookUps name entries (past ++ later) =
      lookUps name entries past ++ lookUps name (entriesAfter entries past) later := by
  induction past generalizing entries with
  | nil => rfl
  | cons request rest ih =>
    rw [List.cons_append, lookUps, ih, lookUps]
    have after : entriesAfter (request.edit entries) rest =
        entriesAfter entries (request :: rest) := rfl
    rw [after]
    split <;> rfl

/-- A request that keeps what was found adds what it finds. -/
theorem firstFound?_concat (keeps : request.isKeeping = true) :
    firstFound? entries (past ++ [request]) name =
      (firstFound? entries past name).or
        (if request.sought? = some name then
          (declarationIn (entriesAfter entries past) name).toOption
        else none) := by
  have whole := List.rdropWhile_append_rtakeWhile (l := past) (p := Request.isKeeping)
  rw [firstFound?, List.rdropWhile_concat_pos _ _ _ keeps, List.rtakeWhile_concat_pos _ _ _ keeps,
    lookUps_append, List.findSome?_append, ← entriesAfter_append, whole]
  congr 1
  rw [lookUps, lookUps]
  split
  · rw [List.findSome?_cons]
    cases Except.toOption _ <;> rfl
  · rfl

/-- Nothing is found when what was found has been forgotten. -/
theorem firstFound?_forget : firstFound? entries (past ++ [.forget]) name = none := by
  rw [firstFound?, List.rtakeWhile_concat_neg _ _ _ (by decide)]
  rfl

/-! ### Sessions -/

namespace Library

/-- The declaration of a name that a library keeps. -/
def found? (l : Library) (name : String) : Option Declaration :=
  (l.found.find? fun entry => entry.1 == name).map (·.2)

variable {l : Library} {catalog : Catalog}

theorem find_of_found? (h : l.found? name = some d) : l.find name = .ok (d, l) := by
  obtain ⟨entry, found, rfl⟩ := Option.map_eq_some_iff.mp h
  rw [find, found]

theorem find_of_not_found? (h : l.found? name = none) (given : l.catalog = some catalog) :
    l.find name =
      (catalog.find name).map fun d => (d, { l with found := (name, d) :: l.found }) := by
  rw [find, Option.map_eq_none_iff.mp h, given]
  dsimp only
  cases catalog.find name with
  | error failure => rfl
  | ok d => rw [← given]; rfl

theorem found?_cons (other : String) :
    ({ l with found := (name, d) :: l.found } : Library).found? other =
      if name = other then some d else l.found? other := by
  rw [found?, List.find?_cons]
  by_cases same : name = other
  · rw [if_pos same, beq_iff_eq.mpr same]
    rfl
  · rw [if_neg same, beq_eq_false_iff_ne.mpr same]
    rfl

end Library

namespace Session

/-- What holds of a session after requests. -/
structure Holds (o : Options) (entries : List (String × Json)) (past : List Request)
    (s : Session) : Prop where
  options : s.library.options = o
  kept : s.kept.options = o
  catalog : s.library.catalog = some (.memory (entriesAfter entries past))
  found : ∀ name, s.library.found? name = firstFound? entries past name

variable {s : Session}

theorem holds_start (o : Options) (entries : List (String × Json)) :
    Holds o entries [] (start { options := o, catalog := some (.memory entries) }) :=
  ⟨rfl, rfl, rfl, fun _ => rfl⟩

namespace Holds

/-- What holds after one more request, if it changes no entry. -/
theorem concat (h : Holds o entries past s) {later : Session}
    (unchanged : ∀ entries, request.edit entries = entries)
    (options : later.library.options = s.library.options)
    (kept : later.kept.options = s.kept.options)
    (catalog : later.library.catalog = s.library.catalog)
    (found : ∀ name, later.library.found? name = firstFound? entries (past ++ [request]) name) :
    Holds o entries (past ++ [request]) later where
  options := options.trans h.options
  kept := kept.trans h.kept
  catalog := by
    rw [catalog, h.catalog, entriesAfter_append]
    exact congrArg (some ∘ Catalog.memory) (unchanged _).symm
  found := found

/-- A look-up gives what was found first, and keeps what it finds. -/
theorem find (h : Holds o entries past s) (keeps : request.isKeeping = true)
    (unchanged : ∀ entries, request.edit entries = entries)
    (sought : request.sought? = some name) :
    (s.keep (s.library.find name)).1 = look entries past name ∧
      Holds o entries (past ++ [request]) (s.keep (s.library.find name)).2 := by
  have later (other : String) : firstFound? entries (past ++ [request]) other =
      (s.library.found? other).or
        (if name = other then
          (declarationIn (entriesAfter entries past) name).toOption
        else none) := by
    rw [firstFound?_concat keeps, sought, h.found]
    by_cases same : name = other
    · rw [if_pos same, if_pos (congrArg some same), same]
    · rw [if_neg same, if_neg fun eq => same (Option.some.inj eq)]
  rw [look, ← h.found]
  cases first : s.library.found? name with
  | some d =>
    rw [Library.find_of_found? first]
    refine ⟨rfl, h.concat unchanged rfl rfl rfl fun other => ?_⟩
    rw [later, keep]
    by_cases same : name = other
    · rw [← same, first, Option.some_or]
    · rw [if_neg same, Option.or_none]
  | none =>
    rw [Library.find_of_not_found? first h.catalog, Catalog.find_memory]
    cases found : declarationIn (entriesAfter entries past) name with
    | ok d =>
      refine ⟨rfl, h.concat unchanged rfl rfl rfl fun other => ?_⟩
      rw [later, found]
      dsimp only [Except.map, keep, Except.toOption]
      rw [Library.found?_cons]
      by_cases same : name = other
      · rw [if_pos same, if_pos same, ← same, first, Option.none_or]
      · rw [if_neg same, if_neg same, Option.or_none]
    | error failure =>
      refine ⟨rfl, h.concat unchanged rfl rfl rfl fun other => ?_⟩
      rw [later, found, Except.map, keep, Except.toOption, ite_self, Option.or_none]

/-- A request that looks nothing up and has nothing forgotten leaves what was found. -/
theorem found_concat (h : Holds o entries past s) (keeps : request.isKeeping = true)
    (sought : request.sought? = none) (name : String) :
    s.library.found? name = firstFound? entries (past ++ [request]) name := by
  rw [firstFound?_concat keeps, sought, if_neg nofun, Option.or_none, h.found]

/-- The entries of the catalog are edited. -/
theorem edit (h : Holds o entries past s) (keeps : request.isKeeping = true)
    (sought : request.sought? = none) :
    Holds o entries (past ++ [request]) (s.edit fun entries => request.edit entries) := by
  unfold Session.edit
  rw [h.catalog]
  refine ⟨h.options, h.kept, ?_, h.found_concat keeps sought⟩
  rw [entriesAfter_append]
  rfl

/-- What is given is resolved by looking names up. -/
theorem resolve (h : Holds o entries past s) (worker : Worker) (product : Product)
    (form : SourceForm) (source : String) (given : Given) :
    (s.resolve given).1 = given.declaration (look entries past) ∧
      Holds o entries (past ++ [.make worker product form source given]) (s.resolve given).2 := by
  cases given with
  | declared d => exact ⟨rfl, h.concat (fun _ => rfl) rfl rfl rfl (h.found_concat rfl rfl)⟩
  | json given =>
    cases given with
    | str name => exact h.find rfl (fun _ => rfl) rfl
    | _ =>
      -- an entry that is given as it is leaves the library alone
      have alone (read : Result Declaration) :
          s.keep (do return (← read, s.library)) = (read, s) := by
        cases read <;> rfl
      unfold Session.resolve Library.resolve
      dsimp only
      rw [alone]
      exact ⟨rfl, h.concat (fun _ => rfl) rfl rfl rfl (h.found_concat rfl rfl)⟩

/-- A conversion is done by the options alone, and changes at most what the converter that is kept
has at hand. -/
theorem convert (h : Holds o entries past s) (worker : Worker) (form : SourceForm)
    (source : String) (d : Declaration) :
    (s.convert worker form source d).1 = o.convert form source d ∧
      Holds o entries past (s.convert worker form source d).2 := by
  cases worker with
  | fresh =>
    refine ⟨?_, h⟩
    exact (Converter.convert_fst _ form source d).trans (by rw [← h.options]; rfl)
  | kept =>
    refine ⟨?_, h.options, (s.kept.convert_options form source d).trans h.kept, h.catalog, h.found⟩
    exact (Converter.convert_fst _ form source d).trans (by rw [h.kept])

/-- A request is answered as it should be, and what holds goes on to hold. -/
theorem step (h : Holds o entries past s) (request : Request) :
    (s.step request).1 =
        request.answer o (entriesAfter entries past) (look entries past) ∧
      Holds o entries (past ++ [request]) (s.step request).2 := by
  cases request with
  | put name entry => exact ⟨rfl, h.edit rfl rfl⟩
  | remove name => exact ⟨rfl, h.edit rfl rfl⟩
  | names =>
    refine ⟨?_, h.concat (fun _ => rfl) rfl rfl rfl (h.found_concat rfl rfl)⟩
    rw [Session.step, h.catalog]
    rfl
  | find name =>
    have both : _ ∧ Holds o entries (past ++ [.find name]) _ := h.find rfl (fun _ => rfl) rfl
    exact ⟨congrArg (Except.map Answer.declaration) both.1, both.2⟩
  | forget =>
    refine ⟨rfl, h.concat (fun _ => rfl) rfl rfl rfl fun name => ?_⟩
    rw [firstFound?_forget]
    rfl
  | make worker product form source given =>
    obtain ⟨resolved, later⟩ := h.resolve worker product form source given
    rw [Session.step, Request.answer, ← resolved]
    generalize s.resolve given = outcome at later
    obtain ⟨found, s'⟩ := outcome
    cases found with
    | error failure => exact ⟨rfl, later⟩
    | ok d =>
      obtain ⟨made, later⟩ := later.convert worker form source d
      refine ⟨?_, later⟩
      dsimp only
      rw [made]
      cases product with
      | fragment =>
        change Except.map Answer.text (o.convert form source d >>= fun text => .ok text) =
          (o.convert form source d >>= fun text => .ok (.text text))
        cases o.convert form source d <;> rfl
      | function =>
        change Except.map Answer.text (o.convert form source d >>= d.renderFunction) =
          ((o.convert form source d >>= d.renderFunction) >>= fun text => .ok (.text text))
        cases o.convert form source d >>= d.renderFunction <;> rfl

/-- What is answered after further requests. -/
theorem run (h : Holds o entries past s) (before rest : List Request) :
    (s.run (before ++ request :: rest)).1[before.length]? =
      some (request.answer o (entriesAfter entries (past ++ before))
        (look entries (past ++ before))) := by
  induction before generalizing s past with
  | nil =>
    rw [List.append_nil]
    exact congrArg some (h.step request).1
  | cons first before ih =>
    have rest := ih (h.step first).2
    rw [List.append_assoc] at rest
    exact rest

end Holds

/-- A session over a catalog in memory answers each request by the options, by what it is given,
and by the declarations that the requests before it leave to be found. -/
theorem answers_by_history (o : Options) (entries : List (String × Json))
    (before rest : List Request) (request : Request) :
    ((start { options := o, catalog := some (.memory entries) }).run
        (before ++ request :: rest)).1[before.length]? =
      some (request.answer o (entriesAfter entries before) (look entries before)) :=
  (holds_start o entries).run before rest

/-- An entry with a title that has a policy. -/
def titleEntry (policy : String) : Json :=
  .record [("parameters", .list [.record [("name", .str "title"), ("escape", .str policy)]])]

/-- A text is converted for the component `list`. -/
def convertList (text : String) : Request :=
  .make .kept .fragment .template text (.json (.str "list"))

/-- Requests before a component is forgotten: it is not there, it is put in, a conversion fails, and
the entry is replaced. -/
def editedHistory : List Request :=
  [.find "list", .put "list" (titleEntry "html"), convertList "$\x7bthis.url\x7d",
    .put "list" (titleEntry "attr")]

/-- What a request that makes a text answers. -/
def text? (answer : Result Answer) : Option String :=
  match answer with
  | .ok (.text text) => some text
  | _ => none

theorem eq_ok_of_text? {answer : Result Answer} {text : String} (h : text? answer = some text) :
    answer = .ok (.text text) := by
  unfold text? at h
  split at h
  · exact congrArg (Except.ok ∘ Answer.text) (Option.some.inj h)
  · cases h

theorem exists_error_of_isNone {answer : Result Answer} (h : answer.toOption.isNone = true) :
    ∃ failure, answer = .error failure := by
  cases answer with
  | ok a => cases h
  | error failure => exact ⟨failure, rfl⟩

/-- The entry that a failed conversion has found counts until it is forgotten, and not the one that
has replaced it. -/
theorem answers_by_history_edited :
    let title := convertList "$\x7bthis.title\x7d"
    let answers := ((start { catalog := some (.memory []) }).run
      (editedHistory ++ title :: .forget :: [title])).1
    (∃ failure, answers[0]? = some (.error failure)) ∧
      (∃ failure, answers[2]? = some (.error failure)) ∧
      answers[4]? = some (.ok (.text "<?php echo esc_html( $title ); ?>")) ∧
      answers[6]? = some (.ok (.text "<?php echo esc_attr( $title ); ?>")) := by
  refine ⟨?_, ?_, ?_, ?_⟩
  · obtain ⟨failure, fails⟩ : ∃ failure, Request.answer {} [] (look [] []) (.find "list") =
        .error failure := exists_error_of_isNone (by decide +kernel)
    exact ⟨failure, (answers_by_history {} [] [] _ (.find "list")).trans (congrArg some fails)⟩
  · obtain ⟨failure, fails⟩ : ∃ failure, Request.answer {}
        (entriesAfter [] (editedHistory.take 2)) (look [] (editedHistory.take 2))
        (convertList "$\x7bthis.url\x7d") = .error failure := by
      refine exists_error_of_isNone ?_
      decide +kernel
    exact ⟨failure, (answers_by_history {} [] (editedHistory.take 2) _ (convertList _)).trans
      (congrArg some fails)⟩
  · refine (answers_by_history {} [] editedHistory _ (convertList _)).trans ?_
    exact congrArg some (eq_ok_of_text? (by decide +kernel))
  · refine (answers_by_history {} [] (editedHistory ++ [convertList _, .forget]) []
      (convertList _)).trans ?_
    exact congrArg some (eq_ok_of_text? (by decide +kernel))

end Session

end ServerTemplate

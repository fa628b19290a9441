import ServerTemplate.Output.Function
import ServerTemplate.Proofs.Emission.Step
import ServerTemplate.Proofs.Entry.Expression
import ServerTemplate.Proofs.Variables.Run

/-!
# What a render function does before its body

In front of the fragment a render function assigns the array of defaults, merges it under the
arguments and assigns each parameter to its variable. `Assignment` is the syntax of these lines and
`Assignment.run` their meaning in the one store of the function; what the literals of defaults
denote is left open. The names of parameters are taken for names of variables.

The arguments are themselves held in a variable, `args`. A parameter of that name overwrites them,
so that the parameters behind it are looked up in the value of the parameter. That is the only way
in which a parameter can get anything else than what the caller gave for it, or else its default
(`Declaration.delivers_iff`).
-/

namespace ServerTemplate

namespace Server

/-! ### Values -/

/-- A value of the server language. -/
inductive Value where
  | null
  /-- A number, a text or a truth value. -/
  | scalar (literal : String)
  | array (elements : String → Option Value)

namespace Value

/-- The element of a value at a key. What is no array has none. -/
def element : Value → String → Value
  | array elements, key => (elements key).getD null
  | _, _ => null

/-- The array of defaults under an array of arguments. -/
def merged : Value → Value → Value
  | array given, array fallback => array fun key => (given key).or (fallback key)
  | given, _ => given

/-- The array with entries; of two with the same key the later counts. -/
def ofEntries (entries : List (String × Value)) : Value :=
  array fun key => (entries.reverse.find? fun entry => entry.1 == key).map (·.2)

end Value

/-! ### Assignments -/

/-- What is assigned to a variable in front of a fragment. -/
inductive Term where
  /-- An array whose entries are keys with literals. -/
  | entries (entries : List (String × String))
  /-- An array under another one, both in variables. -/
  | merged (given fallback : String)
  /-- An element of an array in a variable. -/
  | element (array key : String)

/-- An assignment to a variable. -/
structure Assignment where
  target : String
  term : Term

namespace Assignment

/-- The lines of an assignment. -/
def lines : Assignment → List String
  | ⟨target, .entries entries⟩ =>
    ("    $" ++ target ++ " = array(") ::
      entries.map (fun entry => "        " ++ Literal.ofText entry.1 ++ " => " ++ entry.2 ++ ",") ++
      ["    );"]
  | ⟨target, .merged given fallback⟩ =>
    ["    $" ++ target ++ " = wp_parse_args( $" ++ given ++ ", $" ++ fallback ++ " );"]
  | ⟨target, .element array key⟩ =>
    ["    $" ++ target ++ " = $" ++ array ++ "[" ++ Literal.ofText key ++ "];"]

variable (denote : String → Value)

/-- The value that is assigned. -/
def value (σ : Store Value) : Term → Value
  | .entries entries => .ofEntries (entries.map fun entry => (entry.1, denote entry.2))
  | .merged given fallback => (σ given).merged (σ fallback)
  | .element array key => (σ array).element key

/-- Makes an assignment. -/
def step (σ : Store Value) (a : Assignment) : Store Value :=
  σ.assign a.target (value denote σ a.term)

/-- Makes assignments in order. -/
def run (σ : Store Value) (program : List Assignment) : Store Value :=
  program.foldl (step denote) σ

variable {denote} {σ : Store Value} {program : List Assignment} {x : String}

/-- A variable that nothing is assigned to keeps its value. -/
theorem run_of_not_mem (other : x ∉ program.map target) : run denote σ program x = σ x := by
  induction program generalizing σ with
  | nil => rfl
  | cons a program ih =>
    obtain ⟨ne, others⟩ := not_or.mp (List.mem_cons.not.mp other)
    have later : run denote (step denote σ a) program x = step denote σ a x := ih others
    exact later.trans (σ.assign_of_ne ne _)

end Assignment

/-! ### Fetching parameters -/

/-- The assignment of a parameter to its variable. -/
def fetch (name : String) : Assignment := ⟨name, .element "args" name⟩

/-- The assignments in front of a fragment, for parameters with the literals of their defaults. -/
def prologue (names literals : List String) : List Assignment :=
  if names.isEmpty then []
  else
    ⟨"defaults", .entries (names.zip literals)⟩ :: ⟨"args", .merged "args" "defaults"⟩ ::
      names.map fetch

variable {denote : String → Value} {σ : Store Value} {names : List String}
  {arguments : String → Option Value} {name : String}

open Assignment

theorem lines_fetch (name : String) :
    (fetch name).lines = ["    $" ++ name ++ " = $args[" ++ Literal.ofText name ++ "];"] := by
  have whole : " = $args[" = " = $" ++ "args" ++ "[" := by decide
  rw [whole]
  simp [fetch, Assignment.lines, String.append_assoc]

theorem map_target_fetch : (names.map fetch).map target = names := by
  rw [List.map_map]
  exact List.map_id names

/-- While the arguments are not overwritten, each variable gets its argument. -/
theorem run_fetch (distinct : names.Nodup) (last : "args" ∉ names.dropLast)
    (held : σ "args" = .array arguments) (mem : name ∈ names) :
    run denote σ (names.map fetch) name = (arguments name).getD .null := by
  induction names generalizing σ with
  | nil => cases mem
  | cons first rest ih =>
    obtain ⟨fresh, distinct⟩ := List.nodup_cons.mp distinct
    have fetched : step denote σ (fetch first) first = (arguments first).getD .null := by
      rw [step, fetch, Store.assign_self, value, held]
      rfl
    change run denote (step denote σ (fetch first)) (rest.map fetch) name = _
    rcases List.mem_cons.mp mem with rfl | mem
    · exact (run_of_not_mem (by rwa [map_target_fetch])).trans fetched
    · have nonempty : rest ≠ [] := List.ne_nil_of_mem mem
      rw [List.dropLast_cons_of_ne_nil nonempty] at last
      obtain ⟨other, last⟩ := not_or.mp (List.mem_cons.not.mp last)
      exact ih distinct last ((σ.assign_of_ne other _).trans held) mem

/-- A parameter behind one that overwrites the arguments is looked up in the value of that one. -/
theorem run_fetch_behind {before behind : List String}
    (distinct : (before ++ "args" :: name :: behind).Nodup) (held : σ "args" = .array arguments) :
    run denote σ ((before ++ "args" :: name :: behind).map fetch) name =
      ((arguments "args").getD .null).element name := by
  obtain ⟨-, distinctBehind, apart⟩ := List.nodup_append.mp distinct
  have free : "args" ∉ before := fun mem => apart _ mem _ (.head _) rfl
  have fresh : name ∉ behind :=
    (List.nodup_cons.mp (List.nodup_cons.mp distinctBehind).2).1
  rw [List.map_append, List.map_cons, List.map_cons, run, List.foldl_append, List.foldl_cons,
    List.foldl_cons]
  generalize hτ : (before.map fetch).foldl (step denote) σ = τ
  have kept : τ "args" = .array arguments := by
    rw [← hτ]
    exact (run_of_not_mem (by rwa [map_target_fetch])).trans held
  refine (run_of_not_mem (by rwa [map_target_fetch])).trans ?_
  rw [step, fetch, fetch, Store.assign_self, value, step, Store.assign_self, value, kept]
  rfl

/-- The defaults of parameters, by their names. -/
def defaultsOf (denote : String → Value) (names literals : List String) : List (String × Value) :=
  (names.zip literals).map fun entry => (entry.1, denote entry.2)

/-- The store in which the parameters are fetched. -/
def merging (denote : String → Value) (σ : Store Value) (names literals : List String) :
    Store Value :=
  run denote σ
    [⟨"defaults", .entries (names.zip literals)⟩, ⟨"args", .merged "args" "defaults"⟩]

variable {literals : List String}

theorem run_prologue_eq (nonempty : names ≠ []) : run denote σ (prologue names literals) =
    run denote (merging denote σ names literals) (names.map fetch) := by
  rw [prologue, if_neg (by simpa using nonempty)]
  rfl

/-- The arguments of the caller hide the defaults. -/
theorem merging_args (held : σ "args" = .array arguments) :
    merging denote σ names literals "args" = .array fun key =>
      (arguments key).or
        (((defaultsOf denote names literals).reverse.find? fun entry =>
          entry.1 == key).map (·.2)) := by
  have stands : σ.assign "defaults" (.ofEntries (defaultsOf denote names literals)) "args" =
      .array arguments :=
    (σ.assign_of_ne (by decide) _).trans held
  change (Value.merged (σ.assign "defaults" _ "args") (σ.assign "defaults" _ "defaults")) = _
  rw [Store.assign_self]
  exact congrArg (Value.merged · _) stands

theorem find?_defaultsOf (distinct : names.Nodup) (length : names.length = literals.length)
    {literal : String} (mem : (name, literal) ∈ names.zip literals) :
    (defaultsOf denote names literals).reverse.find? (fun entry => entry.1 == name) =
      some (name, denote literal) := by
  have keys : (defaultsOf denote names literals).map (·.1) = names := by
    rw [defaultsOf, List.map_map]
    exact List.map_fst_zip (Nat.le_of_eq length)
  have reversed : ((defaultsOf denote names literals).reverse.map (·.1)).Nodup := by
    rw [List.map_reverse, keys]
    exact List.pairwise_reverse.mpr (distinct.imp Ne.symm)
  have held : (name, denote literal) ∈ (defaultsOf denote names literals).reverse :=
    List.mem_reverse.mpr (List.mem_map.mpr ⟨_, mem, rfl⟩)
  exact find?_of_nodup reversed held

/-- If no parameter stands behind one that overwrites the arguments, each variable has in the end
what was given for it, or else its default. -/
theorem run_prologue {literal : String} (distinct : names.Nodup)
    (length : names.length = literals.length) (last : "args" ∉ names.dropLast)
    (held : σ "args" = .array arguments) (mem : (name, literal) ∈ names.zip literals) :
    run denote σ (prologue names literals) name = (arguments name).getD (denote literal) := by
  have named : name ∈ names := (List.of_mem_zip mem).1
  rw [run_prologue_eq (List.ne_nil_of_mem named),
    run_fetch distinct last (merging_args held) named, find?_defaultsOf distinct length mem]
  cases arguments name <;> rfl

/-- A parameter behind one that overwrites the arguments can be given and yet not arrive. -/
theorem run_prologue_behind {before behind : List String}
    (distinct : (before ++ "args" :: name :: behind).Nodup) (held : σ "args" = .array arguments)
    {overwritten : Value} (given : arguments "args" = some overwritten) :
    run denote σ (prologue (before ++ "args" :: name :: behind) literals) name =
      overwritten.element name := by
  rw [run_prologue_eq (by simp), run_fetch_behind distinct (merging_args held), given]
  rfl

end Server

/-! ### Render functions -/

open Server

namespace Declaration

variable {d : Declaration} {fragment text : String}

/-- The text of a render function that begins with assignments. -/
def functionText (name : String) (program : List Assignment) (fragment : String) : String :=
  "\n".intercalate
    (("function " ++ name ++ "( $args = array() ) \x7b") ::
      program.flatMap Assignment.lines ++ ["    ?>" ++ fragment ++ "<?php", "\x7d"]) ++ "\n"

/-- The literal of the default of a parameter. -/
def IsDefault (p : Parameter) (literal : String) : Prop :=
  Literal.ofValue p.default (some p.type) = .ok literal

theorem exists_literals {parameters : List Parameter} {lines : List String}
    (h : parameters.mapM defaultLine = .ok lines) :
    ∃ literals, List.Forall₂ IsDefault parameters literals ∧
      lines = ((parameters.map Parameter.name).zip literals).map fun entry =>
        "        " ++ Literal.ofText entry.1 ++ " => " ++ entry.2 ++ "," := by
  have each := mapM_eq_ok_iff.mp h
  clear h
  induction each with
  | nil => exact ⟨[], .nil, rfl⟩
  | cons first _ ih =>
    obtain ⟨literal, read, line⟩ := exists_ok_of_bind first
    obtain ⟨literals, each, rfl⟩ := ih
    cases line
    exact ⟨literal :: literals, .cons read each, rfl⟩

/-- A render function begins with the assignments in front of its body. -/
theorem exists_prologue (h : d.renderFunction fragment = .ok text) :
    ∃ name literals, d.renderFunctionName = .ok name ∧
      List.Forall₂ IsDefault d.parameters literals ∧
      text = functionText name (Server.prologue d.parameterNames literals) fragment := by
  obtain ⟨lines, hlines, h⟩ := exists_ok_of_bind h
  cases h
  obtain ⟨name, named, hlines⟩ := exists_ok_of_bind hlines
  refine ⟨name, ?_⟩
  dsimp only at hlines
  split at hlines
  · rename_i none
    cases hlines
    have none : d.parameters = [] := List.isEmpty_iff.mp none
    refine ⟨[], named, none ▸ .nil, ?_⟩
    rw [functionText, parameterNames, none]
    rfl
  · rename_i some
    obtain ⟨defaults, hdefaults, hlines⟩ := exists_ok_of_bind hlines
    cases hlines
    obtain ⟨literals, each, rfl⟩ := exists_literals hdefaults
    refine ⟨literals, named, each, ?_⟩
    have names : d.parameterNames.isEmpty = false := by
      simpa [parameterNames] using some
    have fetched : (d.parameterNames.map fetch).flatMap Assignment.lines =
        d.parameters.map assignmentLine := by
      rw [parameterNames, List.map_map, List.flatMap_map, List.map_eq_flatMap]
      exact List.flatMap_congr fun p _ => lines_fetch p.name
    rw [functionText, Server.prologue, names, if_neg Bool.false_ne_true, List.flatMap_cons,
      List.flatMap_cons, fetched]
    simp [Assignment.lines, parameterNames]

theorem exists_default {parameters : List Parameter} {literals : List String} {p : Parameter}
    (each : List.Forall₂ IsDefault parameters literals) (mem : p ∈ parameters) :
    ∃ literal, IsDefault p literal ∧
      (p.name, literal) ∈ (parameters.map Parameter.name).zip literals := by
  induction each with
  | nil => cases mem
  | @cons _ literal _ _ first _ ih =>
    rcases List.mem_cons.mp mem with rfl | mem
    · exact ⟨literal, first, .head _⟩
    · obtain ⟨other, isDefault, mem⟩ := ih mem
      exact ⟨other, isDefault, .tail _ mem⟩

/-- Whether each parameter has in a store what a caller gave for it, or else its default. -/
def Delivers (d : Declaration) (denote : String → Value) (arguments : String → Option Value)
    (σ : Store Value) : Prop :=
  ∀ p ∈ d.parameters, ∀ literal, IsDefault p literal →
    σ p.name = (arguments p.name).getD (denote literal)

/-- In front of its body a render function assigns to each parameter what the caller gave for it, or
else its default, whatever literals denote and whatever is given, if and only if no parameter stands
behind one that has the name of the arguments. -/
theorem delivers_iff (distinct : d.parameterNames.Nodup)
    (h : d.renderFunction fragment = .ok text) :
    ∃ name literals, d.renderFunctionName = .ok name ∧
      List.Forall₂ IsDefault d.parameters literals ∧
      text = functionText name (Server.prologue d.parameterNames literals) fragment ∧
      ((∀ denote arguments σ, σ "args" = .array arguments →
          d.Delivers denote arguments
            (Assignment.run denote σ (Server.prologue d.parameterNames literals))) ↔
        "args" ∉ d.parameterNames.dropLast) := by
  obtain ⟨name, literals, called, defaults, text_eq⟩ := exists_prologue h
  refine ⟨name, literals, called, defaults, text_eq, ?_, ?_⟩
  · intro delivers mem
    -- everything is given as an empty array, in which the parameter behind is not found
    obtain ⟨before, rest, split⟩ := List.append_of_mem mem
    have nonempty : d.parameterNames ≠ [] := fun none => by simp [none] at mem
    have whole := List.dropLast_append_getLast nonempty
    rw [split, List.append_assoc, List.cons_append] at whole
    obtain ⟨name, behind, tail⟩ :=
      List.exists_cons_of_ne_nil (List.concat_ne_nil (d.parameterNames.getLast nonempty) rest)
    rw [tail] at whole
    have named : name ∈ d.parameterNames := whole ▸ by simp
    obtain ⟨p, declared, rfl⟩ := List.mem_map.mp named
    obtain ⟨literal, isDefault, -⟩ := exists_default defaults declared
    let empty : Value := .array fun _ => none
    have arrives := delivers (fun _ => empty) (fun _ => some empty)
      (fun _ => .array fun _ => some empty) rfl p declared literal isDefault
    rw [← whole, run_prologue_behind (whole ▸ distinct) rfl rfl] at arrives
    cases arrives
  · intro last denote arguments σ held p mem literal isDefault
    obtain ⟨found, isFound, named⟩ := exists_default defaults mem
    cases isDefault.symm.trans isFound
    have length : d.parameterNames.length = literals.length := by
      rw [parameterNames, List.length_map, defaults.length_eq]
    exact run_prologue distinct length last held named

/-- A component with a parameter of the name of the arguments, behind all others. -/
def titled : Declaration where
  name := .str "card"
  parameters :=
    [{ name := "title", default := .str "Welcome" }, { name := "args", type := "array" }]

/-- Parameters arrive in front of the one that overwrites the arguments. -/
theorem delivers_titled : titled.parameterNames.Nodup ∧
    ∃ text name literals, titled.renderFunction "<hr>" = .ok text ∧
      titled.renderFunctionName = .ok name ∧ List.Forall₂ IsDefault titled.parameters literals ∧
      text = functionText name (Server.prologue titled.parameterNames literals) "<hr>" ∧
      ∀ denote arguments σ, σ "args" = .array arguments →
        titled.Delivers denote arguments
          (Assignment.run denote σ (Server.prologue titled.parameterNames literals)) := by
  have distinct : titled.parameterNames.Nodup := by decide
  have ok : (titled.renderFunction "<hr>").isOk = true := by decide +kernel
  cases h : titled.renderFunction "<hr>" with
  | error failure =>
    rw [h] at ok
    cases ok
  | ok text =>
    obtain ⟨name, literals, called, defaults, text_eq, iff⟩ := delivers_iff distinct h
    exact ⟨distinct, text, name, literals, rfl, called, defaults, text_eq, iff.mpr (by decide)⟩

/-- A component with a parameter of the name of the arguments, in front of another. -/
def overwriting : Declaration where
  name := .str "card"
  parameters :=
    [{ name := "args", type := "array" }, { name := "title", default := .str "Welcome" }]

/-- A parameter behind the one that overwrites the arguments does not arrive. -/
theorem not_delivers_overwriting : overwriting.parameterNames.Nodup ∧
    ∃ text name literals, overwriting.renderFunction "<hr>" = .ok text ∧
      text = functionText name (Server.prologue overwriting.parameterNames literals) "<hr>" ∧
      ¬∀ denote arguments σ, σ "args" = .array arguments →
        overwriting.Delivers denote arguments
          (Assignment.run denote σ (Server.prologue overwriting.parameterNames literals)) := by
  have distinct : overwriting.parameterNames.Nodup := by decide
  have ok : (overwriting.renderFunction "<hr>").isOk = true := by decide +kernel
  cases h : overwriting.renderFunction "<hr>" with
  | error failure =>
    rw [h] at ok
    cases ok
  | ok text =>
    obtain ⟨name, literals, -, -, text_eq⟩ := exists_prologue h
    refine ⟨distinct, text, name, literals, rfl, text_eq, fun delivers => ?_⟩
    let empty : Value := .array fun _ => none
    have arrives := delivers (fun _ => empty) (fun _ => some empty)
      (fun _ => .array fun _ => some empty) rfl { name := "title", default := .str "Welcome" }
      (.tail _ (.head _)) "'Welcome'" rfl
    have lost : Assignment.run (fun _ => empty) (fun _ => .array fun _ => some empty)
        (Server.prologue ([] ++ "args" :: "title" :: []) literals) "title" =
          empty.element "title" :=
      run_prologue_behind distinct rfl rfl
    cases lost.symm.trans arrives

end Declaration

end ServerTemplate

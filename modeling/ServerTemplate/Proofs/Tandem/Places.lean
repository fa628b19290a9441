import ServerTemplate.Library.Basic
import ServerTemplate.Proofs.Entry.Inside
import ServerTemplate.Proofs.Outline.Conversion
import ServerTemplate.Proofs.Tandem.Lowered

/-!
# Places and sources do not influence the fragment

The text of a template is read as if it stood in a script that returns it. So it has the same
fragment as that script, or both fail for the same kind of reason: what differs is which place is
the first, and with it the places of the expressions and the snippets.

`Expr.concur_ofNode` says that a node is read alike whatever is put in front, and
`convert_ignores_places` carries this through the search for the entry template and through the
conversion, where alike templates have the same fragment (`Job.Paired.concur_convert`).
-/

namespace ServerTemplate

open Script

/-! ### Kinds of failures -/

/-- The kinds of failures. Those with a diagnostic are told apart by its gist. -/
inductive FailureKind where
  | diagnosed (gist : Option ErrorCode × Bool × Bool)
  /-- A value does not fit what it is to be held in. -/
  | overflow
  /-- A value makes no sense where it stands. -/
  | invalidValue
  /-- A value is not of the kind that is wanted. -/
  | mismatch
  | undecodable
  deriving DecidableEq, Repr

/-- The kind of a failure. -/
def Failure.kind : Failure → FailureKind
  | diagnosed d => .diagnosed d.gist
  | integerOutOfRange | codePointTooLong => .overflow
  | codePointOutOfRange | tooManyDigits | badOptions _ => .invalidValue
  | nameNotText => .mismatch
  | undecodable _ => .undecodable

/-- Two results that are related values or failures of the same kind. -/
abbrev Agree {α β : Type} (R : α → β → Prop) : Result α → Result β → Prop :=
  Concur Failure.kind False R

/-! ### Reading nodes -/

section Leads

variable {chars : List Char} (lead lead' : Nat)

theorem stringPoints_lead (parts : List Node) :
    stringPoints ⟨chars, lead'⟩ parts = stringPoints ⟨chars, lead⟩ parts := by
  induction parts with
  | nil => rfl
  | cons part rest ih =>
    rw [stringPoints, stringPoints, ih]
    rfl

theorem chunksBetween_lead (start stop : Nat) (parts : List Node) :
    chunksBetween ⟨chars, lead'⟩ start stop parts =
      chunksBetween ⟨chars, lead⟩ start stop parts := by
  induction parts generalizing start with
  | nil => rfl
  | cons part rest ih =>
    rw [chunksBetween, chunksBetween, ih, ih]
    rfl

theorem arrowParameters_lead (children : List Node) :
    arrowParameters ⟨chars, lead'⟩ children = arrowParameters ⟨chars, lead⟩ children := rfl

/-- The same templates are found whatever is put in front. -/
theorem Script.Node.candidates_lead (sought : Sought) (n : Node) :
    n.candidates ⟨chars, lead'⟩ sought = n.candidates ⟨chars, lead⟩ sought := by
  induction n using Node.induction with | h n ih => ?_
  rw [candidates_eq_append, candidates_eq_append, candidatesOf_eq_flatMap, candidatesOf_eq_flatMap,
    List.flatMap_congr ih]
  rfl

end Leads

variable {chars : List Char} {lead lead' : Nat}

/-- A list of readings agrees if each does. -/
theorem Concur.mapM {α β : Type} {R : α → β → Prop} {γ : Type} {f : γ → Result α} {g : γ → Result β}
    {xs : List γ} (h : ∀ x ∈ xs, Agree R (f x) (g x)) :
    Agree (List.Forall₂ R) (xs.mapM f) (xs.mapM g) := by
  induction xs with
  | nil => exact .ok .nil
  | cons x xs ih =>
    rw [List.mapM_cons, List.mapM_cons]
    refine (h x List.mem_cons_self).bind fun a b first => ?_
    exact (ih fun y hy => h y (List.mem_cons_of_mem _ hy)).bind fun as bs rest =>
      .ok (.cons first rest)

namespace Expr

variable {nodes : List Node} {whole whole' : Expr}

theorem concur_ofOption {node? : Option Node} (alike : whole.Alike whole')
    (known : ∀ c ∈ node?, Agree Alike (ofNode ⟨chars, lead⟩ c) (ofNode ⟨chars, lead'⟩ c)) :
    Agree Alike (ofOption ⟨chars, lead⟩ whole node?) (ofOption ⟨chars, lead'⟩ whole' node?) := by
  cases node? with
  | none => exact .ok alike
  | some node => exact known node rfl

section Nodes

variable (known : ∀ c ∈ nodes, Agree Alike (ofNode ⟨chars, lead⟩ c) (ofNode ⟨chars, lead'⟩ c))

include known

theorem concur_ofPart (alike : whole.Alike whole') (slot : Slot) :
    Agree Alike (ofPart ⟨chars, lead⟩ whole slot nodes)
      (ofPart ⟨chars, lead'⟩ whole' slot nodes) := by
  rw [ofPart_eq, ofPart_eq]
  exact concur_ofOption alike fun c hc => known c (List.mem_of_find?_eq_some hc)

theorem concur_ofFirst (alike : whole.Alike whole') :
    Agree Alike (ofFirst ⟨chars, lead⟩ whole nodes) (ofFirst ⟨chars, lead'⟩ whole' nodes) := by
  rw [ofFirst_eq, ofFirst_eq]
  exact concur_ofOption alike fun c hc => known c (List.mem_of_find?_eq_some hc)

end Nodes

section Children

variable (deep : ∀ node ∈ nodes, ∀ c ∈ node.children,
  Agree Alike (ofNode ⟨chars, lead⟩ c) (ofNode ⟨chars, lead'⟩ c))

include deep

theorem concur_ofArguments : Agree (List.Forall₂ Alike) (ofArguments ⟨chars, lead⟩ nodes)
    (ofArguments ⟨chars, lead'⟩ nodes) := by
  rw [ofArguments_eq, ofArguments_eq]
  refine .mapM fun c hc => ?_
  cases found : nodes.find? fun node => node.slot == .arguments with
  | none =>
    rw [found] at hc
    cases hc
  | some given =>
    rw [found] at hc
    exact deep given (List.mem_of_find?_eq_some found) c (List.mem_of_mem_filter hc)

theorem concur_ofHoles : Agree (List.Forall₂ Alike) (ofHoles ⟨chars, lead⟩ nodes)
    (ofHoles ⟨chars, lead'⟩ nodes) := by
  rw [ofHoles_eq, ofHoles_eq]
  exact .mapM fun hole mem =>
    concur_ofFirst (deep hole (List.mem_of_mem_filter mem)) .other

end Children

/-! ### Kinds of nodes -/

section Kinds

variable {n : Node}
  (known : ∀ c ∈ n.children, Agree Alike (ofNode ⟨chars, lead⟩ c) (ofNode ⟨chars, lead'⟩ c))

theorem concur_string (kind : n.kind = .string) :
    Agree Alike (ofNode ⟨chars, lead⟩ n) (ofNode ⟨chars, lead'⟩ n) := by
  obtain ⟨_, slot, start, stop, children⟩ := n
  cases kind
  unfold ofNode
  dsimp only
  rw [stringPoints_lead lead lead']
  exact (Concur.refl (fun _ => rfl) _).bind_eq fun _ => .ok .constant

include known

theorem concur_member (kind : n.kind = .member) :
    Agree Alike (ofNode ⟨chars, lead⟩ n) (ofNode ⟨chars, lead'⟩ n) := by
  obtain ⟨_, slot, start, stop, children⟩ := n
  cases kind
  unfold ofNode
  dsimp only
  split
  · exact (concur_ofPart known .other _).bind fun _ _ object => .ok (.member object)
  · exact .ok .other

/-- A call is read with its callee and its arguments, and a template behind a name alone. -/
theorem concur_call (kind : n.kind = .call)
    (deep : ∀ given ∈ n.children, ∀ c ∈ given.children,
      Agree Alike (ofNode ⟨chars, lead⟩ c) (ofNode ⟨chars, lead'⟩ c)) :
    Agree Alike (ofNode ⟨chars, lead⟩ n) (ofNode ⟨chars, lead'⟩ n) := by
  obtain ⟨_, slot, start, stop, children⟩ := n
  cases kind
  unfold ofNode
  dsimp only
  split
  · split
    · split
      · refine (concur_ofPart known .other .arguments).bind fun text text' alike => ?_
        cases alike with
        | template filled => exact .ok (.tagged filled)
        | _ => exact .ok .other
      · exact .ok .other
    · refine (concur_ofPart known .other .callee).bind fun _ _ function => ?_
      exact (concur_ofArguments deep).bind fun _ _ given => .ok (.call function given)
  · exact .ok .other

theorem concur_arrow (kind : n.kind = .arrow) :
    Agree Alike (ofNode ⟨chars, lead⟩ n) (ofNode ⟨chars, lead'⟩ n) := by
  obtain ⟨_, slot, start, stop, children⟩ := n
  cases kind
  unfold ofNode
  dsimp only
  rw [arrowParameters_lead lead lead']
  split
  · exact .ok .other
  · split
    · exact .ok .other
    · exact (concur_ofPart known .other _).bind fun _ _ body => .ok (.arrow body)

theorem concur_binary (kind : n.kind = .binary) :
    Agree Alike (ofNode ⟨chars, lead⟩ n) (ofNode ⟨chars, lead'⟩ n) := by
  obtain ⟨_, slot, start, stop, children⟩ := n
  cases kind
  unfold ofNode
  dsimp only
  split
  · rename_i sign _
    refine (concur_ofPart known .other _).bind fun _ _ left => ?_
    refine (concur_ofPart known .other _).bind fun _ _ right => ?_
    have spelled : sign.text ⟨chars, lead'⟩ = sign.text ⟨chars, lead⟩ := rfl
    rw [spelled]
    split
    · exact .ok (.logical left right)
    · exact .ok (.binary left right)
  · exact .ok .other

theorem concur_ternary (kind : n.kind = .ternary) :
    Agree Alike (ofNode ⟨chars, lead⟩ n) (ofNode ⟨chars, lead'⟩ n) := by
  obtain ⟨_, slot, start, stop, children⟩ := n
  cases kind
  unfold ofNode
  refine (concur_ofPart known .other _).bind fun _ _ test => ?_
  refine (concur_ofPart known .other _).bind fun _ _ consequent => ?_
  exact (concur_ofPart known .other _).bind fun _ _ alternate =>
    .ok (.conditional test consequent alternate)

theorem concur_parenthesized (kind : n.kind = .parenthesized) :
    Agree Alike (ofNode ⟨chars, lead⟩ n) (ofNode ⟨chars, lead'⟩ n) := by
  obtain ⟨_, slot, start, stop, children⟩ := n
  cases kind
  unfold ofNode
  exact (concur_ofFirst known .other).bind fun _ _ inner => .ok (.group inner)

omit known in
theorem concur_template (kind : n.kind = .template)
    (deep : ∀ hole ∈ n.children, ∀ c ∈ hole.children,
      Agree Alike (ofNode ⟨chars, lead⟩ c) (ofNode ⟨chars, lead'⟩ c)) :
    Agree Alike (ofNode ⟨chars, lead⟩ n) (ofNode ⟨chars, lead'⟩ n) := by
  obtain ⟨_, slot, start, stop, children⟩ := n
  cases kind
  unfold ofNode
  dsimp only
  rw [chunksBetween_lead lead lead']
  exact (concur_ofHoles deep).bind fun _ _ filled => .ok (.template filled)

end Kinds

/-- Whatever is put in front of the text that places refer to, a node is read alike. -/
theorem concur_ofNode (n : Node) :
    Agree Alike (ofNode ⟨chars, lead⟩ n) (ofNode ⟨chars, lead'⟩ n) := by
  suffices all : Agree Alike (ofNode ⟨chars, lead⟩ n) (ofNode ⟨chars, lead'⟩ n) ∧
      ∀ c ∈ n.children, Agree Alike (ofNode ⟨chars, lead⟩ c) (ofNode ⟨chars, lead'⟩ c) from all.1
  -- a call and a template read nodes in the nodes in them, so both levels are kept
  induction n using Node.induction with | h n ih => ?_
  have known (c : Node) (mem : c ∈ n.children) := (ih c mem).1
  have deep (c : Node) (mem : c ∈ n.children) := (ih c mem).2
  refine ⟨?_, known⟩
  cases kind : n.kind with
  | string => exact concur_string kind
  | member => exact concur_member known kind
  | call => exact concur_call known kind deep
  | arrow => exact concur_arrow known kind
  | binary => exact concur_binary known kind
  | ternary => exact concur_ternary known kind
  | parenthesized => exact concur_parenthesized known kind
  | template => exact concur_template kind deep
  | _ =>
    obtain ⟨_, slot, start, stop, children⟩ := n
    cases kind
    unfold ofNode
    constructor
    constructor

end Expr

theorem Template.concur_ofNode (n : Node) :
    Agree Template.Alike (Template.ofNode ⟨chars, lead⟩ n) (Template.ofNode ⟨chars, lead'⟩ n) := by
  have holes : Agree (List.Forall₂ Expr.Alike) (Expr.ofHoles ⟨chars, lead⟩ n.children)
      (Expr.ofHoles ⟨chars, lead'⟩ n.children) :=
    Expr.concur_ofHoles fun _ _ c _ => Expr.concur_ofNode c
  exact holes.bind fun _ _ filled => .ok ⟨chunksBetween_lead _ _ _ _ _, filled⟩

/-! ### Entry templates -/

theorem Entry.concur_ofSource (entryPoint : EntryPoint) (tag : String)
    (component : Option String) (parser : Parser) :
    Agree (fun entry entry' : Entry => entry.template.Alike entry'.template)
      (Entry.ofSource ⟨chars, lead⟩ entryPoint tag component parser)
      (Entry.ofSource ⟨chars, lead'⟩ entryPoint tag component parser) := by
  unfold Entry.ofSource
  dsimp only
  cases parser.read chars with
  | none => exact .error rfl
  | some tree =>
    dsimp only
    rw [Node.candidates_lead lead lead']
    split
    · exact .error rfl
    · exact (Template.concur_ofNode _).bind fun _ _ alike => .ok alike
    · exact .error rfl

/-! ### Conversions -/

/-- Alike templates have the same fragment or fail for causes with the same code, whatever texts the
snippets show. -/
theorem Job.convert_of_alike (job : Job) (source : String) {template template' : Template}
    (alike : template.Alike template') :
    Concur Diagnostic.gist False Eq (job.convert template)
      ({ job with source }.convert template') :=
  (Job.Paired.of_source (w := {}) job source).concur_convert rfl alike
    (.of_forall Expr.spares_nil _)

/-- Diagnostics with the same gist are told as failures of the same kind. -/
theorem Declaration.kind_told (d : Declaration) {diagnostic diagnostic' : Diagnostic}
    (same : diagnostic'.gist = diagnostic.gist) :
    (d.told diagnostic').kind = (d.told diagnostic).kind := by
  obtain ⟨-, known, path⟩ : diagnostic'.code? = diagnostic.code? ∧
      diagnostic'.hasLine = diagnostic.hasLine ∧
      diagnostic'.hasPolicyPath = diagnostic.hasPolicyPath := by
    simpa only [Diagnostic.gist, Prod.mk.injEq] using same
  unfold Declaration.told
  rw [known, path]
  split_ifs <;> simp [Failure.kind, same]

/-- Failures of the same kind are told as failures of the same kind. -/
theorem Declaration.kind_retold (d : Declaration) {failure failure' : Failure}
    (same : failure'.kind = failure.kind) :
    (d.retold failure').kind = (d.retold failure).kind := by
  cases failure <;> cases failure' <;>
    first | exact d.kind_told (FailureKind.diagnosed.inj same) | exact same | cases same

/-- Outcomes that concur do so when their failures are told. -/
theorem Concur.mapError {ε α β κ : Type} {R : α → β → Prop} {x : Except ε α} {y : Except ε β}
    {kind : ε → κ} {tell : ε → Failure} (h : Concur kind False R x y)
    (told : ∀ e e', kind e' = kind e → (tell e').kind = (tell e).kind) :
    Agree R (x.mapError tell) (y.mapError tell) := by
  cases h with
  | ok related => exact .ok related
  | error same => exact .error (told _ _ same)
  | excused excuse => exact excuse.elim

/-- The script in which the entry point returns the template with a text. -/
def Options.returning (o : Options) (source : String) (d : Declaration) : String :=
  "function " ++ (o.entryPointOf d).title ++ "() \x7b return " ++ o.tag ++ "`" ++ source ++
    "`; \x7d"

/-- **Places and sources are of no influence.** The text of a template has the same fragment as the
script in which the entry point returns this template, or both fail for the same kind of reason. So
do any two templates that differ in places, and in how unknown constructs are spelled, only,
whatever texts the snippets show. -/
theorem convert_ignores_places :
    (∀ (o : Options) (source : String) (d : Declaration),
      (o.convert .script (o.returning source d) d).mapError Failure.kind =
        (o.convert .template source d).mapError Failure.kind) ∧
    ∀ (d : Declaration) (source source' tag : String) (labels : CountLabels) (stars : Int)
      (template template' : Template), template.Alike template' →
      (Job.convert ⟨d, source', tag, labels, stars⟩ template').mapError Diagnostic.code? =
        (Job.convert ⟨d, source, tag, labels, stars⟩ template).mapError Diagnostic.code? := by
  have alone (d : Declaration) (source source' tag : String) (labels : CountLabels) (stars : Int)
      {template template' : Template} (alike : template.Alike template') :
      Concur Diagnostic.gist False Eq (Job.convert ⟨d, source, tag, labels, stars⟩ template)
        (Job.convert ⟨d, source', tag, labels, stars⟩ template') :=
    Job.convert_of_alike ⟨d, source, tag, labels, stars⟩ source' alike
  refine ⟨fun o source d => ?_, fun d source source' tag labels stars template template' alike =>
    ((alone d source source' tag labels stars alike).coarsen fun _ _ same =>
      congrArg Prod.fst same).mapError_eq⟩
  have chars : (o.returning source d).toList =
      Entry.opening (o.entryPointOf d) o.tag ++ source.toList ++ Entry.closing := by
    simp only [Options.returning, Entry.opening, Entry.closing, String.toList_append,
      List.append_assoc]
  have read : Agree (fun entry entry' : Entry => entry.template.Alike entry'.template)
      (o.entry .template source d) (o.entry .script (o.returning source d) d) := by
    rw [Options.entry_eq, Options.entry_eq, Options.sourceOf, Options.sourceOf, chars]
    exact (Entry.concur_ofSource _ _ _ _).mapError fun _ _ => d.kind_retold
  have converted : Agree Eq (o.convert .template source d)
      (o.convert .script (o.returning source d) d) :=
    read.bind fun _ _ alike =>
      (alone d _ _ o.tag o.labels o.stars alike).mapError fun _ _ => d.kind_told
  exact converted.mapError_eq

/-- A title in a heading, and then a construct that has no form. -/
def headingTemplate (place place' : Text.Place) (spelling : String) : Template where
  chunks := ["<h1>", "</h1>", ""]
  holes := [.member place (.this place) "title" false, .other place' "await_expression" spelling]

/-- A template with an unknown construct fails alike at another place, with another spelling. -/
theorem convert_headingTemplate :
    (headingTemplate ⟨1, 6⟩ ⟨1, 23⟩ "await x").Alike
      (headingTemplate ⟨3, 2⟩ ⟨4, 0⟩ "await  x") ∧
    (listJob.convert (headingTemplate ⟨1, 6⟩ ⟨1, 23⟩ "await x")).mapError Diagnostic.code? =
      .error (some .unsupportedConstruct) ∧
    ({ listJob with source := "\n\n" }.convert
      (headingTemplate ⟨3, 2⟩ ⟨4, 0⟩ "await  x")).mapError Diagnostic.code? =
      .error (some .unsupportedConstruct) := by
  have alike : (headingTemplate ⟨1, 6⟩ ⟨1, 23⟩ "await x").Alike
      (headingTemplate ⟨3, 2⟩ ⟨4, 0⟩ "await  x") :=
    ⟨rfl, .cons (.member .this) (.cons .other .nil)⟩
  have fails : (listJob.convert (headingTemplate ⟨1, 6⟩ ⟨1, 23⟩ "await x")).mapError
      Diagnostic.code? = .error (some .unsupportedConstruct) := by
    decide +kernel
  exact ⟨alike, fails, (convert_ignores_places.2 listJob.declaration "" "\n\n" "html"
    listJob.labels 5 _ _ alike).trans fails⟩

end ServerTemplate

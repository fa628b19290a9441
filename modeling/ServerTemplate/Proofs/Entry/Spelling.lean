import ServerTemplate.Library.Basic
import ServerTemplate.Proofs.Entry.Expression

/-!
# Failures without a diagnostic

A conversion fails without a diagnostic for two reasons only: an escape in a string spells a number
that is no code point, or the name of the component is no text. The strings that count are those
that reading the entry template comes to. Reading a node goes on to some of the nodes in it
(`Node.readParts`); strings in the others, such as those in the body of a function or in an object,
are never decoded, whatever they spell.

`Result.DecodedIff` says exactly when a result is there. It goes through `bind` and `mapM`, so that
one induction on nodes gives both when reading succeeds and how it fails
(`Expr.decodedIff_ofNode`). The main statement is `Options.isDiagnosed_iff_decodable`.
-/

namespace ServerTemplate

open Script

/-! ### Results of decoding -/

/-- Whether a failure is a diagnostic. -/
def Failure.IsDiagnosed (failure : Failure) : Prop := ∃ d, failure = .diagnosed d

/-- Whether a failure is that of an escape that denotes no code point. -/
def Failure.IsOfCodePoint (failure : Failure) : Prop :=
  failure = .codePointOutOfRange ∨ failure = .codePointTooLong

theorem Failure.IsOfCodePoint.not_isDiagnosed {failure : Failure} (h : failure.IsOfCodePoint) :
    ¬failure.IsDiagnosed := by
  rintro ⟨d, rfl⟩
  rcases h with h | h <;> cases h

namespace Declaration

variable {d : Declaration} {failure : Failure}

/-- Whether a failure lies in the name of a component: it is no text and takes no line, or is too
long to have a text. -/
def IsOfName (d : Declaration) (failure : Failure) : Prop :=
  failure = .nameNotText ∧ d.takesLine = false ∨
    failure = .tooManyDigits ∧ d.name.hasText = false

theorem IsOfName.not_isDiagnosed (h : d.IsOfName failure) : ¬failure.IsDiagnosed := by
  rintro ⟨diagnostic, rfl⟩
  rcases h with h | h <;> cases h.1

theorem not_isOfName_of_text {name : String} (text : d.name = .str name) : ¬d.IsOfName failure := by
  unfold IsOfName takesLine
  rw [text]
  rintro (h | h) <;> cases h.2

/-- A diagnostic is told as it is, unless the name stands in the way. -/
theorem told_cases (d : Declaration) (diagnostic : Diagnostic) :
    (d.told diagnostic).IsDiagnosed ∨ d.IsOfName (d.told diagnostic) := by
  cases hasText : d.name.hasText with
  | false =>
    cases takesLine : d.takesLine with
    | false => cases path : diagnostic.hasPolicyPath <;> cases line : diagnostic.hasLine <;>
        simp [told, IsOfName, *]
    | true => simp [told, IsOfName, hasText, takesLine]
  | true =>
    cases takesLine : d.takesLine with
    | false => cases line : diagnostic.hasLine <;> simp [told, IsOfName, Failure.IsDiagnosed, *]
    | true => simp [told, Failure.IsDiagnosed, hasText, takesLine]

theorem exists_of_mapError_told {α : Type} {r : Except Diagnostic α}
    (h : r.mapError d.told = .error failure) : ∃ diagnostic, failure = d.told diagnostic := by
  cases r with
  | ok a => cases h
  | error diagnostic =>
    cases h
    exact ⟨diagnostic, rfl⟩

end Declaration

namespace Result

variable {α β : Type} {p q : Prop} {r : Result α}

/-- A result that is there if and only if a condition holds, and else fails because an escape
denotes no code point. -/
inductive DecodedIff (p : Prop) : Result α → Prop
  | ok (a : α) (holds : p) : DecodedIff p (.ok a)
  | error {failure : Failure} (fails : ¬p) (of : failure.IsOfCodePoint) :
      DecodedIff p (.error failure)

/-- Whether a result is missing because of a code point beyond the last one. -/
def isOutOfRange : Result α → Bool
  | .error .codePointOutOfRange => true
  | _ => false

theorem eq_of_isOutOfRange (h : r.isOutOfRange = true) : r = .error .codePointOutOfRange := by
  unfold isOutOfRange at h
  split at h
  · rfl
  · cases h

namespace DecodedIff

theorem of_ok (a : α) : DecodedIff True (.ok a : Result α) := .ok a trivial

theorem congr (h : DecodedIff p r) (iff : p ↔ q) : DecodedIff q r := by
  cases h with
  | ok a holds => exact .ok a (iff.mp holds)
  | error fails of => exact .error (fun hq => fails (iff.mpr hq)) of

/-- A failure that is no diagnostic is told of no component. -/
theorem retold {d : Declaration} (h : DecodedIff p r) : DecodedIff p (r.mapError d.retold) := by
  cases h with
  | ok a holds => exact .ok a holds
  | error fails of =>
    rcases of with rfl | rfl
    · exact .error fails (.inl rfl)
    · exact .error fails (.inr rfl)

/-- A second step is decoded after a first one. -/
theorem bind {f : α → Result β} (first : DecodedIff p r) (second : ∀ a, DecodedIff q (f a)) :
    DecodedIff (p ∧ q) (r >>= f) := by
  cases first with
  | error fails of => exact .error (fun both => fails both.1) of
  | ok a holds => exact (second a).congr ⟨fun hq => ⟨holds, hq⟩, And.right⟩

/-- A second step that gives a result changes nothing. -/
theorem andThen {f : α → Result β} (first : DecodedIff p r) (second : ∀ a, ∃ b, f a = .ok b) :
    DecodedIff p (r >>= f) := by
  have always (a : α) : DecodedIff True (f a) := by
    obtain ⟨b, eq⟩ := second a
    rw [eq]
    exact of_ok b
  exact (first.bind always).congr ⟨And.left, fun hp => ⟨hp, trivial⟩⟩

theorem mapM {f : α → Result β} {P : α → Prop} {xs : List α}
    (each : ∀ x ∈ xs, DecodedIff (P x) (f x)) : DecodedIff (∀ x ∈ xs, P x) (xs.mapM f) := by
  induction xs with
  | nil => exact .ok [] (List.forall_mem_nil P)
  | cons x xs ih =>
    obtain ⟨first, others⟩ := List.forall_mem_cons.mp each
    rw [List.mapM_cons]
    have rest : ∀ y, DecodedIff (∀ x ∈ xs, P x)
        ((xs.mapM f >>= fun ys => pure (y :: ys)) : Result (List β)) :=
      fun y => (ih others).andThen fun ys => ⟨y :: ys, rfl⟩
    exact (first.bind rest).congr List.forall_mem_cons.symm

end DecodedIff

end Result

/-! ### Strings -/

/-- The number that an escape spells in hexadecimal digits, behind its backslash. -/
def spelledNumber? : List Char → Option Nat
  | 'u' :: '\x7b' :: digits => some (hexValue digits.dropLast)
  | 'u' :: digits | 'x' :: digits => some (hexValue digits)
  | _ => none

/-- Whether an escape spells no number, or that of a code point. -/
def isCodePoint (body : List Char) : Bool := (spelledNumber? body).all fun n => n ≤ 0x10FFFF

theorem decodedIff_codePoint (digits : List Char) :
    Result.DecodedIff (hexValue digits ≤ 0x10FFFF) (codePoint digits) := by
  unfold codePoint
  dsimp only
  split
  · rename_i le
    exact .ok _ le
  · rename_i gt
    split
    · exact .error gt (.inl rfl)
    · exact .error gt (.inr rfl)

theorem decodedIff_escaped (body : List Char) :
    Result.DecodedIff (isCodePoint body = true) (escaped body) := by
  have noNumber {points : List Nat} (none : spelledNumber? body = none) :
      Result.DecodedIff (isCodePoint body = true) (.ok points) :=
    .ok points (by rw [isCodePoint, none]; rfl)
  unfold escaped
  split
  · simpa [isCodePoint, spelledNumber?] using decodedIff_codePoint _
  · rename_i digits plain
    have number : spelledNumber? ('u' :: digits) = some (hexValue digits) := by
      unfold spelledNumber?
      split <;> simp_all
    simpa [isCodePoint, number] using decodedIff_codePoint digits
  · simpa [isCodePoint, spelledNumber?] using decodedIff_codePoint _
  · exact noNumber rfl
  · exact noNumber rfl
  all_goals
    refine noNumber ?_
    unfold spelledNumber?
    split <;> simp_all

namespace Script.Node

variable {s : Source} {n c : Node}

/-- Whether an escape in the source denotes a code point. -/
def IsCodePoint (s : Source) (part : Node) : Prop :=
  part.kind = .escape → isCodePoint ((part.text s).toList.drop 1) = true

end Script.Node

theorem decodedIff_stringPoints (s : Source) (parts : List Node) :
    Result.DecodedIff (∀ part ∈ parts, part.IsCodePoint s) (stringPoints s parts) := by
  induction parts with
  | nil => exact .ok [] (List.forall_mem_nil _)
  | cons part rest ih =>
    have first : Result.DecodedIff (part.IsCodePoint s)
        (if part.kind == .escape then escaped ((part.text s).toList.drop 1)
          else pure ((part.text s).toList.map Char.toNat)) := by
      unfold Node.IsCodePoint
      by_cases kind : part.kind = .escape
      · rw [if_pos (beq_iff_eq.mpr kind)]
        exact (decodedIff_escaped _).congr ⟨fun h _ => h, fun h => h kind⟩
      · rw [if_neg fun h => kind (beq_iff_eq.mp h)]
        exact .ok _ fun h => (kind h).elim
    have second (points : List Nat) : Result.DecodedIff (∀ part ∈ rest, part.IsCodePoint s)
        (do return points ++ (← stringPoints s rest)) :=
      ih.andThen fun more => ⟨points ++ more, rfl⟩
    have both := (first.bind second).congr List.forall_mem_cons.symm
    rw [stringPoints]
    split at both
    · rename_i kind
      rw [if_pos kind]
      exact both
    · rename_i kind
      rw [if_neg kind]
      exact both

/-! ### The nodes that are read -/

namespace Script.Node

variable {s : Source} {n c m : Node}

/-- The nodes in a node that reading it goes on to. -/
def readParts (s : Source) (n : Node) : List Node :=
  match n.kind with
  | .member =>
    if (n.child? .property).any fun property => property.kind == .propertyName then
      (n.child? .object).toList
    else []
  | .call =>
    match n.child? .callee, n.child? .arguments with
    | some callee, some given =>
      if given.kind != .template then callee :: given.named
      else if callee.kind == .identifier then [given]
      else []
    | _, _ => []
  | .arrow =>
    match arrowParameters s n.children with
    | .ok _ => ((n.child? .body).filter fun body => body.kind != .block).toList
    | .error _ => []
  | .binary =>
    if (n.child? .operator).isSome then [Slot.left, .right].filterMap n.child? else []
  | .ternary => [Slot.condition, .consequence, .alternative].filterMap n.child?
  | .parenthesized => n.firstNamed?.toList
  | .template => (n.children.filter fun child => child.kind == .hole).filterMap firstNamed?
  | _ => []

/-- The nodes that reading a node comes to. -/
inductive IsRead (s : Source) : Node → Node → Prop
  | here (n : Node) : IsRead s n n
  | inside {n c m : Node} (part : c ∈ n.readParts s) (read : IsRead s c m) : IsRead s n m

/-- Whether each escape in the strings that reading a node comes to denotes a code point. -/
def Decodable (s : Source) (n : Node) : Prop :=
  ∀ m, IsRead s n m → m.kind = .string → ∀ part ∈ m.children, part.IsCodePoint s

theorem decodable_iff : n.Decodable s ↔
    (n.kind = .string → ∀ part ∈ n.children, part.IsCodePoint s) ∧
      ∀ c ∈ n.readParts s, c.Decodable s := by
  constructor
  · intro all
    exact ⟨all n (.here n), fun c mem m read => all m (.inside mem read)⟩
  · rintro ⟨here, inside⟩ m read
    cases read with
    | here => exact here
    | inside mem read => exact inside _ mem m read

/-- A node that is no string is decodable if the parts that are read are. -/
theorem decodable_iff_of_ne (kind : n.kind ≠ .string) :
    n.Decodable s ↔ ∀ c ∈ n.readParts s, c.Decodable s := by
  rw [decodable_iff]
  exact ⟨And.right, fun parts => ⟨fun string => (kind string).elim, parts⟩⟩

end Script.Node

open Result (DecodedIff)

variable {s : Source}

theorem Expr.decodedIff_ofOption {whole : Expr} {node? : Option Node}
    (known : ∀ c ∈ node?, DecodedIff (c.Decodable s) (ofNode s c)) :
    DecodedIff (∀ c ∈ node?, c.Decodable s) (ofOption s whole node?) := by
  cases node? with
  | none => exact .ok whole (by simp)
  | some c => exact (known c rfl).congr (by simp)

/-- The contents of holes are decoded if the nodes in the holes are. -/
theorem Expr.decodedIff_ofHoles {nodes : List Node}
    (known : ∀ hole ∈ nodes, ∀ c ∈ hole.children, DecodedIff (c.Decodable s) (ofNode s c)) :
    DecodedIff (∀ c ∈ (nodes.filter fun node => node.kind == .hole).filterMap Node.firstNamed?,
      c.Decodable s) (ofHoles s nodes) := by
  rw [ofHoles_eq]
  refine (DecodedIff.mapM (P := fun hole => ∀ c ∈ hole.firstNamed?, c.Decodable s) ?_).congr ?_
  · intro hole mem
    rw [ofHole, ofFirst_eq, ← Node.firstNamed?_eq]
    refine decodedIff_ofOption fun c hc => ?_
    rw [Node.firstNamed?_eq] at hc
    exact known hole (List.mem_of_mem_filter mem) c (List.mem_of_find?_eq_some hc)
  · simp only [List.mem_filterMap, forall_exists_index, and_imp, Option.mem_def]
    exact ⟨fun all c hole mem eq => all hole mem c eq, fun all hole mem c eq => all c hole mem eq⟩

section Kinds

variable {n : Node} (known : ∀ c ∈ n.children, DecodedIff (c.Decodable s) (Expr.ofNode s c))

include known in
theorem Expr.decodedIff_ofPart (whole : Expr) (slot : Slot) :
    DecodedIff (∀ c ∈ n.child? slot, c.Decodable s) (ofPart s whole slot n.children) := by
  rw [ofPart_eq]
  exact decodedIff_ofOption fun c hc => known c (List.mem_of_find?_eq_some hc)

include known in
theorem Expr.decodedIff_ofFirst (whole : Expr) :
    DecodedIff (∀ c ∈ n.firstNamed?, c.Decodable s) (ofFirst s whole n.children) := by
  rw [ofFirst_eq, ← Node.firstNamed?_eq]
  refine decodedIff_ofOption fun c hc => ?_
  rw [Node.firstNamed?_eq] at hc
  exact known c (List.mem_of_find?_eq_some hc)

/-- A string is read if its escapes denote characters. -/
theorem Expr.decodedIff_string (kind : n.kind = .string) :
    DecodedIff (n.Decodable s) (ofNode s n) := by
  obtain ⟨_, slot, start, stop, children⟩ := n
  cases kind
  unfold ofNode
  refine ((decodedIff_stringPoints s _).andThen fun points => ⟨_, rfl⟩).congr ?_
  rw [Node.decodable_iff]
  have parts : (∀ part ∈ children.filter fun child => child.kind != .operator,
      part.IsCodePoint s) ↔ ∀ part ∈ children, part.IsCodePoint s := by
    refine ⟨fun all part mem escape => ?_,
      fun all part mem => all part (List.mem_of_mem_filter mem)⟩
    exact all part (List.mem_filter.mpr ⟨mem, by rw [escape]; rfl⟩) escape
  rw [parts]
  exact ⟨fun all => ⟨fun _ => all, List.forall_mem_nil _⟩, fun all => all.1 rfl⟩

include known in
/-- A property is read with its owner, unless it is computed. -/
theorem Expr.decodedIff_member (kind : n.kind = .member) :
    DecodedIff (∀ c ∈ n.readParts s, c.Decodable s) (ofNode s n) := by
  have part := decodedIff_ofPart known
  obtain ⟨_, slot, start, stop, children⟩ := n
  cases kind
  unfold ofNode
  dsimp only at part ⊢
  split
  · rename_i property
    refine ((part _ _).andThen fun _ => ⟨_, rfl⟩).congr ?_
    simp [Node.readParts, Node.child?, property]
  · rename_i computed
    refine .ok _ ?_
    cases property : children.find? fun child => child.slot == .property with
    | none => simp [Node.readParts, Node.child?, property]
    | some node =>
      obtain ⟨kind, slot, first, last, inner⟩ := node
      have other : kind ≠ .propertyName := by
        rintro rfl
        exact computed slot first last inner property
      simp [Node.readParts, Node.child?, property, other]

include known in
/-- A call is read with its callee and its arguments, and a template behind a name like one
alone. -/
theorem Expr.decodedIff_call (kind : n.kind = .call)
    (deep : ∀ given ∈ n.children, ∀ c ∈ given.children,
      DecodedIff (c.Decodable s) (ofNode s c)) :
    DecodedIff (∀ c ∈ n.readParts s, c.Decodable s) (ofNode s n) := by
  have part := decodedIff_ofPart known
  obtain ⟨_, slot, start, stop, children⟩ := n
  cases kind
  unfold ofNode
  dsimp only at part ⊢
  split
  · rename_i callee given callee_eq given_eq
    split
    · rename_i template
      split
      · rename_i identifier
        refine ((part _ .arguments).andThen fun text => ?_).congr ?_
        · cases text <;> exact ⟨_, rfl⟩
        · have kind := eq_of_beq template
          simp [Node.readParts, Node.child?, callee_eq, given_eq, kind, eq_of_beq identifier]
      · rename_i other
        refine .ok _ ?_
        simp_all [Node.readParts, Node.child?]
    · rename_i plain
      have arguments : DecodedIff (∀ c ∈ given.named, c.Decodable s)
          (given.named.mapM (ofNode s)) :=
        .mapM fun c hc =>
          deep given (List.mem_of_find?_eq_some given_eq) c (List.mem_of_mem_filter hc)
      rw [ofArguments_eq, given_eq]
      refine ((part _ .callee).bind fun _ => arguments.andThen fun _ => ⟨_, rfl⟩).congr ?_
      simp_all [Node.readParts, Node.child?]
  · rename_i missing
    refine .ok _ ?_
    simp [Node.readParts, Node.child?]

include known in
/-- A function is read with its body, if its parameters are names and the body is no block. -/
theorem Expr.decodedIff_arrow (kind : n.kind = .arrow) :
    DecodedIff (∀ c ∈ n.readParts s, c.Decodable s) (ofNode s n) := by
  have part := decodedIff_ofPart known
  obtain ⟨_, slot, start, stop, children⟩ := n
  cases kind
  unfold ofNode
  dsimp only at part ⊢
  split
  · rename_i refused
    refine .ok _ ?_
    simp [Node.readParts, refused]
  · rename_i parameters accepted
    split
    · rename_i block
      refine .ok _ ?_
      cases body : children.find? fun child => child.slot == .body with
      | none => simp [Node.readParts, Node.child?, accepted, body]
      | some body => simp_all [Node.readParts, Node.child?, Option.filter]
    · rename_i plain
      refine ((part _ _).andThen fun _ => ⟨_, rfl⟩).congr ?_
      cases body : children.find? fun child => child.slot == .body with
      | none => simp_all
      | some body => simp_all [Node.readParts, Node.child?, Option.filter]

include known in
/-- An operation is read with both sides. -/
theorem Expr.decodedIff_binary (kind : n.kind = .binary) :
    DecodedIff (∀ c ∈ n.readParts s, c.Decodable s) (ofNode s n) := by
  have part := decodedIff_ofPart known
  obtain ⟨_, slot, start, stop, children⟩ := n
  cases kind
  unfold ofNode
  dsimp only at part ⊢
  split
  · rename_i sign operator
    refine ((part _ _).bind fun _ => (part _ _).andThen fun _ => ⟨_, rfl⟩).congr ?_
    simp [Node.readParts, Node.child?, operator, or_imp, forall_and]
  · rename_i operator
    refine .ok _ ?_
    simp [Node.readParts, Node.child?, operator]

include known in
theorem Expr.decodedIff_ternary (kind : n.kind = .ternary) :
    DecodedIff (∀ c ∈ n.readParts s, c.Decodable s) (ofNode s n) := by
  have part := decodedIff_ofPart known
  obtain ⟨_, slot, start, stop, children⟩ := n
  cases kind
  unfold ofNode
  refine ((part _ _).bind fun _ =>
    (part _ _).bind fun _ => (part _ _).andThen fun _ => ⟨_, rfl⟩).congr ?_
  simp [Node.readParts, or_imp, forall_and]

include known in
theorem Expr.decodedIff_parenthesized (kind : n.kind = .parenthesized) :
    DecodedIff (∀ c ∈ n.readParts s, c.Decodable s) (ofNode s n) := by
  have first := decodedIff_ofFirst known
  obtain ⟨_, slot, start, stop, children⟩ := n
  cases kind
  unfold ofNode
  refine ((first _).andThen fun _ => ⟨_, rfl⟩).congr ?_
  simp [Node.readParts]

end Kinds

/-- Reading a node gives an expression if and only if the strings in it that are read denote
characters. -/
theorem Expr.decodedIff_ofNode (n : Node) : DecodedIff (n.Decodable s) (ofNode s n) := by
  suffices all : DecodedIff (n.Decodable s) (ofNode s n) ∧
      ∀ c ∈ n.children, DecodedIff (c.Decodable s) (ofNode s c) from all.1
  -- a call and a template read nodes in the nodes in them, so both levels are kept
  induction n using Node.induction with | h n ih => ?_
  have known (c : Node) (mem : c ∈ n.children) := (ih c mem).1
  have deep (c : Node) (mem : c ∈ n.children) := (ih c mem).2
  refine ⟨?_, known⟩
  by_cases string : n.kind = .string
  · exact decodedIff_string string
  refine (?_ : DecodedIff _ _).congr (Node.decodable_iff_of_ne string).symm
  cases kind : n.kind with
  | string => exact (string kind).elim
  | member => exact decodedIff_member known kind
  | call => exact decodedIff_call known kind deep
  | arrow => exact decodedIff_arrow known kind
  | binary => exact decodedIff_binary known kind
  | ternary => exact decodedIff_ternary known kind
  | parenthesized => exact decodedIff_parenthesized known kind
  | template =>
    have holes : DecodedIff _ (ofHoles s n.children) := decodedIff_ofHoles deep
    obtain ⟨_, slot, start, stop, children⟩ := n
    cases kind
    unfold ofNode
    exact holes.andThen fun _ => ⟨_, rfl⟩
  | _ =>
    obtain ⟨_, slot, start, stop, children⟩ := n
    cases kind
    unfold ofNode
    exact .ok _ (List.forall_mem_nil _)

/-! ### Conversions -/

/-- The template that is found has its place among the nodes as a template. -/
theorem Script.Node.kind_of_mem_candidates {sought : Sought} {found : Candidate} {n : Node}
    (mem : found ∈ n.candidates s sought) : found.template.kind = .template := by
  suffices here : ∀ n : Node, found ∈ n.candidatesHere s sought → found.template.kind = .template by
    induction n using Node.induction with | h n ih => ?_
    obtain ⟨kind, slot, start, stop, children⟩ := n
    rw [candidates, List.mem_append] at mem
    rcases mem with mem | mem
    · exact here _ mem
    · clear here
      induction children with
      | nil => cases mem
      | cons child rest ihr =>
        rw [candidatesOf, List.mem_append] at mem
        rcases mem with mem | mem
        · exact ih child (.head rest) mem
        · exact ihr (fun c hc => ih c (.tail child hc)) mem
  intro n mem
  obtain ⟨value, -, eq⟩ := List.mem_filterMap.mp mem
  obtain ⟨template, eq, rfl⟩ := Option.map_eq_some_iff.mp eq
  unfold markup? at eq
  split at eq
  · split at eq
    · rename_i text _ _ _ checks
      cases eq
      simp only [Bool.and_eq_true, beq_iff_eq] at checks
      exact checks.2
    · cases eq
  · cases eq

theorem Template.decodedIff_ofNode {n : Node} (kind : n.kind = .template) :
    DecodedIff (n.Decodable s) (Template.ofNode s n) := by
  have holes : DecodedIff _ (Expr.ofHoles s n.children) :=
    Expr.decodedIff_ofHoles fun hole _ c _ => Expr.decodedIff_ofNode c
  refine (holes.andThen fun _ => ⟨_, rfl⟩).congr ?_
  rw [Node.decodable_iff_of_ne (by rw [kind]; decide), Node.readParts, kind]

namespace Options

/-- The script that the entry template of a component is looked for in. -/
def sourceOf (o : Options) (form : SourceForm) (source : String) (d : Declaration) : Source :=
  match form with
  | .template => Entry.around source (o.entryPointOf d) o.tag
  | .script => ⟨source.toList, 0⟩

theorem entry_eq (o : Options) (form : SourceForm) (source : String) (d : Declaration) :
    o.entry form source d =
      (Entry.ofSource (o.sourceOf form source d) (o.entryPointOf d) o.tag d.title
        o.parser).mapError d.retold := by
  cases form <;> rfl

/-- Whether each escape in the strings that are read in the entry template, if there is one,
denotes a code point. -/
def Decodable (o : Options) (form : SourceForm) (source : String) (d : Declaration) : Prop :=
  let s := o.sourceOf form source d
  ∀ tree only, o.parser.read s.chars = some tree →
    tree.candidates s ⟨(o.entryPointOf d).name?, o.tag⟩ = [only] → only.template.Decodable s

variable (o : Options) (form : SourceForm) (source : String) (d : Declaration)

/-- Either no entry template is found, and a diagnostic tells so, or it is read. -/
theorem entry_cases :
    (o.Decodable form source d ∧ ∃ diagnostic, o.entry form source d = .error (d.told diagnostic)) ∨
    DecodedIff (o.Decodable form source d) (o.entry form source d) := by
  rw [entry_eq]
  unfold Entry.ofSource
  cases read : o.parser.read (o.sourceOf form source d).chars with
  | none =>
    refine .inl ⟨fun tree only read' => ?_, _, rfl⟩
    cases read.symm.trans read'
  | some tree =>
    have decodable : o.Decodable form source d ↔ ∀ only,
        tree.candidates (o.sourceOf form source d) ⟨(o.entryPointOf d).name?, o.tag⟩ = [only] →
          only.template.Decodable (o.sourceOf form source d) := by
      refine ⟨fun all only => all tree only read, fun all tree' only read' => ?_⟩
      cases read.symm.trans read'
      exact all only
    rw [decodable]
    dsimp only
    split
    · rename_i none
      refine .inl ⟨fun only one => ?_, _, rfl⟩
      cases none.symm.trans one
    · rename_i only one
      have kind : only.template.kind = .template :=
        Node.kind_of_mem_candidates (one ▸ List.mem_singleton_self only)
      refine .inr (((Template.decodedIff_ofNode kind).andThen fun _ => ⟨_, rfl⟩).retold.congr ?_)
      refine ⟨fun whole only' one' => ?_, fun all => all only one⟩
      cases one.symm.trans one'
      exact whole
    · rename_i _ several
      exact .inl ⟨fun only one => (several only one).elim, _, rfl⟩

/-- A conversion gives a fragment or a diagnostic if and only if each escape in the strings that are
read in the entry template denotes a code point and the name of the component does not stand in the
way. It fails in no other way, and a name that is a text never stands in the way. -/
theorem isDiagnosed_iff_decodable :
    ((∀ failure, o.convert form source d = .error failure → failure.IsDiagnosed) ↔
      o.Decodable form source d ∧
        ∀ failure, o.convert form source d = .error failure → ¬d.IsOfName failure) ∧
    (∀ failure, o.convert form source d = .error failure →
      failure.IsDiagnosed ∨ failure.IsOfCodePoint ∨ d.IsOfName failure) ∧
    ∀ name, d.name = .str name → ∀ failure, ¬d.IsOfName failure := by
  refine ⟨?_, ?_, fun name text failure => Declaration.not_isOfName_of_text text⟩
  all_goals
    unfold convert
    rcases entry_cases o form source d with ⟨decodable, diagnostic, eq⟩ | read
  · rw [eq]
    refine ⟨fun all => ⟨decodable, fun failure h of => of.not_isDiagnosed (all failure h)⟩,
      fun whole failure h => ?_⟩
    cases h
    exact (d.told_cases diagnostic).resolve_right (whole.2 _ rfl)
  · generalize o.entry form source d = entry at read
    cases read with
    | ok entry decodable =>
      refine ⟨fun all => ⟨decodable, fun failure h of => of.not_isDiagnosed (all failure h)⟩,
        fun whole failure h => ?_⟩
      obtain ⟨diagnostic, rfl⟩ := Declaration.exists_of_mapError_told h
      exact (d.told_cases diagnostic).resolve_right (whole.2 _ h)
    | error fails of =>
      exact ⟨fun all => (of.not_isDiagnosed (all _ rfl)).elim,
        fun whole => (fails whole.1).elim⟩
  · rw [eq]
    intro failure h
    cases h
    exact (d.told_cases diagnostic).imp_right .inr
  · generalize o.entry form source d = entry at read
    cases read with
    | ok entry decodable =>
      intro failure h
      obtain ⟨diagnostic, rfl⟩ := Declaration.exists_of_mapError_told h
      exact (d.told_cases diagnostic).imp_right .inr
    | error fails of =>
      intro failure h
      cases h
      exact .inr (.inl of)

/-- The text of a template with a string whose escape denotes no code point. -/
def beyondText : String := "$\x7b'\\u\x7b110000\x7d'\x7d"

/-- A template with an escape beyond the last code point fails without a diagnostic. -/
theorem beyondText_not_diagnosed : ∃ failure,
    ({} : Options).convert .template beyondText { name := .str "c" } = .error failure ∧
      ¬failure.IsDiagnosed := by
  have beyond : (({} : Options).convert .template beyondText { name := .str "c" }).isOutOfRange =
      true := by
    decide +kernel
  exact ⟨_, Result.eq_of_isOutOfRange beyond, Failure.IsOfCodePoint.not_isDiagnosed (.inl rfl)⟩

end Options

end ServerTemplate

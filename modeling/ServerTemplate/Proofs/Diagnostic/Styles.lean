import Mathlib.Data.List.Forall2
import ServerTemplate.Diagnostic.Basic

/-!
# Styles only decorate

A diagnostic that is written with styles is the one without them as soon as the control sequences
are taken out again, if the texts that it is made of hold none themselves
(`Diagnostic.stripControls_styled`).

`Decorates styled plain` says this of a part of a text, whatever follows it. A control sequence
decorates nothing, a text without the escape character itself, and parts that are put together
decorate what is put together of theirs.
-/

namespace ServerTemplate

/-! ### Texts without controls -/

/-- Whether a text is without the escape character, with which every control sequence begins. -/
def LacksEscape (s : String) : Prop := '\x1b' ∉ s.toList

instance (s : String) : Decidable (LacksEscape s) := inferInstanceAs (Decidable (_ ∉ _))

namespace LacksEscape

variable {s t : String} {ss : List String}

@[simp] theorem append_iff : LacksEscape (s ++ t) ↔ LacksEscape s ∧ LacksEscape t := by
  rw [LacksEscape, String.toList_append, List.mem_append, not_or]
  rfl

theorem intercalate (separator : LacksEscape s) (each : ∀ t ∈ ss, LacksEscape t) :
    LacksEscape (s.intercalate ss) := by
  induction ss with
  | nil => exact (by decide : LacksEscape "")
  | cons first rest ih =>
    have others := ih fun t mem => each t (List.mem_cons_of_mem _ mem)
    cases rest with
    | nil => exact String.intercalate_singleton ▸ each first List.mem_cons_self
    | cons second rest =>
      rw [String.intercalate_cons_cons, append_iff, append_iff]
      exact ⟨⟨each first List.mem_cons_self, separator⟩, others⟩

theorem replicate_blank (n : Nat) : LacksEscape (.ofList (.replicate n ' ')) := by
  rw [LacksEscape, String.toList_ofList]
  exact fun mem => absurd (List.eq_of_mem_replicate mem) (by decide)

theorem toString_nat (n : Nat) : LacksEscape (toString n) := by
  intro mem
  have digit : '\x1b' ∈ Nat.toDigits 10 n := Nat.toList_repr ▸ mem
  exact absurd (Nat.isDigit_of_mem_toDigits (by decide) (by decide) digit) (by decide)

theorem toString_int (n : Int) : LacksEscape (toString n) := by
  cases n with
  | ofNat n => exact toString_nat n
  | negSucc n =>
    exact append_iff.mpr ⟨(by decide : LacksEscape "-"), toString_nat (n + 1)⟩

end LacksEscape

/-! ### Decorated texts -/

/-- Whether taking the control sequences out of a text leaves another one, whatever follows. -/
def Decorates (styled plain : String) : Prop :=
  ∀ rest, stripFrom 0 (styled.toList ++ rest) = plain.toList ++ stripFrom 0 rest

namespace Decorates

variable {s t s' t' : String} {ss ts : List String}

theorem stripControls_eq (h : Decorates s t) : stripControls s = t := by
  have stripped := h []
  rw [List.append_nil] at stripped
  rw [stripControls, stripped, stripFrom, List.append_nil, String.ofList_toList]

/-- Nothing is taken out of a text without the escape character. -/
theorem refl (h : LacksEscape s) : Decorates s s := by
  intro rest
  unfold LacksEscape at h
  generalize s.toList = cs at h ⊢
  induction cs with
  | nil => rfl
  | cons c cs ih =>
    obtain ⟨first, others⟩ := not_or.mp (List.mem_cons.not.mp h)
    have other : (c == '\x1b') = false := beq_eq_false_iff_ne.mpr (Ne.symm first)
    rw [List.cons_append, stripFrom, other, if_neg Bool.false_ne_true, ih others,
      List.cons_append]

/-- A control sequence is taken out as a whole: its last character is the first letter in it, so
that nothing behind it counts. -/
theorem sequence (style : Style) : Decorates style.sequence "" := by
  intro rest
  cases style <;> rfl

theorem append (h : Decorates s t) (h' : Decorates s' t') : Decorates (s ++ s') (t ++ t') := by
  intro rest
  rw [String.toList_append, String.toList_append, List.append_assoc, h, h', List.append_assoc]

theorem join (h : List.Forall₂ Decorates ss ts) : Decorates (String.join ss) (String.join ts) := by
  induction h with
  | nil => exact refl (by decide)
  | cons first _ ih =>
    rw [String.join_cons, String.join_cons]
    exact first.append ih

theorem intercalate (separator : Decorates s t) (h : List.Forall₂ Decorates ss ts) :
    Decorates (s.intercalate ss) (t.intercalate ts) := by
  induction h with
  | nil => exact refl (by decide : LacksEscape "")
  | cons first rest ih =>
    cases rest with
    | nil =>
      rw [String.intercalate_singleton, String.intercalate_singleton]
      exact first
    | cons second rest =>
      rw [String.intercalate_cons_cons, String.intercalate_cons_cons]
      exact (first.append separator).append ih

end Decorates

namespace Span

/-- The sequences in front of a span and behind it decorate its text. -/
theorem decorates_write {span : Span} (h : LacksEscape span.text) :
    Decorates (span.write true) (span.write false) := by
  have sequences (styles : List Style) :
      Decorates (String.join (styles.map Style.sequence)) "" := by
    induction styles with
    | nil => exact .refl (by decide)
    | cons style styles ih =>
      rw [List.map_cons, String.join_cons]
      exact (Decorates.sequence style).append ih
  rw [write_false, write]
  split
  · have whole := ((sequences span.styles).append (.refl h)).append (.sequence .reset)
    rwa [String.empty_append, String.append_empty] at whole
  · exact .refl h

/-- Whether the texts of all spans in some lines are without the escape character. -/
def LackEscape (lines : List (List Span)) : Prop :=
  ∀ line ∈ lines, ∀ span ∈ line, LacksEscape span.text

@[simp] theorem lackEscape_nil : LackEscape [] := List.forall_mem_nil _

@[simp] theorem lackEscape_cons {line : List Span} {lines : List (List Span)} :
    LackEscape (line :: lines) ↔
      (∀ span ∈ line, LacksEscape span.text) ∧ LackEscape lines :=
  List.forall_mem_cons

@[simp] theorem lackEscape_append {lines lines' : List (List Span)} :
    LackEscape (lines ++ lines') ↔ LackEscape lines ∧ LackEscape lines' :=
  List.forall_mem_append

theorem decorates_renderLines {lines : List (List Span)} (h : LackEscape lines) :
    Decorates (renderLines true lines) (renderLines false lines) := by
  refine .intercalate (.refl (by decide)) (List.forall₂_map_left_iff.mpr
    (List.forall₂_map_right_iff.mpr (List.forall₂_same.mpr fun line mem => ?_)))
  exact .join (List.forall₂_map_left_iff.mpr
    (List.forall₂_map_right_iff.mpr (List.forall₂_same.mpr fun span inner =>
      decorates_write (h line mem span inner))))

end Span

/-! ### The texts of a diagnostic -/

/-- The texts that a cause is given by: its summary or the names in it, the context, the names that
are visible, the advice, the path. -/
def Cause.texts : Cause → List String
  | general summary => [summary]
  | entry fault => fault.summary :: fault.suggestion?.toList
  | unresolved name context visible => name :: context :: visible
  | outsideLoop expression context => [expression, context]
  | imbalance fault => [fault.summary]
  | unsupported construct context => construct.construct :: context :: construct.advice?.toList
  | noPolicy field path => [field, path]
  | declaration fault path => fault.summary :: path.toList

/-- The texts that a diagnostic is given by: those of its cause, the component, and the lines of the
snippet. -/
def Diagnostic.texts (d : Diagnostic) : List String :=
  d.cause.texts ++ d.site.component.toList ++
    (d.site.snippet.elim [] fun snippet => snippet.lines.map (·.2))

theorem Text.mem_of_closest? {word similar : String} {names : List String}
    (h : closest? word names = some similar) : similar ∈ names := by
  obtain ⟨found, eq, rfl⟩ := Option.map_eq_some_iff.mp h
  clear h
  revert found
  -- the best name so far is one of the names
  refine List.foldlRecOn (motive := fun best => ∀ found : (Nat × Nat) × String,
    best = some found → found.2 ∈ names) names _ ?_ fun best known name mem found eq => ?_
  · exact nofun
  dsimp only at eq
  split at eq
  · exact known found eq
  · split at eq
    · cases eq
      exact mem
    · split at eq
      · cases eq
        exact mem
      · exact known found eq

/-- What a snippet shows are its lines, with numbers and rules. -/
theorem Snippet.lackEscape_spans {snippet : Snippet}
    (h : ∀ line ∈ snippet.lines, LacksEscape line.2) : Span.LackEscape snippet.spans := by
  have rule : ∀ span ∈ [Snippet.rule], LacksEscape span.text := by decide
  have number (n : Int) (atFault : Bool) :
      LacksEscape ((if atFault then ">" else " ") ++ paddedNumber n) := by
    rw [LacksEscape.append_iff, paddedNumber, LacksEscape.append_iff]
    exact ⟨by cases atFault <;> decide, .replicate_blank _, .toString_int n⟩
  have shown : ∀ line ∈ snippet.lines, ∀ span ∈
      lineSpans line.1 line.2 ((line.1 : Int) == snippet.errorLine), LacksEscape span.text := by
    intro line mem
    simp only [lineSpans, Span.of, Span.plain, List.forall_mem_cons]
    exact ⟨number _ _, by decide, h line mem, List.forall_mem_nil _⟩
  have caret (n : Nat) : LacksEscape (" " ++ .ofList (.replicate n ' ') ++ "^") := by
    rw [LacksEscape.append_iff, LacksEscape.append_iff]
    exact ⟨⟨by decide, .replicate_blank n⟩, by decide⟩
  rw [spans, Span.lackEscape_append, Span.lackEscape_append, Span.lackEscape_cons]
  refine ⟨⟨⟨rule, List.forall_mem_map.mpr shown⟩, ?_⟩,
    Span.lackEscape_cons.mpr ⟨rule, Span.lackEscape_nil⟩⟩
  cases snippet.column with
  | none => exact Span.lackEscape_nil
  | some column =>
    refine Span.lackEscape_cons.mpr ⟨List.forall_mem_cons.mpr ⟨rule _ List.mem_cons_self, ?_⟩,
      Span.lackEscape_nil⟩
    exact List.forall_mem_singleton.mpr (caret _)

namespace Cause

variable {cause : Cause} {advice : Option String}

theorem lacksEscape_summary (h : ∀ t ∈ cause.texts, LacksEscape t) :
    ∀ span ∈ cause.summary, LacksEscape span.text := by
  cases cause <;> simp only [texts, List.forall_mem_cons] at h <;>
    simp +decide [summary, Span.plain, Span.of, h]

theorem lacksEscape_hintLine {spans : List Span} (h : ∀ span ∈ spans, LacksEscape span.text) :
    ∀ span ∈ hintLine spans, LacksEscape span.text :=
  List.forall_mem_append.mpr ⟨by decide, h⟩

theorem lackEscape_hintLines (h : ∀ t ∈ advice.toList, LacksEscape t) :
    Span.LackEscape (hintLines advice) := by
  unfold hintLines
  split
  · split
    · exact Span.lackEscape_nil
    · refine Span.lackEscape_cons.mpr ⟨lacksEscape_hintLine ?_, Span.lackEscape_nil⟩
      exact List.forall_mem_singleton.mpr (h _ List.mem_cons_self)
  · exact Span.lackEscape_nil

theorem lackEscape_details (h : ∀ t ∈ cause.texts, LacksEscape t) :
    Span.LackEscape cause.details := by
  cases cause with
  | general summary => exact Span.lackEscape_nil
  | entry fault => exact lackEscape_hintLines (List.forall_mem_cons.mp h).2
  | unresolved name context visible =>
    obtain ⟨named, -, seen⟩ := by simpa only [texts, List.forall_mem_cons] using h
    have sorted : ∀ t ∈ Text.sorted visible, LacksEscape t := fun t mem =>
      seen t (Text.mem_sorted.mp mem)
    have listed : LacksEscape (if (Text.sorted visible).isEmpty then "(none)"
        else ", ".intercalate (Text.sorted visible)) := by
      split
      · decide
      · exact .intercalate (by decide) sorted
    refine Span.lackEscape_cons.mpr ⟨?_, Span.lackEscape_cons.mpr
      ⟨lacksEscape_hintLine ?_, Span.lackEscape_nil⟩⟩
    · exact List.forall_mem_singleton.mpr (LacksEscape.append_iff.mpr ⟨by decide, listed⟩)
    · split
      · rename_i similar closest
        have known := sorted similar (Text.mem_of_closest? closest)
        exact List.forall_mem_cons.mpr
          ⟨by decide, List.forall_mem_cons.mpr ⟨known, by decide⟩⟩
      · exact List.forall_mem_singleton.mpr
          (LacksEscape.append_iff.mpr ⟨LacksEscape.append_iff.mpr ⟨by decide, named⟩, by decide⟩)
  | outsideLoop expression context =>
    exact Span.lackEscape_cons.mpr ⟨lacksEscape_hintLine (by decide), Span.lackEscape_nil⟩
  | imbalance fault => exact Span.lackEscape_nil
  | unsupported construct context =>
    exact lackEscape_hintLines (List.forall_mem_cons.mp (List.forall_mem_cons.mp h).2).2
  | noPolicy field path =>
    refine Span.lackEscape_cons.mpr ⟨?_, Span.lackEscape_cons.mpr
      ⟨lacksEscape_hintLine (by decide), Span.lackEscape_nil⟩⟩
    have inside : LacksEscape path := h path (by simp [texts])
    exact List.forall_mem_cons.mpr ⟨by decide, List.forall_mem_singleton.mpr inside⟩
  | declaration fault path =>
    cases path with
    | none => exact Span.lackEscape_nil
    | some path =>
      have inside : LacksEscape path := h path (by simp [texts])
      simp only [details]
      split
      · exact Span.lackEscape_nil
      · refine Span.lackEscape_cons.mpr ⟨?_, Span.lackEscape_nil⟩
        exact List.forall_mem_cons.mpr ⟨by decide, List.forall_mem_singleton.mpr inside⟩

end Cause

namespace Diagnostic

variable {d : Diagnostic}

/-- The place is the component, with numbers behind it. -/
theorem lacksEscape_place (h : ∀ name ∈ d.site.component, LacksEscape name) :
    LacksEscape d.place := by
  have colon : LacksEscape ":" := by decide
  have unknown : LacksEscape "<component>" := by decide
  have known (name : String) (eq : d.site.component = some name) :
      LacksEscape (if name = "" then "<component>" else name) := by
    split
    · exact unknown
    · exact h name eq
  unfold place
  dsimp only
  split
  · split
    · exact known _ ‹_›
    · exact unknown
  · split
    · split
      · exact known _ ‹_›
      · exact unknown
    · simp only [LacksEscape.append_iff]
      refine ⟨⟨⟨?_, colon⟩, .toString_int _⟩, ?_⟩
      · split
        · exact known _ ‹_›
        · exact unknown
      · split
        · exact LacksEscape.append_iff.mpr ⟨colon, .toString_int _⟩
        · decide

variable (h : ∀ t ∈ d.texts, LacksEscape t)

include h

theorem lacksEscape_headline : ∀ span ∈ d.headline, LacksEscape span.text := by
  obtain ⟨⟨cause, component⟩, -⟩ := by simpa only [texts, List.forall_mem_append] using h
  have place := lacksEscape_place fun name mem => component name (Option.mem_toList.mpr mem)
  refine List.forall_mem_append.mpr ⟨Cause.lacksEscape_summary cause, ?_⟩
  exact List.forall_mem_cons.mpr ⟨by decide, List.forall_mem_singleton.mpr place⟩

theorem lackEscape_body : Span.LackEscape d.body := by
  obtain ⟨⟨cause, -⟩, snippet⟩ := by simpa only [texts, List.forall_mem_append] using h
  refine Span.lackEscape_append.mpr ⟨?_, Cause.lackEscape_details cause⟩
  split
  · rename_i eq
    rw [eq] at snippet
    exact Snippet.lackEscape_spans (List.forall_mem_map.mp snippet)
  · exact Span.lackEscape_nil

theorem lackEscape_lines : Span.LackEscape d.lines :=
  Span.lackEscape_cons.mpr ⟨lacksEscape_headline h, lackEscape_body h⟩

/-- The compact form has the code in front and an address behind besides. -/
theorem lackEscape_compactLines : Span.LackEscape d.compactLines := by
  have codes (code : ErrorCode) : LacksEscape code.text ∧ LacksEscape code.link := by
    cases code <;> decide
  have header : ∀ span ∈ header (d.cause.code?.map ErrorCode.text) d.headline,
      LacksEscape span.text := by
    unfold Diagnostic.header
    split
    · rename_i code eq
      split
      · exact lacksEscape_headline h
      · obtain ⟨code, -, rfl⟩ := Option.map_eq_some_iff.mp eq
        refine List.forall_mem_append.mpr ⟨?_, lacksEscape_headline h⟩
        exact List.forall_mem_cons.mpr ⟨(codes code).1, by decide⟩
    · exact lacksEscape_headline h
  rw [compactLines, Span.lackEscape_append, Span.lackEscape_cons]
  refine ⟨⟨header, lackEscape_body h⟩, ?_⟩
  split
  · rename_i code _
    refine Span.lackEscape_cons.mpr ⟨?_, Span.lackEscape_nil⟩
    rw [List.forall_mem_cons, List.forall_mem_cons, List.forall_mem_cons]
    exact ⟨by decide, by decide, by decide, List.forall_mem_singleton.mpr (codes code).2⟩
  · exact Span.lackEscape_nil

omit h

/-- Of a diagnostic that is made of texts without control sequences, neither form says anything else
with styles than without them. -/
theorem stripControls_styled (d : Diagnostic) (h : ∀ t ∈ d.texts, LacksEscape t) :
    stripControls (d.text true) = d.text false ∧
      stripControls (d.compact true) = d.compact false := by
  exact ⟨(Span.decorates_renderLines (lackEscape_lines h)).stripControls_eq,
    (Span.decorates_renderLines (lackEscape_compactLines h)).stripControls_eq⟩

/-- A diagnostic with what stands behind an escape character in the field, the path and the
snippet. -/
def bracketed : Diagnostic where
  cause := .noPolicy "[0m" "card.parameters[name=[0m].escape"
  site :=
    { component := some "card"
      line := some 2
      snippet := Snippet.around? "<p>\n$\x7bthis['[0m']\x7d</p>" 2 (some 2) }

/-- What only looks like the end of a control sequence stays. -/
theorem stripControls_styled_bracketed :
    (∀ t ∈ bracketed.texts, LacksEscape t) ∧ bracketed.text true ≠ bracketed.text false ∧
      stripControls (bracketed.text true) = bracketed.text false ∧
      stripControls (bracketed.compact true) = bracketed.compact false :=
  have lacks : ∀ t ∈ bracketed.texts, LacksEscape t := by decide +kernel
  ⟨lacks, by decide +kernel, stripControls_styled bracketed lacks⟩

end Diagnostic

end ServerTemplate

import ServerTemplate.Proofs.Literal.Rendering
import ServerTemplate.Proofs.Tandem.Alike

/-!
# Conversions in tandem

Two conversions go in tandem if the second does what the first does, step by step, although it is
given something else: a text that is written already, more parameters, more policies. What the
second is given beyond the first is its `Leeway`. From states that are abreast
(`Progress.Abreast`) two parts in tandem (`Emit.Tandem`) lead to such states again, or both fail
with the same gist. With a leeway that is lenient, the second may do anything once the first has
failed.

There is one rule for every operation. What is asked of the scopes is answered alike in both
conversions but for the names that were added: these may be visible to the second one only.
-/

namespace ServerTemplate

/-! ### Outcomes -/

/-- The code of a diagnostic, which is what it says beside the place and the words. -/
def Diagnostic.code? (d : Diagnostic) : Option ErrorCode := d.cause.code?

/-- The code of a diagnostic, whether it has a line, and whether it says where a policy is to be
declared. -/
def Diagnostic.gist (d : Diagnostic) : Option ErrorCode × Bool × Bool :=
  (d.code?, d.hasLine, d.hasPolicyPath)

/-- Two outcomes that concur: values that are related, or failures of the same kind. With leniency
the second outcome is of no account if the first is a failure. -/
inductive Concur {ε κ α β : Type} (kind : ε → κ) (lenient : Prop) (R : α → β → Prop) :
    Except ε α → Except ε β → Prop
  | ok {a : α} {b : β} (related : R a b) : Concur kind lenient R (.ok a) (.ok b)
  | error {d d' : ε} (same : kind d' = kind d) : Concur kind lenient R (.error d) (.error d')
  | excused {d : ε} {r : Except ε β} (excuse : lenient) : Concur kind lenient R (.error d) r

namespace Concur

variable {ε κ α β γ δ : Type} {kind : ε → κ} {lenient : Prop} {R : α → β → Prop} {S : γ → δ → Prop}
  {x : Except ε α} {y : Except ε β}

/-- What goes on from related values leads to outcomes that concur. -/
theorem bind {f : α → Except ε γ} {g : β → Except ε δ}
    (h : Concur kind lenient R x y) (hfg : ∀ a b, R a b → Concur kind lenient S (f a) (g b)) :
    Concur kind lenient S (x >>= f) (y >>= g) := by
  cases h with
  | ok related => exact hfg _ _ related
  | error same => exact .error same
  | excused excuse => exact .excused excuse

theorem map {f : α → γ} {g : β → δ}
    (h : Concur kind lenient R x y) (hfg : ∀ a b, R a b → S (f a) (g b)) :
    Concur kind lenient S (x.map f) (y.map g) := by
  cases h with
  | ok related => exact .ok (hfg _ _ related)
  | error same => exact .error same
  | excused excuse => exact .excused excuse

theorem refl {R : α → α → Prop} (h : ∀ a, R a a) (x : Except ε α) :
    Concur kind lenient R x x := by
  cases x with
  | ok a => exact .ok (h a)
  | error d => exact .error rfl

/-- Where the values are the same, what goes on is given the same value. -/
theorem bind_eq {x y : Except ε α} {f : α → Except ε γ} {g : α → Except ε δ}
    (h : Concur kind lenient Eq x y) (hfg : ∀ a, Concur kind lenient S (f a) (g a)) :
    Concur kind lenient S (x >>= f) (y >>= g) :=
  h.bind fun a _ same => same ▸ hfg a

/-- Of outcomes that concur the second is a value if the first is one. -/
theorem of_ok {a : α} (h : Concur kind lenient R x y)
    (hx : x = .ok a) : ∃ b, y = .ok b ∧ R a b := by
  cases h with
  | ok related =>
    cases hx
    exact ⟨_, rfl, related⟩
  | error same => cases hx
  | excused excuse => cases hx

/-- Without leniency, outcomes that concur are the same but for what failures of a kind say. -/
theorem mapError_eq {x y : Except ε α} (h : Concur kind False Eq x y) :
    y.mapError kind = x.mapError kind := by
  cases h with
  | ok related => rw [related]
  | error same => exact congrArg Except.error same
  | excused excuse => exact excuse.elim

/-- Failures of the same kind are of the same coarser kind. -/
theorem coarsen {κ' : Type} {kind' : ε → κ'} (h : Concur kind lenient R x y)
    (coarser : ∀ d d', kind d' = kind d → kind' d' = kind' d) : Concur kind' lenient R x y := by
  cases h with
  | ok related => exact .ok related
  | error same => exact .error (coarser _ _ same)
  | excused excuse => exact .excused excuse

end Concur

/-! ### Scopes -/

/-- In what the second of two conversions may differ from the first. -/
structure Leeway where
  /-- What only the second conversion has written before. -/
  front : String := ""
  /-- The names that may be parameters of the second conversion only. -/
  added : List String := []
  /-- Whether the second conversion may go on where the first fails. -/
  lenient : Prop := False
  lenient_of_added : ∀ name ∈ added, lenient := by simp

namespace Tracker

/-- Two trackers with the same frames and regions. The second may have more parameters, namely
among the added ones. -/
structure Within (added : List String) (t t' : Tracker) : Prop where
  component : t'.component = t.component
  frames : t'.frames = t.frames
  regions : t'.regions = t.regions
  parameters : (t'.parameters.filter fun name => name ∉ added) =
    t.parameters.filter fun name => name ∉ added
  kept : ∀ name ∈ t.parameters, name ∈ t'.parameters

namespace Within

variable {w : Leeway} {added : List String} {t t' : Tracker} {name : String}

theorem refl (added : List String) (t : Tracker) : t.Within added t :=
  ⟨rfl, rfl, rfl, rfl, fun _ known => known⟩

/-- Where no name is added, the trackers are the same. -/
theorem eq_of_nil (h : t.Within [] t') : t' = t := by
  obtain ⟨component, frames, regions, parameters, -⟩ := h
  have parameters : t'.parameters = t.parameters := by
    simpa only [List.not_mem_nil, not_false_eq_true, decide_true, List.filter_true] using parameters
  cases t
  cases t'
  cases component
  cases frames
  cases regions
  cases parameters
  rfl

/-- The names that are not added are parameters of both or of none. -/
theorem mem_parameters_iff (h : t.Within added t') (hname : name ∉ added) :
    name ∈ t'.parameters ↔ name ∈ t.parameters := by
  have mem : name ∈ (t'.parameters.filter fun name => name ∉ added) ↔
      name ∈ t.parameters.filter fun name => name ∉ added := by rw [h.parameters]
  simpa only [List.mem_filter, decide_eq_true hname, and_true] using mem

theorem inCode (h : t.Within added t') : t'.inCode = t.inCode := by
  unfold Tracker.inCode
  rw [h.regions]

theorem bindingFrame? (h : t.Within added t') : t'.bindingFrame? name = t.bindingFrame? name := by
  unfold Tracker.bindingFrame?
  rw [h.frames]

theorem currentItem? (h : t.Within added t') : t'.currentItem? = t.currentItem? := by
  unfold Tracker.currentItem? Tracker.currentLoop?
  rw [h.frames]

/-- What is visible stays visible. -/
theorem isVisible_of (h : t.Within added t') (visible : t.isVisible name = true) :
    t'.isVisible name = true := by
  rw [isVisible, Bool.or_eq_true, isParameter, List.contains_iff_mem] at visible ⊢
  rw [h.bindingFrame?]
  exact visible.imp_right (h.kept name)

/-- A name that is not added is visible to both or to none. -/
theorem isVisible_eq (h : t.Within added t') (hname : name ∉ added) :
    t'.isVisible name = t.isVisible name := by
  rw [isVisible, isVisible, h.bindingFrame?, isParameter, isParameter, Bool.eq_iff_iff]
  simp only [Bool.or_eq_true, List.contains_iff_mem, h.mem_parameters_iff hname]

/-- The second of two conversions sees a name that the first does not see only by leniency. -/
theorem lenient_of_isVisible (h : t.Within w.added t') (visible : t'.isVisible name = true)
    (hidden : ¬ t.isVisible name = true) : w.lenient := by
  by_cases hname : name ∈ w.added
  · exact w.lenient_of_added name hname
  · rw [h.isVisible_eq hname] at visible
    exact absurd visible hidden

theorem enter (h : t.Within added t') (kind : FrameKind) (item array : Option String) :
    (t.enter kind item array).Within added (t'.enter kind item array) := by
  refine ⟨h.component, ?_, h.regions, h.parameters, h.kept⟩
  unfold Tracker.enter
  rw [h.frames, h.regions]

theorem enterCode (h : t.Within added t') : t.enterCode.Within added t'.enterCode :=
  ⟨h.component, h.frames, congrArg (Region.code :: ·) h.regions, h.parameters, h.kept⟩

/-- A name that is not yet a parameter becomes one in both. -/
theorem declare (h : t.Within added t') (name : String) :
    (if t.parameters.contains name then t
      else { t with parameters := t.parameters ++ [name] }).Within added
    (if t'.parameters.contains name then t'
      else { t' with parameters := t'.parameters ++ [name] }) := by
  by_cases known : name ∈ t.parameters
  · rw [if_pos (List.contains_iff_mem.mpr known),
      if_pos (List.contains_iff_mem.mpr (h.kept name known))]
    exact h
  rw [if_neg (mt List.contains_iff_mem.mp known)]
  by_cases known' : name ∈ t'.parameters
  · -- the name was added, so it does not count in the first tracker either
    have hname : name ∈ added := by
      by_contra hname
      exact known ((h.mem_parameters_iff hname).mp known')
    rw [if_pos (List.contains_iff_mem.mpr known')]
    refine ⟨h.component, h.frames, h.regions, ?_, fun other hother => ?_⟩
    · rw [h.parameters]
      simp [List.filter_append, hname]
    · rcases List.mem_append.mp hother with hother | hother
      · exact h.kept other hother
      · exact List.mem_singleton.mp hother ▸ known'
  · rw [if_neg (mt List.contains_iff_mem.mp known')]
    refine ⟨h.component, h.frames, h.regions, ?_, fun other hother => ?_⟩
    · rw [List.filter_append, List.filter_append, h.parameters]
    · exact List.mem_append.mpr ((List.mem_append.mp hother).imp_left (h.kept other))

theorem bind (h : t.Within added t') (kind : BindingKind) :
    (t.bind name kind).Within added (t'.bind name kind) := by
  have declared := h.declare name
  unfold Tracker.bind
  rw [h.frames] at declared ⊢
  split
  · exact ⟨h.component, rfl, h.regions, h.parameters, h.kept⟩
  · exact declared

/-! ### Checks of the scopes -/

theorem requireVisible (h : t.Within w.added t') {context context' : String}
    {line line' : Option Int} {snippet snippet' : Option Snippet}
    (known : line'.isSome = line.isSome) :
    Concur Diagnostic.gist w.lenient Eq (t.requireVisible name context line snippet)
      (t'.requireVisible name context' line' snippet') := by
  unfold Tracker.requireVisible
  by_cases visible : t.isVisible name = true
  · rw [if_pos visible, if_pos (h.isVisible_of visible)]
    exact .ok rfl
  · rw [if_neg visible]
    split
    · rename_i visible'
      exact .excused (h.lenient_of_isVisible visible' visible)
    · refine .error ?_
      rw [Diagnostic.gist, Diagnostic.hasLine, known]
      rfl

theorem leaveCode (h : t.Within added t') (lenient : Prop) :
    Concur Diagnostic.gist lenient (Within added) t.leaveCode t'.leaveCode := by
  unfold Tracker.leaveCode
  rw [h.regions]
  split
  · exact .ok ⟨h.component, h.frames, rfl, h.parameters, h.kept⟩
  · exact .error rfl

theorem exit (h : t.Within added t') (lenient : Prop) (expected : Option FrameKind) :
    Concur Diagnostic.gist lenient (fun r r' => r.2.Within added r'.2) (t.exit expected)
      (t'.exit expected) := by
  unfold Tracker.exit
  rw [h.frames, h.regions]
  split
  · split
    · exact .error rfl
    · split
      · exact .ok ⟨h.component, rfl, rfl, h.parameters, h.kept⟩
      · exact .error rfl
  · exact .error rfl

theorem finish (h : t.Within added t') (lenient : Prop) :
    Concur Diagnostic.gist lenient Eq t.finish t'.finish := by
  unfold Tracker.finish
  rw [h.frames, h.regions]
  split
  · exact .error rfl
  · split
    · exact .error rfl
    · exact .ok rfl

end Within

end Tracker

/-! ### Parts of conversions -/

/-- Two states of conversions that are abreast: the same scopes are open, the place in the markup is
the same, and the second has written what the first has, behind what it had written before. -/
structure Progress.Abreast (w : Leeway) (s s' : Progress) : Prop where
  tracker : s.tracker.Within w.added s'.tracker
  cursor : s.cursor.Alike s'.cursor
  written : s'.written = w.front ++ s.written

namespace Emit

/-- The value and the state that a part of a conversion leads to. -/
def outcome {α : Type} : EStateM.Result Diagnostic Progress α → Except Diagnostic (α × Progress)
  | .ok a s => .ok (a, s)
  | .error d _ => .error d

theorem outcome_bind {α β : Type} (x : Emit α) (f : α → Emit β) (s : Progress) :
    outcome ((x >>= f) s) = outcome (x s) >>= fun r => outcome (f r.1 r.2) := by
  simp only [bind, EStateM.bind]
  cases x s <;> rfl

/-- Two parts of conversions that go in tandem. -/
def Tandem {α : Type} (w : Leeway) (x y : Emit α) : Prop :=
  ∀ s s' : Progress, s.Abreast w s' →
    Concur Diagnostic.gist w.lenient (fun r r' => r.1 = r'.1 ∧ r.2.Abreast w r'.2)
      (outcome (x s)) (outcome (y s'))

namespace Tandem

variable {α β : Type} {w : Leeway} {x y : Emit α} {f g : α → Emit β}

theorem bind (h : Tandem w x y) (hfg : ∀ a, Tandem w (f a) (g a)) :
    Tandem w (x >>= f) (y >>= g) := by
  intro s s' abreast
  rw [outcome_bind, outcome_bind]
  refine (h s s' abreast).bind fun r r' related => ?_
  rw [← related.1]
  exact hfg r.1 r.2 r'.2 related.2

theorem pure (a : α) : Tandem w (Pure.pure a) (Pure.pure a) :=
  fun _ _ abreast => .ok ⟨rfl, abreast⟩

theorem throw {d d' : Diagnostic} (same : d'.gist = d.gist) :
    Tandem w (throw d : Emit α) (throw d') := fun _ _ _ => .error same

/-- A check, and what is done with its value. -/
theorem ofExcept_bind {γ δ : Type} {R : γ → δ → Prop} {r : Except Diagnostic γ}
    {r' : Except Diagnostic δ} {f : γ → Emit β} {g : δ → Emit β}
    (h : Concur Diagnostic.gist w.lenient R r r')
    (hfg : ∀ a b, R a b → Tandem w (f a) (g b)) :
    Tandem w (ofExcept r >>= f) (ofExcept r' >>= g) := by
  intro s s' abreast
  cases h with
  | ok related => exact hfg _ _ related s s' abreast
  | error same => exact .error same
  | excused excuse => exact .excused excuse

theorem ofExcept {r r' : Except Diagnostic α} (h : Concur Diagnostic.gist w.lenient Eq r r') :
    Tandem w (ofExcept r : Emit α) (ofExcept r') := by
  intro s s' abreast
  cases h with
  | ok related => exact .ok ⟨related, abreast⟩
  | error same => exact .error same
  | excused excuse => exact .excused excuse

/-- A check whose value is used alike. -/
theorem check {r r' : Except Diagnostic α} (h : Concur Diagnostic.gist w.lenient Eq r r')
    (hfg : ∀ a, Tandem w (f a) (g a)) :
    Tandem w (MonadExcept.ofExcept r >>= f) (MonadExcept.ofExcept r' >>= g) :=
  (ofExcept h).bind hfg

theorem tracker {f g : Tracker → Emit β}
    (h : ∀ t t', t.Within w.added t' → Tandem w (f t) (g t')) :
    Tandem w (Emit.tracker >>= f) (Emit.tracker >>= g) :=
  fun s s' abreast => h s.tracker s'.tracker abreast.tracker s s' abreast

theorem cursor {f g : Cursor → Emit β} (h : ∀ k k', k.Alike k' → Tandem w (f k) (g k')) :
    Tandem w (Emit.cursor >>= f) (Emit.cursor >>= g) :=
  fun s s' abreast => h s.cursor s'.cursor abreast.cursor s s' abreast

/-- Both parts are in code or neither is. -/
theorem inCode {f g : Bool → Emit β} (h : ∀ code, Tandem w (f code) (g code)) :
    Tandem w (Emit.inCode >>= f) (Emit.inCode >>= g) := by
  intro s s' abreast
  have run := h s.tracker.inCode s s' abreast
  change Concur _ _ _ (outcome (f s.tracker.inCode s)) (outcome (g s'.tracker.inCode s'))
  rw [abreast.tracker.inCode]
  exact run

theorem note (event event' : Event) : Tandem w (Emit.note event) (Emit.note event') :=
  fun _ _ abreast => .ok ⟨rfl, abreast.tracker, abreast.cursor, abreast.written⟩

theorem write (piece : Piece) : Tandem w (Emit.write piece) (Emit.write piece) := by
  intro s s' abreast
  have written : (s'.writing piece).written = w.front ++ (s.writing piece).written := by
    rw [Progress.written_writing, Progress.written_writing, abreast.written, String.append_assoc]
  exact .ok ⟨rfl, abreast.tracker, abreast.cursor, written⟩

theorem moveCursor {f g : Cursor → Cursor} (h : ∀ k k', k.Alike k' → (f k).Alike (g k')) :
    Tandem w (Emit.moveCursor f) (Emit.moveCursor g) :=
  fun _ _ abreast => .ok ⟨rfl, abreast.tracker, h _ _ abreast.cursor, abreast.written⟩

theorem setTracker {t t' : Tracker} (within : t.Within w.added t') :
    Tandem w (Emit.setTracker t) (Emit.setTracker t') :=
  fun _ _ abreast => .ok ⟨rfl, within, abreast.cursor, abreast.written⟩

theorem enterScope (kind : FrameKind) (item array : Option String) :
    Tandem w (Emit.enterScope kind item array) (Emit.enterScope kind item array) := by
  refine tracker fun t t' within => (setTracker (within.enter kind item array)).bind fun _ => ?_
  cases item with
  | none => exact .pure ()
  | some item => exact tracker fun t t' within => setTracker (within.bind .loopItem)

theorem exitScope (kind : FrameKind) : Tandem w (Emit.exitScope kind) (Emit.exitScope kind) :=
  tracker fun _ _ within =>
    ofExcept_bind (within.exit w.lenient _) fun _ _ outer => setTracker outer

theorem enterCode : Tandem w Emit.enterCode Emit.enterCode :=
  tracker fun _ _ within => setTracker within.enterCode

theorem leaveCode : Tandem w Emit.leaveCode Emit.leaveCode :=
  tracker fun _ _ within =>
    ofExcept_bind (within.leaveCode w.lenient) fun _ _ outer => setTracker outer

/-! ### Literal text -/

theorem replay (found : Marker) : Tandem w (Emit.replay found) (Emit.replay found) := by
  refine tracker fun t t' within => ?_
  cases found with
  | quoted => exact .pure ()
  | openCode =>
    dsimp only
    rw [within.inCode]
    split
    · exact .throw rfl
    · exact enterCode
  | closeCode =>
    dsimp only
    rw [within.inCode]
    split
    · exact leaveCode
    · exact .throw rfl
  | loop array item => exact check (within.requireVisible rfl) fun _ => enterScope _ _ _
  | endLoop => exact exitScope _
  | conditional => exact enterScope _ _ _
  | endConditional => exact exitScope _

theorem replayAll (xs : List Segment) :
    Tandem w (Emit.replayAll xs) (Emit.replayAll xs) := by
  induction xs with
  | nil => exact .pure ()
  | cons x xs ih =>
    unfold Emit.replayAll
    cases x with
    | text content =>
      refine inCode fun code => ?_
      split
      · exact (moveCursor fun _ _ alike => alike.feed content).bind fun _ => ih
      · exact ih
    | marker found => exact (replay found).bind fun _ => ih

theorem text (content : String) : Tandem w (Emit.text content) (Emit.text content) := by
  unfold Emit.text
  split
  · exact .pure ()
  · exact (write _).bind fun _ => inCode fun code => replayAll _

theorem chunk (content : String) : Tandem w (Emit.chunk content) (Emit.chunk content) :=
  (note _ _).bind fun _ => text content

theorem constantText (content : String) :
    Tandem w (Emit.constantText content) (Emit.constantText content) :=
  (note _ _).bind fun _ => text content

theorem chunks (texts : List String) : Tandem w (Emit.chunks texts) (Emit.chunks texts) := by
  induction texts with
  | nil => exact .pure ()
  | cons content texts ih => exact (chunk content).bind fun _ => ih

/-! ### Blocks -/

theorem condition {test test' : Emit Unit} (h : Tandem w test test') :
    Tandem w (Emit.condition test) (Emit.condition test') :=
  (write _).bind fun _ => enterCode.bind fun _ => h.bind fun _ => leaveCode.bind fun _ => write _

theorem writeAll (pieces : List Piece) :
    Tandem w (pieces.forM Emit.write) (pieces.forM Emit.write) := by
  induction pieces with
  | nil => exact .pure ()
  | cons piece pieces ih => exact (write piece).bind fun _ => ih

/-- Two branches that go in tandem, behind the same separator. -/
def Branch (w : Leeway) (part part' : List Piece × Emit Unit) : Prop :=
  part.1 = part'.1 ∧ Tandem w part.2 part'.2

theorem branches {start start' : Cursor} (alike : start.Alike start')
    {parts parts' : List (List Piece × Emit Unit)} (h : List.Forall₂ (Branch w) parts parts') :
    Tandem w (Emit.branches start parts) (Emit.branches start' parts') := by
  induction h with
  | nil => exact .pure ()
  | @cons part part' rest rest' first _ ih =>
    obtain ⟨separator, branch⟩ := part
    obtain ⟨separator', branch'⟩ := part'
    obtain ⟨rfl, branches⟩ := first
    exact (writeAll separator).bind fun _ => (moveCursor fun _ _ _ => alike).bind fun _ =>
      branches.bind fun _ => ih

theorem block (kind : FrameKind) (item array : Option String) (closer : Piece)
    {parts parts' : List (List Piece × Emit Unit)} (h : List.Forall₂ (Branch w) parts parts') :
    Tandem w (Emit.block kind item array parts closer)
      (Emit.block kind item array parts' closer) :=
  (enterScope _ _ _).bind fun _ => cursor fun _ _ alike => (branches alike h).bind fun _ =>
    (exitScope _).bind fun _ => write _

theorem inlineConditional {test consequent alternate test' consequent' alternate' : Emit Unit}
    (htest : Tandem w test test') (hthen : Tandem w consequent consequent')
    (helse : Tandem w alternate alternate') :
    Tandem w (Emit.inlineConditional test consequent alternate)
      (Emit.inlineConditional test' consequent' alternate') :=
  (enterScope _ _ _).bind fun _ => (write _).bind fun _ => htest.bind fun _ =>
    (write _).bind fun _ => hthen.bind fun _ => (write _).bind fun _ => helse.bind fun _ =>
    exitScope _

theorem hole {content content' : Emit Unit} {e e' : Expr} {label label' : String}
    (h : Tandem w content content') :
    Tandem w (Emit.hole e label content) (Emit.hole e' label' content') := by
  refine inCode fun code => (note _ _).bind fun _ => h.bind fun _ => ?_
  split
  · exact moveCursor fun _ _ alike => alike.interpolated
  · exact .pure ()

end Tandem

end Emit

end ServerTemplate

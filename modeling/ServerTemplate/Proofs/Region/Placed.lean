import ServerTemplate.Proofs.Region.Bare
import ServerTemplate.Proofs.Region.Branches

/-!
# Where pieces are written

Each piece of a conversion has been written in some scopes (`Progress.placed`): the scopes change in
steps of the journal, so these are the scopes of the last step in front of the piece. Up to a state
all is in order (`Progress.Orderly`) if at every step the regions were markup alone or code in
markup, and an expression that began was written bare just if it began in code.

`Emit.Places` says of a part of a conversion that begins in order what comes of it: all stays in
order, and what is written is spread over the blocks of the part. There is one rule for every
operation that writes literal text or values in markup.
-/

namespace ServerTemplate

open Emit

/-! ### Where pieces are written -/

/-- Pieces, the last first, with the scopes in which each was written: those of the last step in
front of it. -/
def placedIn : List Moment → List Piece → List (Piece × Tracker)
  | [], _ => []
  | m :: older, pieces =>
    (pieces.take (pieces.length - m.written.length)).map (fun piece => (piece, m.tracker)) ++
      placedIn older m.written

/-- What has been written, the last first, each piece with the scopes in which it was. -/
def Progress.placed (s : Progress) : List (Piece × Tracker) := placedIn s.journal s.pieces

/-- At this moment the regions are markup alone or code in markup, and an expression that begins is
written bare just if code is being written. -/
structure Moment.InOrder (m : Moment) : Prop where
  flat : m.tracker.Flat
  bare : ∀ e label bare, m.event = .expression e label bare → bare = m.tracker.inCode

/-- All that has happened is in order, and the journal knows in which scopes each piece was written.
-/
structure Progress.Orderly (s : Progress) : Prop where
  flat : s.tracker.Flat
  moments : ∀ m ∈ s.journal, m.InOrder
  /-- The last step knows the scopes. -/
  newest : ∃ m older, s.journal = m :: older ∧ m.tracker = s.tracker ∧
    m.written.length ≤ s.pieces.length
  whole : s.placed.map Prod.fst = s.pieces

namespace Progress

variable {s s' : Progress} {t : Tracker} {piece : Piece}

@[simp] theorem placed_noting (s : Progress) (event : Event) :
    (s.noting event).placed = s.placed := by
  simp [placed, placedIn]

@[simp] theorem placed_tracking (s : Progress) (t : Tracker) :
    (s.tracking t).placed = s.placed := by
  simp [placed, placedIn]

@[simp] theorem placed_moving (s : Progress) (k : Cursor) : (s.moving k).placed = s.placed := rfl

namespace Orderly

/-- A piece is written in the scopes of the state. -/
theorem placed_writing (h : s.Orderly) (piece : Piece) :
    (s.writing piece).placed = (piece, s.tracker) :: s.placed := by
  obtain ⟨m, older, hjournal, htracker, length⟩ := h.newest
  have more : s.pieces.length + 1 - m.written.length = s.pieces.length - m.written.length + 1 := by
    omega
  simp only [placed, writing_pieces, writing_journal, hjournal, placedIn, List.length_cons, more,
    List.take_succ_cons, List.map_cons, List.cons_append, htracker]

theorem noting (h : s.Orderly) {event : Event}
    (bare : ∀ e label bare, event = .expression e label bare → bare = s.tracker.inCode) :
    (s.noting event).Orderly where
  flat := h.flat
  moments m hm := by
    rcases List.mem_cons.mp hm with rfl | hm
    · exact ⟨h.flat, bare⟩
    · exact h.moments m hm
  newest := ⟨_, _, rfl, rfl, le_refl _⟩
  whole := by rw [placed_noting, h.whole, noting_pieces]

theorem tracking (h : s.Orderly) (flat : t.Flat) : (s.tracking t).Orderly where
  flat := flat
  moments m hm := by
    rcases List.mem_cons.mp hm with rfl | hm
    · exact ⟨flat, nofun⟩
    · exact h.moments m hm
  newest := ⟨_, _, rfl, rfl, le_refl _⟩
  whole := by rw [placed_tracking, h.whole, tracking_pieces]

theorem writing (h : s.Orderly) (piece : Piece) : (s.writing piece).Orderly where
  flat := h.flat
  moments := h.moments
  newest := by
    obtain ⟨m, older, hjournal, htracker, length⟩ := h.newest
    exact ⟨m, older, hjournal, htracker, Nat.le_succ_of_le length⟩
  whole := by rw [h.placed_writing, List.map_cons, h.whole, writing_pieces]

theorem moving (h : s.Orderly) (k : Cursor) : (s.moving k).Orderly :=
  ⟨h.flat, h.moments, h.newest, h.whole⟩

/-- What is done in code is in order. -/
theorem codeRun (h : s.Orderly) (run : CodeRun s s') : s'.Orderly := by
  induction run with
  | refl => exact h
  | tail _ step ih =>
    cases step with
    | begins code e label =>
      refine ih.noting fun _ _ bare same => ?_
      cases same
      exact code.symm
    | write => exact ih.writing _
    | frame _ same => exact ih.tracking (ih.flat.of_regions same).1

end Orderly

end Progress

/-! ### What a part of a conversion writes -/

/-- The claim of a piece on the scopes in which it is written: code stands in code, and everything
else but literal text in markup. -/
def Piece.Fits (t : Tracker) : Piece → Prop
  | text _ => True
  | operand _ | constant _ | symbol _ => t.inCode = true
  | _ => t.inCode = false

/-- Whether a piece stands where a branch of a block has ended. -/
def Piece.endsBranch : Piece → Bool
  | otherwise | ifEnd | loopEnd => true
  | _ => false

/-- From one state another is reached in order, and `new` is what has been written meanwhile, the
last first. -/
structure Progress.Adds (s s' : Progress) (new : List (Piece × Tracker)) : Prop where
  orderly : s'.Orderly
  placed : s'.placed = new ++ s.placed

theorem Progress.Adds.trans {s s₁ s₂ : Progress} {new new' : List (Piece × Tracker)}
    (h : s.Adds s₁ new) (h' : s₁.Adds s₂ new') : s.Adds s₂ (new' ++ new) :=
  ⟨h'.orderly, by rw [h'.placed, h.placed, List.append_assoc]⟩

namespace Progress.Orderly

variable {s s' : Progress}

theorem adds (h : s.Orderly) : s.Adds s [] := ⟨h, rfl⟩

theorem adds_writing (h : s.Orderly) (piece : Piece) :
    s.Adds (s.writing piece) [(piece, s.tracker)] :=
  ⟨h.writing piece, h.placed_writing piece⟩

theorem adds_tracking (h : s.Orderly) {t : Tracker} (flat : t.Flat) : s.Adds (s.tracking t) [] :=
  ⟨h.tracking flat, placed_tracking s t⟩

theorem adds_moving (h : s.Orderly) (k : Cursor) : s.Adds (s.moving k) [] :=
  ⟨h.moving k, placed_moving s k⟩

/-- In code, the code of expressions is written and nothing else. -/
theorem adds_codeRun (h : s.Orderly) (run : CodeRun s s') :
    ∃ new, s.Adds s' new ∧ ∀ y ∈ new, y.1.isCode = true ∧ y.2.inCode = true := by
  induction run with
  | refl => exact ⟨[], h.adds, nofun⟩
  | tail _ step ih =>
    obtain ⟨new, added, bare⟩ := ih
    cases step with
    | begins code e label =>
      refine ⟨new, ⟨added.orderly.codeRun (.single (.begins code e label)), ?_⟩, bare⟩
      rw [placed_noting, added.placed]
    | @write piece code isCode =>
      refine ⟨_, added.trans (added.orderly.adds_writing piece), fun y hy => ?_⟩
      rcases List.mem_cons.mp hy with rfl | hy
      · exact ⟨isCode, code⟩
      · exact bare y hy
    | frame code same =>
      refine ⟨new, ⟨added.orderly.codeRun (.single (.frame code same)), ?_⟩, bare⟩
      rw [placed_tracking, added.placed]

end Progress.Orderly

/-- What is written where no branch ends fits the scopes in which it is. -/
def Begun (new : List (Piece × Tracker)) : Prop :=
  ∀ y ∈ new, y.1.endsBranch = false → y.1.Fits y.2

namespace Begun

variable {new new' : List (Piece × Tracker)} {piece : Piece} {t : Tracker}

theorem append (h : Begun new) (h' : Begun new') : Begun (new' ++ new) := by
  intro y hy
  rcases List.mem_append.mp hy with hy | hy
  · exact h' y hy
  · exact h y hy

/-- Where a branch ends, anything fits. -/
theorem cons (ends : piece.endsBranch = true) (h : Begun new) : Begun ((piece, t) :: new) := by
  intro y hy within
  rcases List.mem_cons.mp hy with rfl | hy
  · rw [ends] at within
    cases within
  · exact h y hy within

end Begun

/-- What is written by a part of a conversion with these blocks. -/
structure Spread (blocks : List BlockRun) (new : List (Piece × Tracker)) : Prop where
  begun : Begun new
  /-- A block ends in the regions in which its last branch does. -/
  ends : ∀ y ∈ new, y.1 = .ifEnd ∨ y.1 = .loopEnd → ∃ r ∈ blocks, y.2.regions = r.last.regions
  /-- An `else` stands just where the first of two branches ends. -/
  turns : ∀ t, (.otherwise, t) ∈ new ↔ ∃ r ∈ blocks, r.first? = some t

namespace Spread

variable {blocks blocks' : List BlockRun} {new new' : List (Piece × Tracker)} {t : Tracker}
  {piece : Piece}

theorem nil : Spread [] [] := ⟨nofun, nofun, by simp⟩

/-- Nothing but pieces that fit, where no branch ends. -/
theorem of_begun (h : ∀ y ∈ new, y.1.endsBranch = false ∧ y.1.Fits y.2) : Spread [] new where
  begun y hy _ := (h y hy).2
  ends y hy closes := by
    have within := (h y hy).1
    rcases closes with closes | closes <;> rw [closes] at within <;> cases within
  turns t := by
    constructor
    · intro hy
      cases (h _ hy).1
    · rintro ⟨_, ⟨⟩, _⟩

theorem single (within : piece.endsBranch = false) (fits : piece.Fits t) :
    Spread [] [(piece, t)] := by
  refine .of_begun fun y hy => ?_
  rw [List.mem_singleton.mp hy]
  exact ⟨within, fits⟩

theorem append (h : Spread blocks new) (h' : Spread blocks' new') :
    Spread (blocks ++ blocks') (new' ++ new) where
  begun := h.begun.append h'.begun
  ends y hy closes := by
    rcases List.mem_append.mp hy with hy | hy
    · obtain ⟨r, hr, same⟩ := h'.ends y hy closes
      exact ⟨r, List.mem_append_right _ hr, same⟩
    · obtain ⟨r, hr, same⟩ := h.ends y hy closes
      exact ⟨r, List.mem_append_left _ hr, same⟩
  turns t := by
    simp only [List.mem_append, h.turns, h'.turns, or_and_right, exists_or]
    exact or_comm

/-- The end of a block with one branch. -/
theorem sole {r : BlockRun} (closes : piece = .ifEnd ∨ piece = .loopEnd)
    (same : t.regions = r.last.regions) (none : r.first? = none) (h : Spread blocks new) :
    Spread (r :: blocks) ((piece, t) :: new) where
  begun := h.begun.cons (by rcases closes with rfl | rfl <;> rfl)
  ends y hy closes := by
    rcases List.mem_cons.mp hy with rfl | hy
    · exact ⟨r, List.mem_cons_self .., same⟩
    · obtain ⟨r', hr, same'⟩ := h.ends y hy closes
      exact ⟨r', List.mem_cons_of_mem _ hr, same'⟩
  turns u := by
    have other : (Piece.otherwise, u) ≠ (piece, t) := by
      rcases closes with rfl | rfl <;> nofun
    simp only [List.mem_cons, other, false_or, h.turns, exists_eq_or_imp, none, reduceCtorEq]

/-- The end of a block with two branches, with what is written in the branches and between them. -/
theorem two {r : BlockRun} {u : Tracker} (same : t.regions = r.last.regions)
    (first : r.first? = some u) (h : Spread blocks new) (h' : Spread blocks' new') :
    Spread (r :: (blocks ++ blocks')) ((.ifEnd, t) :: (new' ++ (.otherwise, u) :: new)) where
  begun := ((h.begun.cons rfl).append h'.begun).cons rfl
  ends y hy closes := by
    rcases List.mem_cons.mp hy with rfl | hy
    · exact ⟨r, List.mem_cons_self .., same⟩
    rcases List.mem_append.mp hy with hy | hy
    · obtain ⟨r', hr, same'⟩ := h'.ends y hy closes
      exact ⟨r', List.mem_cons_of_mem _ (List.mem_append_right _ hr), same'⟩
    rcases List.mem_cons.mp hy with rfl | hy
    · rcases closes with closes | closes <;> cases closes
    · obtain ⟨r', hr, same'⟩ := h.ends y hy closes
      exact ⟨r', List.mem_cons_of_mem _ (List.mem_append_left _ hr), same'⟩
  turns v := by
    have own : (∃ r' ∈ r :: (blocks ++ blocks'), r'.first? = some v) ↔
        v = u ∨ (∃ r ∈ blocks, r.first? = some v) ∨ ∃ r ∈ blocks', r.first? = some v := by
      simp only [List.mem_cons, exists_eq_or_imp, first, Option.some.injEq, eq_comm (b := v)]
      simp only [List.mem_append, or_and_right, exists_or]
    rw [own]
    simp only [List.mem_cons, List.mem_append, Prod.mk.injEq, reduceCtorEq, false_and, true_and,
      false_or, h.turns, h'.turns]
    exact or_comm.trans or_assoc

end Spread

namespace Emit

/-- What holds after a part, for a part whose result is known. -/
theorem After.mono_run {α : Type} {x : Emit α} {s : Progress} {good good' : α → Progress → Prop}
    {bad bad' : Diagnostic → Progress → Prop} (h : After x s good bad)
    (hgood : ∀ a s', x s = .ok a s' → good a s' → good' a s')
    (hbad : ∀ d s', bad d s' → bad' d s') : After x s good' bad' := by
  unfold After at h ⊢
  cases run : x s with
  | ok a s' =>
    rw [run] at h
    exact hgood a s' run h
  | error d s' =>
    rw [run] at h
    exact hbad d s' h

theorem follow_nil {α β : Type} (x : Emit α) (s : Progress) :
    follow x s (fun _ _ => ([] : List β)) = [] := by
  unfold follow
  split <;> rfl

/-- What a part of a conversion with these blocks comes to that begins in order: all stays in order,
and what it writes is spread over its blocks if it succeeds. -/
def Places {α : Type} (x : Emit α) (s : Progress) (blocks : List BlockRun) : Prop :=
  s.Orderly → After x s (fun _ s' => ∃ new, s.Adds s' new ∧ Spread blocks new)
    fun _ s' => ∃ new, s.Adds s' new ∧ Begun new

namespace Places

variable {α β : Type} {x : Emit α} {s : Progress} {blocks : List BlockRun} {job : Job}
  {label : String} {e : Expr}

theorem bind {f : α → Emit β} {blocks' : α → Progress → List BlockRun} (h : Places x s blocks)
    (hf : ∀ a s₁, x s = .ok a s₁ → Places (f a) s₁ (blocks' a s₁)) :
    Places (x >>= f) s (blocks ++ follow x s blocks') := by
  intro orderly
  rw [after_bind]
  refine (h orderly).mono_run (fun a s₁ run ⟨new, added, spread⟩ => ?_) fun _ _ failed => failed
  rw [follow_eq run]
  refine (hf a s₁ run added.orderly).mono (fun _ s₂ ⟨new', added', spread'⟩ => ?_)
    fun _ s₂ ⟨new', added', begun⟩ => ?_
  · exact ⟨_, added.trans added', spread.append spread'⟩
  · exact ⟨_, added.trans added', spread.begun.append begun⟩

/-- Two parts of which the first writes no block. -/
theorem bind_nil {f : α → Emit β} {blocks' : α → Progress → List BlockRun} (h : Places x s [])
    (hf : ∀ a s₁, x s = .ok a s₁ → Places (f a) s₁ (blocks' a s₁)) :
    Places (x >>= f) s (follow x s blocks') := h.bind hf

/-- Two parts of which the second writes no block. -/
theorem followed {f : α → Emit β} (h : Places x s blocks)
    (hf : ∀ a s₁, x s = .ok a s₁ → Places (f a) s₁ []) : Places (x >>= f) s blocks := by
  have both := h.bind hf
  rw [follow_nil, List.append_nil] at both
  exact both

/-- What fails may have any blocks. -/
theorem throw (d : Diagnostic) : Places (throw d : Emit α) s blocks :=
  fun orderly => ⟨[], orderly.adds, nofun⟩

theorem pure (a : α) : Places (Pure.pure a : Emit α) s [] :=
  fun orderly => ⟨[], orderly.adds, .nil⟩

theorem check {r : Except Diagnostic α} {f : α → Emit β}
    (hf : ∀ a, r = .ok a → Places (f a) s blocks) : Places (ofExcept r >>= f) s blocks := by
  cases r with
  | error d => exact throw d
  | ok a => exact hf a rfl

theorem tracker {f : Tracker → Emit β} (h : Places (f s.tracker) s blocks) :
    Places (Emit.tracker >>= f) s blocks := h

theorem cursor {f : Cursor → Emit β} (h : Places (f s.cursor) s blocks) :
    Places (Emit.cursor >>= f) s blocks := h

theorem inCode {f : Bool → Emit β} (h : Places (f s.tracker.inCode) s blocks) :
    Places (Emit.inCode >>= f) s blocks := h

theorem refuse {construct : Unsupported} : Places (Emit.refuse job e label construct) s blocks :=
  tracker (throw _)

/-- A step that begins no expression is noted. -/
theorem note {event : Event} (other : ∀ e label bare, event ≠ .expression e label bare) :
    Places (Emit.note event) s [] := by
  intro orderly
  refine ⟨[], ⟨orderly.noting fun e label bare same => ?_, Progress.placed_noting s event⟩, .nil⟩
  exact absurd same (other e label bare)

theorem write {piece : Piece} (within : piece.endsBranch = false) (fits : piece.Fits s.tracker) :
    Places (Emit.write piece) s [] :=
  fun orderly => ⟨_, orderly.adds_writing piece, .single within fits⟩

theorem moveCursor (f : Cursor → Cursor) : Places (Emit.moveCursor f) s [] :=
  fun orderly => ⟨[], orderly.adds_moving _, .nil⟩

theorem setTracker {t : Tracker} (flat : s.tracker.Flat → t.Flat) :
    Places (Emit.setTracker t) s [] :=
  fun orderly => ⟨[], orderly.adds_tracking (flat orderly.flat), .nil⟩

/-- An expression begins, in code if it is an operand. -/
theorem begin {use : Use} {f : Bool → Emit β} (code : use = .operand → s.tracker.inCode = true)
    {blocks : Bool → Progress → List BlockRun}
    (hf : ∀ s₁, s₁.tracker = s.tracker →
      Places (f s.tracker.inCode) s₁ (blocks s.tracker.inCode s₁)) :
    Places (Emit.begin use e label >>= f) s (follow (Emit.begin use e label) s blocks) := by
  have bare : (use == .operand || s.tracker.inCode) = s.tracker.inCode := by
    cases use <;> simp_all
  have begun : Places (Emit.begin use e label) s [] := by
    intro orderly
    rw [after_begin, bare]
    refine ⟨[], ⟨orderly.noting fun e label bare same => ?_, Progress.placed_noting s _⟩, .nil⟩
    cases same
    rfl
  refine begun.bind_nil fun a s₁ run => ?_
  cases run
  rw [bare]
  exact hf _ rfl

/-- An expression begins that has no blocks. -/
theorem begin_nil {use : Use} {f : Bool → Emit β} (code : use = .operand → s.tracker.inCode = true)
    (hf : ∀ s₁, s₁.tracker = s.tracker → Places (f s.tracker.inCode) s₁ []) :
    Places (Emit.begin use e label >>= f) s [] := by
  have begun : Places (Emit.begin use e label >>= f) s
      (follow (Emit.begin use e label) s fun _ _ => []) := begin code hf
  rw [follow_nil] at begun
  exact begun

/-! #### Literal text -/

theorem enterScope {kind : FrameKind} {item array : Option String} :
    Places (Emit.enterScope kind item array) s [] := by
  unfold Emit.enterScope
  have entered : Places (Emit.setTracker (s.tracker.enter kind item array)) s [] :=
    setTracker fun flat => (flat.of_regions rfl).1
  refine tracker (entered.followed fun _ s₁ _ => ?_)
  cases item with
  | none => exact pure ()
  | some item =>
    exact tracker (setTracker fun flat => (flat.of_regions (Tracker.regions_bind ..)).1)

theorem exitScope {kind : FrameKind} : Places (Emit.exitScope kind) s [] := by
  unfold Emit.exitScope
  refine tracker (check fun r left => ?_)
  obtain ⟨frame, t⟩ := r
  exact setTracker fun flat => (flat.of_regions (Tracker.regions_of_exit left)).1

theorem replay (marker : Marker) : Places (Emit.replay marker) s [] := by
  unfold Emit.replay
  refine tracker ?_
  cases marker with
  | quoted => exact pure ()
  | openCode =>
    dsimp only
    split
    · exact throw _
    · rename_i markup
      exact setTracker fun flat => flat.enterCode (Bool.not_eq_true _ ▸ markup)
  | closeCode =>
    dsimp only
    split
    · unfold Emit.leaveCode
      refine tracker (check fun t left => ?_)
      exact setTracker fun flat => (flat.leaveCode left).1
    · exact throw _
  | loop array item => exact check fun _ _ => enterScope
  | endLoop => exact exitScope
  | conditional => exact enterScope
  | endConditional => exact exitScope

theorem replayAll (xs : List Segment) : Places (Emit.replayAll xs) s [] := by
  induction xs generalizing s with
  | nil => exact pure ()
  | cons x xs ih =>
    cases x with
    | text content =>
      refine inCode ?_
      split
      · exact (moveCursor _).followed fun _ s₁ _ => ih
      · exact ih
    | marker marker => exact (replay marker).followed fun _ s₁ _ => ih

/-- Literal text is written anywhere, and the scopes stay in order. -/
theorem text (content : String) : Places (Emit.text content) s [] := by
  unfold Emit.text
  split
  · exact pure ()
  · have written : Places (Emit.write (.text content)) s [] := write rfl trivial
    exact written.followed fun _ s₁ _ => inCode (replayAll _)

theorem chunk (content : String) : Places (Emit.chunk content) s [] := by
  have noted : Places (Emit.note (.chunk content)) s [] := note nofun
  exact noted.followed fun _ s₁ _ => text content

theorem chunks (texts : List String) : Places (Emit.chunks texts) s [] := by
  induction texts generalizing s with
  | nil => exact pure ()
  | cons content rest ih => exact (chunk content).followed fun _ s₁ _ => ih

theorem constantText (content : String) : Places (Emit.constantText content) s [] := by
  have noted : Places (Emit.note (.constantText content)) s [] := note nofun
  exact noted.followed fun _ s₁ _ => text content

/-! #### Values in markup -/

section Markup

variable (markup : s.tracker.inCode = false)

include markup

theorem readValue : Places (Emit.readValue job e label false) s [] := by
  unfold Emit.readValue
  refine tracker (check fun r _ => cursor (check fun function _ => ?_))
  exact write rfl markup

theorem countOf : Places (Emit.countOf job e label false) s [] := by
  unfold Emit.countOf
  refine tracker (check fun r _ => ?_)
  exact write rfl markup

theorem property {object : Expr} {name : String} :
    Places (Emit.property job e object name label false) s [] := by
  unfold Emit.property
  refine tracker (check fun _ _ => ?_)
  split
  · exact readValue markup
  · split
    · exact countOf markup
    · exact readValue markup

omit markup in
/-- A constant that has a text is written as text in markup. -/
theorem constant {v : Constant} {spelling : String} :
    Places (Emit.constant job e v spelling label false) s [] := by
  cases v with
  | null => exact refuse
  | bool value => cases value <;> exact refuse
  | int => exact constantText _
  | float => exact constantText _
  | text | halves => exact constantText _

theorem helper {name : String} {arguments : List Expr} :
    Places (Emit.helper job e name label arguments) s [] := by
  unfold Emit.helper
  refine tracker ?_
  rw [markup, if_neg Bool.false_ne_true]
  split
  · refine check fun _ _ => cursor (check fun function _ => ?_)
    exact write rfl markup
  split
  · exact write rfl markup
  split
  · exact throw _
  · exact check fun rating _ => write rfl markup

theorem loopHead {array : String} {item? : Option String} :
    Places (Emit.loopHead job e array label item?) s [] := by
  unfold Emit.loopHead
  refine tracker ?_
  rw [markup, if_neg Bool.false_ne_true]
  refine check fun _ _ => ?_
  cases item? with
  | none => exact refuse
  | some item =>
    dsimp only
    split
    · exact refuse
    · exact write rfl markup

end Markup

end Places

end Emit

end ServerTemplate

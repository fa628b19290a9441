import ServerTemplate.Proofs.Emission.Lowered

/-!
# What a step changes

Seen by itself, each step makes the output longer at its end, changes the scopes in the ways that
`Tracker.Move` lists, and puts at most one read in markup into the journal, the one that it echoes.
-/

namespace ServerTemplate

open Emit

variable {job : Job} {P : Expr → Prop} {s s' : Progress}

/-- No read begins with an event that is not the beginning of an expression. -/
theorem Moment.not_reads_of_event {m : Moment}
    (h : ∀ e label bare, m.event ≠ .expression e label bare) (e : Expr) (label : String) :
    ¬ m.Reads e label :=
  fun ⟨⟨bare, he⟩, _⟩ => h e label bare he

/-- In code no read in markup begins. -/
theorem Moment.not_reads_of_inCode {e : Expr} {label : String} {bare : Bool} {t : Tracker}
    {k : Cursor} {written : List Piece} (other : e.isRead = true → t.inCode = true) (e' : Expr)
    (label' : String) : ¬ Moment.Reads ⟨.expression e label bare, t, k, written⟩ e' label' := by
  rintro ⟨⟨bare', he⟩, read, markup⟩
  cases he
  rw [other read] at markup
  cases markup

/-- What a text does to the output. -/
theorem Emit.Replayed.suffix {event : Event} {content : String}
    (h : Replayed ((s.noting event).texting content) s') : s.pieces <:+ s'.pieces := by
  rw [h.pieces, Progress.texting_pieces]
  split
  · exact List.suffix_rfl
  · exact List.suffix_cons _ _

/-- A change of the scopes puts no read into the journal. -/
theorem Progress.tracked_quiet (s : Progress) {t : Tracker} :
    ∀ m ∈ (s.tracking t).journal, m ∈ s.journal ∨ ∀ e label, ¬ m.Reads e label := by
  intro m hm
  rw [tracking_journal] at hm
  rcases List.mem_cons.mp hm with rfl | hm
  · exact .inr (Moment.not_reads_of_event nofun)
  · exact .inl hm

namespace Step

/-- What is written stays written. -/
theorem suffix (h : Step job P s s') : s.pieces <:+ s'.pieces := by
  cases h with
  | chunk replayed => exact (chunk_replayed replayed).suffix
  | constantText replayed => exact (constantText_replayed replayed).suffix
  | begins | hole | enter | leave | move => exact List.suffix_rfl
  | _ => exact List.suffix_cons _ _

/-- What is in the journal stays there. -/
theorem older (h : Step job P s s') : s.journal <:+ s'.journal := by
  have text {event : Event} {content : String}
      (h : Replayed ((s.noting event).texting content) s') : s.journal <:+ s'.journal := by
    have noted : s.journal <:+ ((s.noting event).texting content).journal := by
      rw [Progress.texting_journal]
      exact List.suffix_cons _ _
    exact noted.trans h.older
  cases h with
  | chunk replayed => exact text (chunk_replayed replayed)
  | constantText replayed => exact text (constantText_replayed replayed)
  | begins | hole | echo | openCondition | closeCondition | enter | leave =>
    exact List.suffix_cons _ _
  | _ => exact List.suffix_rfl

/-- The scopes change in few ways. -/
theorem scopes (h : Step job P s s') : Tracker.Moves s.tracker s'.tracker := by
  cases h with
  | chunk replayed => simpa using (chunk_replayed replayed).scopes
  | constantText replayed => simpa using (constantText_replayed replayed).scopes
  | openCondition => exact .single (.enterCode _)
  | closeCondition left => exact .single (.leaveCode left)
  | enter => exact .single (.enter _ (by decide))
  | leave _ left => exact .single (.exit left)
  | _ => exact .refl

/-- The only read in markup that a step puts into the journal is the one that it echoes. -/
theorem journal (h : Step job P s s') : ∀ m ∈ s'.journal, m ∈ s.journal ∨
    (∀ e label, ¬ m.Reads e label) ∨
    ∃ e label piece, m = ⟨.expression e label false, s.tracker, s.cursor, s.pieces⟩ ∧
      job.echoOf s.tracker s.cursor label e = .ok piece ∧ s'.pieces = piece :: s.pieces := by
  intro m hm
  cases h with
  | begins known other =>
    rcases List.mem_cons.mp hm with rfl | hm
    · exact .inr (.inl (Moment.not_reads_of_inCode other))
    · exact .inl hm
  | hole =>
    rcases List.mem_cons.mp hm with rfl | hm
    · exact .inr (.inl (Moment.not_reads_of_event nofun))
    · exact .inl hm
  | chunk replayed => exact ((chunk_replayed replayed).quiet nofun m hm).imp_right .inl
  | constantText replayed =>
    exact ((constantText_replayed replayed).quiet nofun m hm).imp_right .inl
  | echo known read markup resolved =>
    rcases List.mem_cons.mp hm with rfl | hm
    · exact .inr (.inr ⟨_, _, _, rfl, resolved, rfl⟩)
    · exact .inl hm
  | openCondition => exact ((s.writing .ifStart).tracked_quiet m hm).imp_right .inl
  | closeCondition => exact (s.tracked_quiet m hm).imp_right .inl
  | enter => exact (s.tracked_quiet m hm).imp_right .inl
  | leave => exact (s.tracked_quiet m hm).imp_right .inl
  | _ => exact .inl hm

end Step

/-! ### Blocks -/

/-- The frame of a block is opened around the others. -/
theorem Opens.scopes (h : Opens job P s s') : Tracker.Move s.tracker s'.tracker := by
  cases h with
  | conditional => exact .enter _ (by decide)
  | loop => exact .enterLoop _ _ _

theorem Opens.pieces (h : Opens job P s s') : s'.pieces = s.pieces := by
  cases h <;> rfl

theorem Opens.older (h : Opens job P s s') : s.journal <:+ s'.journal := by
  cases h with
  | conditional => exact (Replayed.tracking (.enter _ (by decide))).older
  | loop => exact (Replayed.enterLoop s _ _).older

theorem Opens.quiet (h : Opens job P s s') :
    ∀ m ∈ s'.journal, m ∈ s.journal ∨ m.event = .scopes := by
  cases h with
  | conditional => exact (Replayed.tracking (.enter _ (by decide))).journal
  | loop => exact (Replayed.enterLoop s _ _).journal

theorem Closes.suffix (h : Closes s s') : s.pieces <:+ s'.pieces := by
  obtain ⟨left, closes⟩ := h
  exact List.suffix_cons _ _

theorem Closes.older (h : Closes s s') : s.journal <:+ s'.journal := by
  obtain ⟨left, closes⟩ := h
  exact List.suffix_cons _ _

/-- What is written stays written. -/
theorem Runs.suffix (h : Runs job P s s') : s.pieces <:+ s'.pieces := by
  induction h with
  | refl => exact List.suffix_rfl
  | step step => exact step.suffix
  | trans _ _ ih₁ ih₂ => exact ih₁.trans ih₂
  | block opened _ closed ih => exact (opened.pieces ▸ ih).trans closed.suffix

theorem Runs.older (h : Runs job P s s') : s.journal <:+ s'.journal := by
  induction h with
  | refl => exact List.suffix_rfl
  | step step => exact step.older
  | trans _ _ ih₁ ih₂ => exact ih₁.trans ih₂
  | block opened _ closed ih => exact (opened.older.trans ih).trans closed.older

namespace Act

/-- What is written stays written. -/
theorem suffix (h : Act job P s s') : s.pieces <:+ s'.pieces := by
  cases h with
  | step step => exact step.suffix
  | opens opened => exact opened.pieces ▸ List.suffix_rfl
  | closes closed => exact closed.suffix
  | enterTemplate | leaveTemplate => exact List.suffix_rfl

theorem scopes (h : Act job P s s') : Tracker.Moves s.tracker s'.tracker := by
  cases h with
  | step step => exact step.scopes
  | opens opened => exact .single opened.scopes
  | closes closed =>
    obtain ⟨left, closes⟩ := closed
    exact .single (.exit left)
  | enterTemplate => exact .single (.enter _ (by decide))
  | leaveTemplate left => exact .single (.exit left)

/-- The only read in markup that comes into the journal is one that is echoed. -/
theorem journal (h : Act job P s s') : ∀ m ∈ s'.journal, m ∈ s.journal ∨
    (∀ e label, ¬ m.Reads e label) ∨
    ∃ e label piece, m = ⟨.expression e label false, s.tracker, s.cursor, s.pieces⟩ ∧
      job.echoOf s.tracker s.cursor label e = .ok piece ∧ s'.pieces = piece :: s.pieces := by
  intro m hm
  cases h with
  | step step => exact step.journal m hm
  | opens opened =>
    refine (opened.quiet m hm).imp_right fun hevent => .inl (Moment.not_reads_of_event ?_)
    rw [hevent]
    nofun
  | closes closed =>
    obtain ⟨left, closes⟩ := closed
    exact (s.tracked_quiet m hm).imp_right .inl
  | enterTemplate | leaveTemplate => exact (s.tracked_quiet m hm).imp_right .inl

end Act

end ServerTemplate

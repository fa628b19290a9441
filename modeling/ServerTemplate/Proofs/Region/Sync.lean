import ServerTemplate.Proofs.Region.Blocks

/-!
# The regions of a conversion are those of its output

A conversion decides from its region stack whether it writes code or markup, and never reads what it
has written. `regions_in_sync`: whenever a literal text or a hole begins, the stack says what a
server finds that reads the output so far, and the tags of a finished output alternate.

For this every literal text must be whole in itself (`Moment.Whole`): the strings in its code are
closed in the same text, none has a backslash before a line feed, and no tag is put together from a
text and what stands in front of it. And no branch may leave a region open for the next one
(`Progress.WellCut`). Generated pieces need no such condition.
-/

namespace ServerTemplate

open Emit

/-! ### Moments -/

/-- The text of pieces of which the last stands first. -/
def Piece.output (backwards : List Piece) : List Char := (writtenAll backwards.reverse).toList

theorem Piece.output_cons (piece : Piece) (backwards : List Piece) :
    output (piece :: backwards) = output backwards ++ piece.written.toList := by
  rw [output, List.reverse_cons, writtenAll_append, writtenAll_singleton, String.toList_append]
  rfl

/-- The literal text that begins with an event. -/
def Event.text? : Event → Option String
  | chunk text | constantText text => some text
  | _ => none

/-- Whether a text of the template, the text of a constant or the expression in a hole begins. -/
def Event.begins : Event → Bool
  | chunk _ | constantText _ | hole .. => true
  | _ => false

namespace Moment

/-- The output before a moment. -/
def output (m : Moment) : List Char := Piece.output m.written

/-- The region stack says in which mode the reading of the output before a moment ends. -/
def InSync (m : Moment) : Prop := Mode.markup.read m.output = .ofCode m.tracker.inCode

/-- A literal text that begins at a moment is whole in itself. -/
structure Whole (m : Moment) (content : String) : Prop where
  /-- No string is open at its end. -/
  closed : ((Mode.ofCode m.tracker.inCode).read content.toList).isQuoted = false
  /-- In its strings no backslash stands before a line feed. -/
  escapes : (Mode.ofCode m.tracker.inCode).escapesLineFeed content.toList = false
  /-- No tag begins in the output before it and ends in it. -/
  uncut : ¬ TagCut m.output content.toList

instance (m : Moment) (content : String) : Decidable (m.Whole content) :=
  decidable_of_iff
    (((Mode.ofCode m.tracker.inCode).read content.toList).isQuoted = false ∧
      (Mode.ofCode m.tracker.inCode).escapesLineFeed content.toList = false ∧
      ¬ TagCut m.output content.toList)
    ⟨fun h => ⟨h.1, h.2.1, h.2.2⟩, fun h => ⟨h.closed, h.escapes, h.uncut⟩⟩

end Moment

/-- Every literal text of a conversion is whole in itself, and every branch ends in markup. -/
structure Progress.WellCut (s : Progress) : Prop where
  texts : ∀ m ∈ s.journal, ∀ content ∈ m.event.text?, m.Whole content
  branches : ∀ before, .otherwise :: before <:+ s.pieces →
    Mode.markup.read (Piece.output before) = .markup

instance (s : Progress) : Decidable s.WellCut :=
  decidable_of_iff
    ((∀ m ∈ s.journal, ∀ content ∈ m.event.text?, m.Whole content) ∧
      ∀ pieces ∈ s.pieces.tails, pieces.head? = some .otherwise →
        Mode.markup.read (Piece.output pieces.tail) = .markup) <| by
    constructor
    · rintro ⟨texts, branches⟩
      refine ⟨texts, fun before h => ?_⟩
      exact branches (.otherwise :: before) ((List.mem_tails ..).mpr h) rfl
    · rintro ⟨texts, branches⟩
      refine ⟨texts, fun pieces h head => ?_⟩
      obtain ⟨before, rfl⟩ := List.head?_eq_some_iff.mp head
      exact branches before ((List.mem_tails ..).mp h)

/-- The output so far is read as the region stack says, and was at every moment so far. -/
structure Progress.InSync (s : Progress) : Prop where
  regular : s.tracker.Regular
  reads : ReadsTo false (Piece.output s.pieces) s.tracker.inCode
  moments : ∀ m ∈ s.journal, m.event.begins = true → m.InSync

variable {job : Job} {s s' final : Progress}

/-! ### Steps -/

/-- What is read to the end is read on with a generated piece. -/
theorem ReadsTo.writing {b : Bool} {piece : Piece} (h : ReadsTo false (Piece.output s.pieces) b)
    {b' : Bool} (passage : Passage b piece.written b') :
    ReadsTo false (Piece.output (s.writing piece).pieces) b' := by
  rw [Progress.writing_pieces, Piece.output_cons]
  exact h.append passage.reads (not_tagCut passage.fresh _)

theorem begins_scopes {m : Moment} (h : m.event = .scopes) : m.event.begins ≠ true := by
  rw [h]
  exact Bool.false_ne_true

/-- What begins with a step begins in the state before it. -/
theorem Step.of_begins {P : Expr → Prop} (h : Step job P s s') :
    ∀ m ∈ s'.journal, m.event.begins = true → m ∈ s.journal ∨
      (m.tracker = s.tracker ∧ m.written = s.pieces) := by
  have text {event : Event} {content : String}
      (h : Replayed ((s.noting event).texting content) s') :
      ∀ m ∈ s'.journal, m.event.begins = true → m ∈ s.journal ∨
        (m.tracker = s.tracker ∧ m.written = s.pieces) := by
    intro m hm begins
    rcases h.journal m hm with hm | hm
    · rw [Progress.texting_journal] at hm
      rcases List.mem_cons.mp hm with rfl | hm
      · exact .inr ⟨rfl, rfl⟩
      · exact .inl hm
    · exact (begins_scopes hm begins).elim
  intro m hm begins
  cases h with
  | chunk replayed => exact text (chunk_replayed replayed) m hm begins
  | constantText replayed => exact text (constantText_replayed replayed) m hm begins
  | begins | echo =>
    rcases List.mem_cons.mp hm with rfl | hm
    · cases begins
    · exact .inl hm
  | hole =>
    rcases List.mem_cons.mp hm with rfl | hm
    · exact .inr ⟨rfl, rfl⟩
    · exact .inl hm
  | openCondition | closeCondition | enter | leave =>
    rcases List.mem_cons.mp hm with rfl | hm
    · exact (begins_scopes rfl begins).elim
    · exact .inl hm
  | _ => exact .inl hm

/-- A literal text that is whole in itself is read as the scanner replays it. -/
theorem ReadsTo.text {event : Event} {content : String} (htext : event.text? = some content)
    (regular : s.tracker.Regular) (h : ReadsTo false (Piece.output s.pieces) s.tracker.inCode)
    (run : (do note event; text content : Emit Unit) s = .ok () s')
    (replayed : Replayed ((s.noting event).texting content) s') (wellCut : final.WellCut)
    (journal : s'.journal <:+ final.journal) :
    ReadsTo false (Piece.output s'.pieces) s'.tracker.inCode := by
  -- the text is noted, so it is one of those that are whole in the end
  have noted : ⟨event, s.tracker, s.cursor, s.pieces⟩ ∈ s'.journal := by
    refine replayed.older.subset ?_
    rw [Progress.texting_journal]
    exact List.mem_cons_self ..
  have whole := wellCut.texts _ (journal.subset noted) content htext
  have replays := replays_of_text regular run
  have way := goes_segmentsFrom none 0 whole.closed whole.escapes
  have reads : ReadsTo s.tracker.inCode content.toList s'.tracker.inCode := by
    rw [replays.region]
    exact way.readsTo replays.tags
  have written : Piece.output s'.pieces = Piece.output s.pieces ++ content.toList := by
    rw [replayed.pieces, Progress.texting_pieces]
    split
    · rename_i empty
      rw [empty]
      exact (List.append_nil _).symm
    · exact Piece.output_cons _ _
  rw [written]
  exact h.append reads whole.uncut

/-- What a step writes is read as the regions say. -/
theorem Step.reads (h : Step job Expr.Spelled s s') (regular : s.tracker.Regular)
    (reads : ReadsTo false (Piece.output s.pieces) s.tracker.inCode) (wellCut : final.WellCut)
    (journal : s'.journal <:+ final.journal) (pieces : s'.pieces <:+ final.pieces) :
    ReadsTo false (Piece.output s'.pieces) s'.tracker.inCode := by
  -- a piece is written in the region that it belongs to, and leads back to it
  have code {piece : Piece} (code : s.tracker.inCode = true)
      (passage : Passage true piece.written true) :
      ReadsTo false (Piece.output (s.writing piece).pieces) s.tracker.inCode := by
    rw [code] at reads ⊢
    exact reads.writing passage
  have markup {piece : Piece} (markup : s.tracker.inCode = false)
      (passage : Passage false piece.written false) :
      ReadsTo false (Piece.output (s.writing piece).pieces) s.tracker.inCode := by
    rw [markup] at reads ⊢
    exact reads.writing passage
  cases h with
  | begins | hole | enter | move => exact reads
  | chunk replayed =>
    exact .text rfl regular reads replayed (chunk_replayed replayed) wellCut journal
  | constantText replayed =>
    exact .text rfl regular reads replayed (constantText_replayed replayed) wellCut journal
  | echo known read hmarkup resolved =>
    obtain ⟨r, hr, resolved⟩ := exists_ok_of_bind resolved
    obtain ⟨function, hfunction, resolved⟩ := exists_ok_of_bind resolved
    cases resolved
    exact markup hmarkup
      (passage_echo (spelled_of_reading known hr) (plain_of_functionFor hfunction))
  | count known hmarkup read =>
    have spelled : (Operand.count _).Spelled := spelled_of_reading known read
    exact markup hmarkup (passage_echo spelled nofun)
  | operand known hcode read => exact code hcode (spelled_of_reading known read).passage
  | countOperand known hcode read =>
    have spelled : (Operand.count _).Spelled := spelled_of_reading known read
    exact code hcode spelled.passage
  | constant known hcode => exact code hcode (passage_constant known)
  | binary known hcode | logical known hcode => exact code hcode (passage_operator known)
  | bracket listed hcode =>
    refine code hcode ?_
    have all : ∀ sign ∈ ["( ", " )", " ) ? ", " : "], Passage true sign true := by decide
    exact all _ listed
  | resultCount known hmarkup resolved =>
    exact markup hmarkup (passage_resultCount _ (plain_of_functionFor resolved))
  | currentYear hmarkup =>
    have passage : Passage false "<?php echo date( 'Y' ); ?>" false := by decide
    exact markup hmarkup passage
  | stars known hmarkup loop rated =>
    have plain := regular.plain_currentItem? loop
    exact markup hmarkup (passage_stars _ (spelled_of_ratingOperand known plain rated))
  | openCondition hmarkup =>
    have passage : Passage false "<?php if ( " true := by decide
    rw [hmarkup] at reads
    exact reads.writing passage
  | closeCondition left hmarkup =>
    have passage : Passage true " ) : ?>" false := by decide
    rw [(regular.leaveCode left).2.2] at reads
    have after : ((s.tracking _).writing .ifTested).tracker.inCode = false := hmarkup
    rw [after]
    exact reads.writing passage
  | leave hcode left =>
    have same := Tracker.inCode_congr (Tracker.exit_frame left).2.2
    exact same ▸ reads
  | loopHead known known_array hmarkup =>
    exact markup hmarkup
      (passage_loopStart known_array (known _ (List.mem_singleton_self _)))
  | otherwise =>
    have passage : Passage false "<?php else : ?>" false := by decide
    -- the scopes do not tell that this is markup, as a branch may end in any region
    have found := wellCut.branches _ pieces
    have hmarkup : s.tracker.inCode = false :=
      Mode.ofCode_eq_markup.mp (reads.read.symm.trans found)
    exact markup hmarkup passage

/-- A step keeps the output in step with the regions. -/
theorem Progress.InSync.step (sync : s.InSync) (h : Step job Expr.Spelled s s')
    (wellCut : final.WellCut) (journal : s'.journal <:+ final.journal)
    (pieces : s'.pieces <:+ final.pieces) : s'.InSync where
  regular := (h.keeps sync.regular).regular
  reads := h.reads sync.regular sync.reads wellCut journal pieces
  moments m hm begins := by
    rcases h.of_begins m hm begins with old | ⟨htracker, hwritten⟩
    · exact sync.moments m old begins
    · rw [Moment.InSync, Moment.output, htracker, hwritten]
      exact sync.reads.read

/-! ### Blocks and whole conversions -/

/-- The frame of a block is opened without a word. -/
theorem Progress.InSync.opens (sync : s.InSync) (h : Opens job Expr.Spelled s s') : s'.InSync where
  regular := (h.regular sync.regular).1
  reads := by
    have markup : s.tracker.inCode = false := by cases h <;> assumption
    have reads := sync.reads
    rw [markup] at reads
    rw [h.pieces, (h.regular sync.regular).2.2]
    exact reads
  moments m hm begins := by
    rcases h.quiet m hm with old | scopes
    · exact sync.moments m old begins
    · exact (begins_scopes scopes begins).elim

/-- In markup a block is closed as it was opened. -/
theorem Progress.InSync.closes (sync : s.InSync) (h : Closes s s')
    (markup : s.tracker.inCode = false) : s'.InSync where
  regular := (h.regular sync.regular).1
  reads := by
    obtain ⟨left, closes⟩ := h
    rename_i closer _ t
    have passage : Passage false closer.written false := by
      rcases closes with rfl | rfl
      · exact (by decide : Passage false "<?php endif; ?>" false)
      · exact (by decide : Passage false "<?php endforeach; ?>" false)
    have same : ((s.tracking t).writing closer).tracker.inCode = s.tracker.inCode :=
      Tracker.inCode_congr (Tracker.exit_frame left).2.2
    have reads := sync.reads
    rw [same]
    rw [markup] at reads ⊢
    exact reads.writing passage
  moments m hm begins := by
    obtain ⟨left, closes⟩ := h
    rcases List.mem_cons.mp hm with rfl | hm
    · exact (begins_scopes rfl begins).elim
    · exact sync.moments m hm begins

/-- A part that leaves no block open keeps the output in step with the regions. -/
theorem Runs.inSync (h : Runs job Expr.Spelled s s') (sync : s.InSync)
    (balanced : s'.tracker.blocks ≤ s.tracker.blocks) (wellCut : final.WellCut)
    (journal : s'.journal <:+ final.journal) (pieces : s'.pieces <:+ final.pieces) : s'.InSync := by
  induction h with
  | refl => exact sync
  | step step => exact sync.step step wellCut journal pieces
  | trans first rest ih₁ ih₂ =>
    -- no part closes a block that it has not opened, so neither leaves one open
    obtain ⟨regular₁, le₁⟩ := first.regular sync.regular
    obtain ⟨_, le₂⟩ := rest.regular regular₁
    have sync₁ := ih₁ sync (le₂.trans balanced) (rest.older.trans journal)
      (rest.suffix.trans pieces)
    exact ih₂ sync₁ (balanced.trans le₁) journal pieces
  | block opened inner closed ih =>
    -- a block that ended in code would not have been closed
    obtain ⟨markup, le⟩ := Closes.markup opened inner closed sync.regular balanced
    have sync₂ := ih (sync.opens opened) le (closed.older.trans journal)
      (closed.suffix.trans pieces)
    exact sync₂.closes closed markup

theorem Job.inSync_begun (job : Job) :
    (job.start.tracking (job.start.tracker.enter .template)).InSync where
  regular := (Tracker.regular_start ..).enter .template
  reads := .nil false
  moments m hm begins := by
    rw [List.mem_singleton.mp hm] at begins
    exact (begins_scopes rfl begins).elim

/-- A whole conversion leaves no block open, so that it keeps the output in step throughout. -/
theorem Job.Done.inSync (h : job.Done Expr.Spelled s) (wellCut : s.WellCut) : s.InSync := by
  obtain ⟨⟨s₁, frame, t, inner, left, rfl⟩, frames, regions⟩ := h
  have regular₁ := (inner.regular job.inSync_begun.regular).1
  have regular := regular₁.exit left
  obtain ⟨kind, -, hregions⟩ := Tracker.exit_frame left
  -- only the root is left, so no block was open when the frame of the template was left
  have noBlock : frame.isBlock = false := Frame.isBlock_of_kind (.inr kind)
  have balanced : s₁.tracker.blocks ≤ 0 := by
    rw [Tracker.blocks_cons (Tracker.frames_exit left).1, noBlock, regular.blocks_eq_zero frames]
    exact Nat.le_refl 0
  have sync := inner.inSync job.inSync_begun (balanced.trans (Nat.zero_le _)) wellCut
    (List.suffix_cons _ _) List.suffix_rfl
  refine ⟨regular, ?_, fun m hm begins => ?_⟩
  · have reads := sync.reads
    rw [← Tracker.inCode_congr hregions] at reads
    exact reads
  · rcases List.mem_cons.mp hm with rfl | hm
    · exact (begins_scopes rfl begins).elim
    · exact sync.moments m hm begins

/-- Region sync: in every conversion that succeeds, of a template whose names, operators and numbers
are spelled as in a script, whose literal texts are whole in themselves and whose branches end in
markup, the region stack says at the beginning of every literal text and of every hole what a server
finds that reads the output so far; and in the whole output opening and closing tags alternate, the
last of them a closing one. -/
theorem regions_in_sync {template : Template} {pieces : List Piece}
    (spelled : Expr.AllIn Expr.Spelled template.holes) (h : job.pieces template = .ok pieces)
    (wellCut : (job.final template).WellCut) :
    (∀ m ∈ (job.final template).journal, m.event.begins = true → m.InSync) ∧
      ReadsTo false (Piece.writtenAll pieces).toList false := by
  obtain ⟨done, rfl⟩ := Job.done_of_pieces spelled h
  have sync := done.inSync wellCut
  refine ⟨sync.moments, ?_⟩
  have reads := sync.reads
  have markup : (job.final template).tracker.inCode = false := by
    rw [Tracker.inCode, done.regions]
  rw [markup] at reads
  exact reads

/-- A component with a title and a text. -/
def noteJob : Job where
  declaration :=
    { name := .str "Note"
      parameters :=
        [⟨"title", "string", .null, some .html⟩, ⟨"text", "string", .null, some .html⟩] }
  source := ""
  tag := "html"
  labels := ⟨"none", "one", "many"⟩
  stars := 5

/-- The template
`<p><?php echo '?>' . ${this.title}; ?>${this.text ? html`<b>` : html`<i>`}</p>`. -/
def noteTemplate : Template where
  chunks := ["<p><?php echo '?>' . ", "; ?>", "</p>"]
  holes :=
    [.member ⟨1, 0⟩ (.this ⟨1, 0⟩) "title" false,
    .conditional ⟨1, 0⟩ (.member ⟨1, 0⟩ (.this ⟨1, 0⟩) "text" false)
      (.tagged ⟨1, 0⟩ "html" ⟨1, 0⟩ ["<b>"] []) (.tagged ⟨1, 0⟩ "html" ⟨1, 0⟩ ["<i>"] [])]

/-- A closing tag in a string and a hole in code leave the regions in step with the output. -/
theorem regions_in_sync_note :
    Expr.AllIn Expr.Spelled noteTemplate.holes ∧ (noteJob.final noteTemplate).WellCut ∧
    ∃ pieces, noteJob.pieces noteTemplate = .ok pieces ∧
      ReadsTo false (Piece.writtenAll pieces).toList false := by
  have names : Plain "title" ∧ Plain "text" := by decide
  have branch : Expr.All Expr.Spelled (.tagged ⟨1, 0⟩ "html" ⟨1, 0⟩ ["<b>"] []) ∧
      Expr.All Expr.Spelled (.tagged ⟨1, 0⟩ "html" ⟨1, 0⟩ ["<i>"] []) :=
    ⟨⟨trivial, trivial⟩, trivial, trivial⟩
  have spelled : Expr.AllIn Expr.Spelled noteTemplate.holes :=
    ⟨⟨names.1, trivial⟩, ⟨trivial, ⟨names.2, trivial⟩, branch⟩, trivial⟩
  have wellCut : (noteJob.final noteTemplate).WellCut := by decide +kernel
  have succeeds : (noteJob.pieces noteTemplate).toOption.isSome = true := by decide +kernel
  cases h : noteJob.pieces noteTemplate with
  | error d => rw [h] at succeeds; cases succeeds
  | ok pieces => exact ⟨spelled, wellCut, pieces, rfl, (regions_in_sync spelled h wellCut).2⟩

/-- The template `<?php echo 'a ${this.title} ?> ${this.text} <?php '; ?>`, whose string is cut by
two holes. -/
def cutTemplate : Template where
  chunks := ["<?php echo 'a ", " ?> ", " <?php '; ?>"]
  holes :=
    [.member ⟨1, 0⟩ (.this ⟨1, 0⟩) "title" false, .member ⟨1, 0⟩ (.this ⟨1, 0⟩) "text" false]

/-- A string that a hole cuts is not passed over: where the second hole begins, the conversion is in
markup, but a server is still reading the string. -/
theorem not_inSync_cut :
    (noteJob.convert cutTemplate).toOption =
      some "<?php echo 'a $title ?> <?php echo esc_html( $text ); ?> <?php '; ?>" ∧
    ∃ m ∈ (noteJob.final cutTemplate).journal, m.event.begins = true ∧
      m.tracker.inCode = false ∧ Mode.markup.read m.output = .quoted '\x27' := by
  decide +kernel

end ServerTemplate

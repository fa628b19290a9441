import ServerTemplate.Proofs.Emission.Lowered
import ServerTemplate.Proofs.Outline.Reference
import ServerTemplate.Proofs.Scope.Moves

/-!
# Scopes as loops

A tracker represents the loops around an expression if these are the loops among its frames
(`Job.Represents`). All that a conversion asks its tracker then has the answer that the reference
translation gets from the loops: which names are visible, what an expression reads, and what a
message about it says.
-/

namespace ServerTemplate

/-- The item and the array of a loop. -/
def Frame.loop? (frame : Frame) : Option (String × String) :=
  match frame.kind, frame.item, frame.arrayName with
  | .loop, some item, some array => some (item, array)
  | _, _, _ => none

/-- A sound frame is a loop with item and array or binds nothing. -/
theorem Frame.Sound.loop_or {frame : Frame} (sound : frame.Sound) :
    (∃ item array, frame.kind = .loop ∧ frame.item = some item ∧ frame.arrayName = some array ∧
      frame.bound = [(item, .loopItem)] ∧ frame.loop? = some (item, array)) ∨
    (frame.kind ≠ .loop ∧ frame.bound = [] ∧ frame.loop? = none) := by
  unfold Frame.Sound at sound
  split at sound
  · rename_i hkind
    obtain ⟨item, array, hitem, harray, hbound⟩ := sound
    exact .inl ⟨item, array, hkind, hitem, harray, hbound, by rw [loop?, hkind, hitem, harray]⟩
  · rename_i hkind
    refine .inr ⟨hkind, sound, ?_⟩
    unfold loop?
    split
    · exact absurd ‹_› hkind
    · rfl

/-- The loops of a list of sound frames answer what is asked of the frames. -/
structure Frame.AnswerAs (frames : List Frame) (loops : Loops) : Prop where
  array : ∀ name, ((frames.find? fun frame => frame.binds name).filter
    fun frame => frame.kind == .loop).map Frame.arrayName = (loops.lookup name).map some
  visible : ∀ name, (frames.find? fun frame => frame.binds name).isSome =
    (loops.lookup name).isSome
  item : (frames.find? fun frame => frame.kind == .loop).bind Frame.item =
    loops.head?.map Prod.fst
  bound : (frames.flatMap fun frame => frame.bound.map Prod.fst) = loops.map Prod.fst

theorem Frame.answerAs (frames : List Frame) (sound : ∀ frame ∈ frames, frame.Sound) :
    Frame.AnswerAs frames (frames.filterMap Frame.loop?) := by
  induction frames with
  | nil => exact ⟨fun _ => rfl, fun _ => rfl, rfl, rfl⟩
  | cons frame frames ih =>
    have rest := ih fun f hf => sound f (List.mem_cons_of_mem _ hf)
    have binds := (sound frame (List.mem_cons_self ..)).binds_eq
    rcases (sound frame (List.mem_cons_self ..)).loop_or with
      ⟨item, array, hkind, hitem, harray, hbound, hloop⟩ | ⟨hkind, hbound, hloop⟩
    -- the frame of a loop is the front of the loops, and answers for its item alone
    · rw [List.filterMap_cons_some hloop]
      have binds (name : String) : frame.binds name = (name == item) := by
        rw [binds, hkind, hitem, beq_self_eq_true, Bool.true_and, Option.some_beq_some]
        exact BEq.comm
      refine ⟨fun name => ?_, fun name => ?_, ?_, ?_⟩
      · rw [List.find?_cons, binds, List.lookup_cons]
        cases name == item with
        | true => simp [hkind, harray]
        | false => exact rest.array name
      · rw [List.find?_cons, binds, List.lookup_cons]
        cases name == item with
        | true => rfl
        | false => exact rest.visible name
      · simp [hkind, hitem]
      · rw [List.flatMap_cons, hbound, rest.bound]
        rfl
    -- any other frame binds nothing, and the frames behind it answer
    · rw [List.filterMap_cons_none hloop]
      have hkind : (frame.kind == FrameKind.loop) = false := by simpa using hkind
      have binds (name : String) : frame.binds name = false := by
        rw [binds, hkind, Bool.false_and]
      refine ⟨fun name => ?_, fun name => ?_, ?_, ?_⟩
      · rw [List.find?_cons, binds]
        exact rest.array name
      · rw [List.find?_cons, binds]
        exact rest.visible name
      · rw [List.find?_cons, hkind]
        exact rest.item
      · rw [List.flatMap_cons, hbound, rest.bound]
        rfl

/-- The scopes are those of a component, and the loops among the open frames are the given ones. -/
structure Job.Represents (job : Job) (loops : Loops) (t : Tracker) : Prop where
  component : t.component = some job.declaration.title
  parameters : t.parameters = job.declaration.parameterNames
  sound : t.Sound
  loops : t.frames.filterMap Frame.loop? = loops

namespace Job.Represents

variable {job : Job} {loops : Loops} {t : Tracker} {label : String} {e : Expr}

theorem start (job : Job) : job.Represents [] job.start.tracker :=
  ⟨rfl, rfl, Tracker.sound_start _ _, rfl⟩

/-! ### Changes of the scopes -/

theorem enter (h : job.Represents loops t) {kind : FrameKind} (noLoop : kind ≠ .loop) :
    job.Represents loops (t.enter kind) where
  component := h.component
  parameters := h.parameters
  sound := h.sound.move (.enter t noLoop)
  loops := by
    have hloop (parent : Option Nat) (depth : Nat) :
        Frame.loop? ⟨kind, [], parent, none, none, depth⟩ = none := by
      cases kind <;> rfl
    rw [Tracker.enter, List.filterMap_cons_none (hloop _ _), h.loops]

theorem enterLoop (h : job.Represents loops t) (item array : String) :
    job.Represents ((item, array) :: loops)
      ((t.enter .loop (some item) (some array)).bind item .loopItem) where
  component := by
    obtain ⟨frame, outer, hframes⟩ := List.exists_cons_of_ne_nil h.sound.nonempty
    rw [Tracker.bind, Tracker.enter, hframes]
    exact h.component
  parameters := by
    obtain ⟨frame, outer, hframes⟩ := List.exists_cons_of_ne_nil h.sound.nonempty
    rw [Tracker.bind, Tracker.enter, hframes]
    exact h.parameters
  sound := h.sound.move (.enterLoop t item array)
  loops := by
    have hloop (parent : Option Nat) (depth : Nat) :
        Frame.loop? ⟨.loop, [(item, .loopItem)], parent, some item, some array, depth⟩
          = some (item, array) := rfl
    rw [Tracker.frames_enterLoop h.sound.nonempty, List.filterMap_cons_some (hloop _ _), h.loops]

theorem enterCode (h : job.Represents loops t) : job.Represents loops t.enterCode :=
  ⟨h.component, h.parameters, h.sound.move (.enterCode t), h.loops⟩

/-! ### What is asked of the scopes -/

theorem answers (h : job.Represents loops t) : Frame.AnswerAs t.frames loops :=
  h.loops ▸ Frame.answerAs t.frames h.sound.frames

theorem isVisible (h : job.Represents loops t) (name : String) :
    t.isVisible name = job.sees loops name := by
  rw [Tracker.isVisible, Tracker.bindingFrame?, h.answers.visible, Tracker.isParameter,
    h.parameters, sees]

theorem visibleNames (h : job.Represents loops t) : t.visibleNames =
    Text.sortedDistinct (job.declaration.parameterNames ++ loops.map Prod.fst) := by
  rw [Tracker.visibleNames, Tracker.boundNames, h.answers.bound, h.parameters]

theorem currentItem? (h : job.Represents loops t) :
    t.currentItem? = loops.head?.map Prod.fst := h.answers.item

theorem site (h : job.Represents loops t) (e : Expr) : job.site t e = job.siteOf e := by
  rw [Job.site, h.component, siteOf]

theorem unsupported (h : job.Represents loops t) (construct : Unsupported) :
    job.unsupported t e label construct = job.refusal e label construct := by
  rw [Job.unsupported, h.site, refusal]

theorem requireVisible (h : job.Represents loops t) (name : String) :
    job.requireVisible t e name label = job.requireSeen loops e name label := by
  rw [Job.requireVisible, requireSeen, Tracker.requireVisible, h.isVisible, h.visibleNames, h.site]
  split
  · rfl
  · rw [h.component]
    rfl

theorem requirePlain (h : job.Represents loops t) :
    job.requirePlain t label e = job.plain label e := by
  unfold Job.requirePlain plain
  split
  · rw [h.unsupported]
  · rename_i hplain
    split
    · exact absurd rfl (hplain _ _ _)
    · rfl

theorem requirePlainOwner (h : job.Represents loops t) :
    job.requirePlainOwner t label e = job.plainOwner label e := by
  cases e with
  | member => exact h.requirePlain
  | _ => rfl

/-- The innermost loop whose item has a name is found among the loops, if any is. -/
theorem loopFrame (h : job.Represents loops t) (name : String) :
    (∃ frame array, ((t.bindingFrame? name).filter fun frame => frame.kind == .loop) = some frame ∧
      frame.arrayName = some array ∧ loops.lookup name = some array) ∨
    (((t.bindingFrame? name).filter fun frame => frame.kind == .loop) = none ∧
      loops.lookup name = none) := by
  have same := h.answers.array name
  rw [← Tracker.bindingFrame?] at same
  cases hframe : (t.bindingFrame? name).filter fun frame => frame.kind == .loop with
  | none =>
    rw [hframe] at same
    exact .inr ⟨rfl, Option.map_eq_none_iff.mp same.symm⟩
  | some frame =>
    rw [hframe] at same
    obtain ⟨array, harray, hname⟩ := Option.map_eq_some_iff.mp same.symm
    exact .inl ⟨frame, array, rfl, hname.symm, harray⟩

/-- An expression reads the same of the scopes as of the loops. -/
theorem reading (h : job.Represents loops t) (label : String) (e : Expr) :
    job.reading t label e = job.readingIn loops label e := by
  unfold Job.reading readingIn
  rw [h.requirePlain]
  congr 1
  funext _
  cases e with
  | name place name =>
    dsimp only
    rw [h.requireVisible]
    rcases h.loopFrame name with ⟨frame, array, hframe, harray, hlookup⟩ | ⟨hframe, hlookup⟩
    · rw [hframe, hlookup]
      dsimp only
      rw [harray]
    · rw [hframe, hlookup]
      rfl
  | member place object field optional =>
    cases object with
    | this =>
      dsimp only
      rw [h.requireVisible]
    | name place' item =>
      dsimp only
      rw [h.requireVisible, h.currentItem?, h.site, h.unsupported]
      cases loops with
      | nil => rfl
      | cons loop loops =>
        rcases h.loopFrame item with ⟨frame, array, hframe, harray, hlookup⟩ | ⟨hframe, hlookup⟩
        · rw [hframe, hlookup]
          dsimp only
          rw [harray]
          rfl
        · rw [hframe, hlookup]
          rfl
    | _ =>
      dsimp only
      rw [h.unsupported]
  | _ =>
    dsimp only
    rw [h.unsupported]

theorem ratingOperand (h : job.Represents loops t) (item : String) (arguments : List Expr) :
    job.ratingOperand t label item arguments = job.ratingIn loops label item arguments := by
  unfold Job.ratingOperand ratingIn
  rcases arguments with _ | ⟨argument, _ | ⟨_, _⟩⟩
  · rfl
  · cases argument with
    | member | name =>
      dsimp only
      rw [h.reading]
    | _ => rfl
  · cases argument <;> rfl

end Job.Represents

end ServerTemplate

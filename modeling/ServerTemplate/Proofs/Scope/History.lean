import ServerTemplate.Proofs.Emission.After
import ServerTemplate.Proofs.Scope.Moves

/-!
# Scopes with any history

`Tracker.Operation` lists what can be done to the scopes and what can be asked of them with a
failure as the answer. Whatever was done, in whatever order and with whatever failures in between,
the frames stand around each other as their parents say, the root frame around all, and the regions
are code but for the base (`Tracker.Shaped`).

The frame that binds a name is looked for in the list of frames. `Climbs` is the search from each
frame to its parent; in frames of this shape both find the same (`Stacked.climbs_iff`). The main
statement is `Tracker.answers_after`.
-/

namespace ServerTemplate

/-! ### Frames around each other -/

/-- The frame around all others, which binds nothing. -/
def Frame.outermost : Frame := ⟨.root, [], none, none, none, 1⟩

/-- Frames with the innermost first, each with the place of the one around it as its parent. Places
are counted from the outermost frame on. -/
inductive Stacked : List Frame → Prop
  | root : Stacked [.outermost]
  | cons {frame : Frame} {frames : List Frame} (stacked : Stacked frames)
      (parent : frame.parent = some (frames.length - 1)) : Stacked (frame :: frames)

/-- The search for the frame that binds a name, from the frame in a place on to its parent and so
on. -/
inductive Climbs (frames : List Frame) (name : String) : Option Nat → Option Frame → Prop
  | outside : Climbs frames name none none
  | here {place : Nat} {frame : Frame} (stands : frames.reverse[place]? = some frame)
      (binds : frame.binds name = true) : Climbs frames name (some place) (some frame)
  | beyond {place : Nat} {frame : Frame} {found : Option Frame}
      (stands : frames.reverse[place]? = some frame) (other : frame.binds name = false)
      (climbs : Climbs frames name frame.parent found) : Climbs frames name (some place) found

variable {frame frame' : Frame} {frames : List Frame} {name : String}

namespace Stacked

theorem nonempty (stacked : Stacked frames) : frames ≠ [] := by
  cases stacked <;> exact List.cons_ne_nil _ _

theorem tail (stacked : Stacked (frame :: frames)) (nonempty : frames ≠ []) : Stacked frames := by
  cases stacked with
  | root => exact absurd rfl nonempty
  | cons stacked _ => exact stacked

theorem getLast?_eq (stacked : Stacked frames) : frames.getLast? = some .outermost := by
  induction stacked with
  | root => rfl
  | cons stacked _ ih => rw [List.getLast?_cons, ih, Option.getD_some]

/-- Each frame but the outermost one has the place before its own as its parent. -/
theorem parent_eq (stacked : Stacked frames) {place : Nat}
    (stands : frames.reverse[place + 1]? = some frame) : frame.parent = some place := by
  induction stacked with
  | root => cases stands
  | @cons inner frames stacked parent ih =>
    rw [List.reverse_cons, List.getElem?_append, List.length_reverse] at stands
    split at stands
    · exact ih stands
    · rename_i beyond
      -- only the innermost frame stands behind the others
      obtain ⟨zero, rfl⟩ : place + 1 - frames.length = 0 ∧ inner = frame := by
        simpa [List.getElem?_singleton] using stands
      rw [parent]
      congr 1
      omega

end Stacked

namespace Climbs

theorem unique {place : Option Nat} {found found' : Option Frame}
    (h : Climbs frames name place found) (h' : Climbs frames name place found') :
    found = found' := by
  induction h with
  | outside =>
    cases h'
    rfl
  | here stands binds =>
    cases h' with
    | here stands' _ => exact stands.symm.trans stands'
    | beyond stands' other _ =>
      cases stands.symm.trans stands'
      cases binds.symm.trans other
  | beyond stands other _ ih =>
    cases h' with
    | here stands' binds =>
      cases stands.symm.trans stands'
      cases binds.symm.trans other
    | beyond stands' _ climbs =>
      cases stands.symm.trans stands'
      exact ih climbs

/-- A search in frames does not see a frame that is opened in them. -/
theorem cons {place : Option Nat} {found : Option Frame} (h : Climbs frames name place found) :
    Climbs (frame :: frames) name place found := by
  have kept {place : Nat} {other : Frame} (stands : frames.reverse[place]? = some other) :
      (frame :: frames).reverse[place]? = some other := by
    rw [List.reverse_cons]
    exact (List.getElem?_append_left (List.getElem?_eq_some_iff.mp stands).1).trans stands
  induction h with
  | outside => exact .outside
  | here stands binds => exact .here (kept stands) binds
  | beyond stands other _ ih => exact .beyond (kept stands) other ih

end Climbs

/-- From the innermost frame on the search finds the first frame of the list that binds the name. -/
theorem Stacked.climbs (stacked : Stacked frames) (name : String) :
    Climbs frames name (some (frames.length - 1)) (frames.find? fun frame => frame.binds name) := by
  induction stacked with
  | root => exact .beyond rfl rfl .outside
  | @cons frame frames _ parent ih =>
    have stands : (frame :: frames).reverse[(frame :: frames).length - 1]? = some frame := by
      rw [List.reverse_cons]
      simp
    rw [List.find?_cons]
    cases binds : frame.binds name with
    | true => exact .here stands binds
    | false => exact .beyond stands binds (parent ▸ ih.cons)

theorem Stacked.climbs_iff (stacked : Stacked frames) {found : Option Frame} :
    Climbs frames name (some (frames.length - 1)) found ↔
      found = frames.find? fun frame => frame.binds name :=
  ⟨fun h => h.unique (stacked.climbs name), fun h => h ▸ stacked.climbs name⟩

namespace Tracker

/-! ### Operations -/

/-- What can be done to the scopes, or asked of them with a failure as the answer. -/
inductive Operation where
  | enter (kind : FrameKind) (item arrayName : Option String)
  | exit (expected : Option FrameKind)
  | bind (name : String) (kind : BindingKind)
  | requireVisible (name context : String) (line : Option Int) (snippet : Option Snippet)
  | enterCode
  | leaveCode
  | finish

/-- Performs an operation. One that fails leaves the scopes in which it does. -/
def Operation.run : Operation → EStateM Diagnostic Tracker Unit
  | enter kind item arrayName => modify fun t => t.enter kind item arrayName
  | exit expected => do set (← ofExcept ((← get).exit expected)).2
  | bind name kind => modify fun t => t.bind name kind
  | requireVisible name context line snippet => do
    ofExcept ((← get).requireVisible name context line snippet)
  | enterCode => modify Tracker.enterCode
  | leaveCode => do set (← ofExcept (← get).leaveCode)
  | finish => do ofExcept (← get).finish

/-- The scopes behind an operation, whether it fails or not. -/
def after (t : Tracker) (o : Operation) : Tracker :=
  match o.run t with
  | .ok _ t' | .error _ t' => t'

/-- The scopes behind operations in a row. -/
def afterAll (t : Tracker) (os : List Operation) : Tracker := os.foldl after t

variable {t t' : Tracker}

/-- The scopes that an operation leads to, unless it fails. -/
def Operation.outcome (t : Tracker) : Operation → Except Diagnostic Tracker
  | enter kind item arrayName => .ok (t.enter kind item arrayName)
  | exit expected => do return (← t.exit expected).2
  | bind name kind => .ok (t.bind name kind)
  | requireVisible name context line snippet => do
    t.requireVisible name context line snippet
    return t
  | enterCode => .ok t.enterCode
  | leaveCode => t.leaveCode
  | finish => do
    t.finish
    return t

/-- An operation leads to its outcome or fails where it is. -/
theorem Operation.run_eq (o : Operation) (t : Tracker) :
    o.run t = (ofExcept (o.outcome t) >>= set : EStateM Diagnostic Tracker Unit) t := by
  cases o with
  | enter | bind | enterCode => rfl
  | exit expected =>
    change (ofExcept (t.exit expected) >>= fun left => set left.2 : EStateM _ _ Unit) t = _
    dsimp only [outcome]
    cases t.exit expected <;> rfl
  | leaveCode => rfl
  | requireVisible name context line snippet =>
    change (ofExcept (t.requireVisible name context line snippet) : EStateM _ _ Unit) t = _
    dsimp only [outcome]
    cases t.requireVisible name context line snippet <;> rfl
  | finish =>
    change (ofExcept t.finish : EStateM _ _ Unit) t = _
    dsimp only [outcome]
    cases t.finish <;> rfl

/-- An operation that fails changes nothing. -/
theorem Operation.eq_of_run_error {o : Operation} {d : Diagnostic} (h : o.run t = .error d t') :
    t' = t := by
  rw [o.run_eq] at h
  cases left : o.outcome t with
  | ok =>
    rw [left] at h
    cases h
  | error =>
    rw [left] at h
    cases h
    rfl

theorem after_eq (t : Tracker) (o : Operation) : t.after o = (o.outcome t).toOption.getD t := by
  unfold after
  rw [o.run_eq]
  cases o.outcome t <;> rfl

/-! ### The shape of the scopes -/

theorem regions_exit {expected : Option FrameKind} {frame : Frame}
    (left : t.exit expected = .ok (frame, t')) : t'.regions = t.regions := by
  unfold Tracker.exit at left
  split at left
  · split at left
    · cases left
    · split at left <;> cases left
      rfl
  · cases left

theorem parent_bind (frame : Frame) (name : String) (kind : BindingKind) :
    (frame.bind name kind).parent = frame.parent := by
  unfold Frame.bind
  split <;> rfl

/-- The frames are stacked, and the regions are code but for the base. -/
structure Shaped (t : Tracker) : Prop where
  frames : Stacked t.frames
  regions : ∃ n, t.regions = List.replicate n .code ++ [.markup]

theorem shaped_start (parameters : List String) (component : Option String) :
    (start parameters component).Shaped where
  frames := .root
  regions := ⟨0, rfl⟩

namespace Shaped

theorem enter (shaped : t.Shaped) (kind : FrameKind) (item arrayName : Option String) :
    (t.enter kind item arrayName).Shaped where
  frames := by
    refine shaped.frames.cons ?_
    have some : t.frames.isEmpty = false := by simpa using shaped.frames.nonempty
    rw [some]
    rfl
  regions := shaped.regions

/-- A frame that is left leaves the frames around it. -/
theorem exit (shaped : t.Shaped) {expected : Option FrameKind} {frame : Frame}
    (left : t.exit expected = .ok (frame, t')) : t'.Shaped where
  frames := by
    obtain ⟨frames, nonempty⟩ := frames_exit left
    exact (frames ▸ shaped.frames : Stacked (frame :: t'.frames)).tail nonempty
  regions := regions_exit left ▸ shaped.regions

/-- A name that is bound changes what the innermost frame binds, unless it is the outermost. -/
theorem bind (shaped : t.Shaped) (name : String) (kind : BindingKind) :
    (t.bind name kind).Shaped := by
  have stacked := shaped.frames
  unfold Tracker.bind
  split
  · rename_i frame next outer frames
    rw [frames] at stacked
    cases stacked with
    | cons stacked parent =>
      exact ⟨stacked.cons ((parent_bind frame name kind).trans parent), shaped.regions⟩
  · split <;> exact ⟨shaped.frames, shaped.regions⟩

theorem enterCode (shaped : t.Shaped) : t.enterCode.Shaped where
  frames := shaped.frames
  regions := by
    obtain ⟨n, regions⟩ := shaped.regions
    exact ⟨n + 1, by rw [Tracker.enterCode, regions]; rfl⟩

theorem leaveCode (shaped : t.Shaped) (left : t.leaveCode = .ok t') : t'.Shaped where
  frames := frames_leaveCode left ▸ shaped.frames
  regions := by
    obtain ⟨n, regions⟩ := shaped.regions
    unfold Tracker.leaveCode at left
    split at left
    · rename_i outer code
      cases left
      cases n with
      | zero => cases code.symm.trans regions
      | succ n => exact ⟨n, (List.cons.inj (code.symm.trans regions)).2⟩
    · cases left

theorem outcome (shaped : t.Shaped) {o : Operation} (h : o.outcome t = .ok t') : t'.Shaped := by
  cases o with
  | enter kind item arrayName =>
    cases h
    exact shaped.enter kind item arrayName
  | exit expected =>
    obtain ⟨⟨frame, outer⟩, left, rest⟩ := exists_ok_of_bind h
    cases rest
    exact shaped.exit left
  | bind name kind =>
    cases h
    exact shaped.bind name kind
  | enterCode =>
    cases h
    exact shaped.enterCode
  | leaveCode => exact shaped.leaveCode h
  | requireVisible | finish =>
    obtain ⟨_, -, rest⟩ := exists_ok_of_bind h
    cases rest
    exact shaped

/-- Every operation keeps the shape. -/
theorem after (shaped : t.Shaped) (o : Operation) : (t.after o).Shaped := by
  rw [after_eq]
  cases h : o.outcome t with
  | ok t' => exact shaped.outcome h
  | error d => exact shaped

theorem afterAll (shaped : t.Shaped) (os : List Operation) : (t.afterAll os).Shaped := by
  induction os generalizing t with
  | nil => exact shaped
  | cons o os ih => exact ih (shaped.after o)

end Shaped

/-! ### What the scopes answer -/

theorem requireVisible_eq_ok_iff {name context : String} {line : Option Int}
    {snippet : Option Snippet} :
    t.requireVisible name context line snippet = .ok () ↔ t.isVisible name = true := by
  unfold requireVisible
  split
  · exact iff_of_true rfl ‹_›
  · rename_i hidden
    exact iff_of_false nofun hidden

/-- The innermost frame that binds a name is the last one, counted from the outermost. -/
theorem bindingFrame?_eq_getLast? (t : Tracker) (name : String) :
    t.bindingFrame? name = (t.frames.reverse.filter fun frame => frame.binds name).getLast? := by
  rw [List.filter_reverse, List.getLast?_reverse, List.head?_filter, bindingFrame?]

/-- All is left in the end if and only if nothing but the outermost frame and the base is open. -/
theorem Shaped.finish_iff (shaped : t.Shaped) :
    t.finish = .ok () ↔ t.frames = [.outermost] ∧ t.regions = [.markup] := by
  have single : t.frames.length = 1 ↔ t.frames = [.outermost] := by
    refine ⟨fun one => ?_, fun root => root ▸ rfl⟩
    obtain ⟨frame, only⟩ := List.length_eq_one_iff.mp one
    have last := shaped.frames.getLast?_eq
    rw [only] at last ⊢
    exact congrArg (fun frame => [frame]) (Option.some.inj last)
  unfold finish
  split
  · rename_i several
    exact iff_of_false nofun fun both => several (single.mpr both.1)
  · rename_i one
    split
    · rename_i left
      exact iff_of_false nofun fun both => left both.2
    · rename_i base
      exact iff_of_true rfl ⟨single.mp (Decidable.not_not.mp one), Decidable.not_not.mp base⟩

/-- Behind any operations, those that fail included, the root frame is the outermost one, each other
frame has the one before it as its parent, and all regions but the base are code. A name is visible
if it is among the visible ones, which are in order, each once, and if it is not refused. The search
from parent to parent finds the frame that binds a name, and this is the last one of all that bind
it. An operation that fails changes nothing, and the end is reached if all that was opened is left.
-/
theorem answers_after (parameters : List String) (component : Option String)
    (os : List Operation) :
    let t := (start parameters component).afterAll os
    t.frames.reverse[0]? = some .outermost ∧
      (∀ place frame, t.frames.reverse[place + 1]? = some frame → frame.parent = some place) ∧
      (∃ n, t.regions.reverse = .markup :: List.replicate n .code) ∧
      (∀ name, (t.isVisible name = true ↔ name ∈ t.visibleNames) ∧
        ∀ context line snippet,
          t.requireVisible name context line snippet = .ok () ↔ t.isVisible name = true) ∧
      t.visibleNames.Pairwise (· < ·) ∧
      (∀ name,
        (∀ found, Climbs t.frames name (some (t.depth - 1)) found ↔ found = t.bindingFrame? name) ∧
        t.bindingFrame? name =
          (t.frames.reverse.filter fun frame => frame.binds name).getLast?) ∧
      (∀ (o : Operation) d t', o.run t = .error d t' → t' = t) ∧
      (t.finish = .ok () ↔ t.frames = [.outermost] ∧ t.regions = [.markup]) := by
  intro t
  have shaped : t.Shaped := (shaped_start parameters component).afterAll os
  obtain ⟨n, regions⟩ := shaped.regions
  refine ⟨?_, fun _ _ => shaped.frames.parent_eq, ⟨n, ?_⟩, fun name => ⟨mem_visibleNames.symm,
    fun _ _ _ => requireVisible_eq_ok_iff⟩, Text.pairwise_sortedDistinct _, fun name =>
    ⟨fun _ => shaped.frames.climbs_iff, t.bindingFrame?_eq_getLast? name⟩,
    fun _ _ _ => Operation.eq_of_run_error, shaped.finish_iff⟩
  · rw [← List.head?_eq_getElem?, List.head?_reverse]
    exact shaped.frames.getLast?_eq
  · rw [regions, List.reverse_append, List.reverse_replicate]
    rfl

/-- What is done in a loop, with a region that keeps the loop from being left. -/
def loopHistory : List Operation :=
  [.enter .template none none, .enter .loop (some "item") (some "items"), .bind "item" .loopItem,
    .enterCode, .exit (some .loop), .finish]

/-- The scopes in a loop, behind two operations that fail. -/
theorem answers_after_loopHistory :
    let t := (start ["title", "items"] none).afterAll loopHistory
    t.depth = 3 ∧ (∀ frame, t.frames.reverse[2]? = some frame → frame.parent = some 1) ∧
      "item" ∈ t.visibleNames ∧ "card" ∉ t.visibleNames ∧
      Climbs t.frames "item" (some 2) (t.bindingFrame? "item") ∧
      (∃ d, (Operation.exit (some .loop)).run t = .error d t) ∧ t.finish ≠ .ok () := by
  intro t
  obtain ⟨-, parents, -, visible, -, binding, fails, finish⟩ :=
    answers_after ["title", "items"] none loopHistory
  obtain ⟨d, t', left⟩ : ∃ d t', (Operation.exit (some .loop)).run t = .error d t' := ⟨_, _, rfl⟩
  refine ⟨rfl, parents 1, (visible "item").1.mp rfl, fun listed => ?_,
    ((binding "item").1 _).mpr rfl, ⟨d, ?_⟩, fun done => ?_⟩
  · cases (visible "card").1.mpr listed
  · rw [fails _ _ _ left] at left
    exact left
  · cases (finish.mp done).1

end Tracker

end ServerTemplate

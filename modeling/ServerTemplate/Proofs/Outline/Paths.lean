import ServerTemplate.Proofs.Markup.Alike
import ServerTemplate.Proofs.Outline.Reference

/-!
# Paths through an outline

When a fragment runs, each conditional takes one of its branches and each loop runs any number of
times. `Outline.Run` gives the texts and values on a whole run, and `Outline.Reaches` those on the
way to a value; a cursor walks them (`Cursor.walk`).

The converter walks an outline once (`Outline.behind`): it takes every branch, goes on from the last
one, and walks the body of a loop once. What it chooses a function by is the cursor on one of the
paths to a value, the canonical one (`Outline.Chosen.exists_path`). All paths are alike where every
block hands on the place that it was given (`Outline.steady`).
-/

namespace ServerTemplate

/-- What moves a cursor on a path. -/
inductive Move where
  | text (content : String)
  /-- A value is written. -/
  | interpolated

/-- The cursor behind a text or a value. -/
def Cursor.move (k : Cursor) : Move → Cursor
  | .text content => k.feed content.toList
  | .interpolated => k.interpolated

/-- The cursor behind the texts and values on a path. -/
def Cursor.walk (k : Cursor) (moves : List Move) : Cursor := moves.foldl Cursor.move k

/-- One of two parts. -/
inductive Side where
  | first
  | second
  deriving DecidableEq

namespace Outline

/-- The texts and values on a run through an outline. -/
inductive Run : Outline → List Move → Prop
  | empty : Run .empty []
  | text (content : String) : Run (.text content) [.text content]
  | echo (value : Operand) (site : EchoSite) : Run (.echo value site) []
  | resultCount (labels : CountLabels) (site : EchoSite) : Run (.resultCount labels site) []
  | code (piece : Piece) : Run (.code piece) []
  | seq {o o' : Outline} {ms ms' : List Move} (first : Run o ms) (second : Run o' ms') :
      Run (.seq o o') (ms ++ ms')
  | hole {o : Outline} {ms : List Move} (content : Run o ms) : Run (.hole o) (ms ++ [.interpolated])
  | taken {test : List Piece} {o : Outline} {ms : List Move} (body : Run o ms) :
      Run (.guard test o) ms
  | skipped (test : List Piece) (o : Outline) : Run (.guard test o) []
  | first {test : List Piece} {o : Outline} {ms : List Move} (o' : Outline) (branch : Run o ms) :
      Run (.branch test o o') ms
  | second {test : List Piece} {o' : Outline} {ms : List Move} (o : Outline) (branch : Run o' ms) :
      Run (.branch test o o') ms
  | stop (array item : String) (o : Outline) : Run (.loop array item o) []
  | again {array item : String} {o : Outline} {ms ms' : List Move} (body : Run o ms)
      (rest : Run (.loop array item o) ms') : Run (.loop array item o) (ms ++ ms')

/-- The texts and values on a path to a value. The address says which value of the outline it is; on
a path to a value in a loop the loop has run any number of times before. -/
inductive Reaches : Outline → List Move → List Side → EchoSite → Prop
  | echo (value : Operand) (site : EchoSite) : Reaches (.echo value site) [] [] site
  | resultCount (labels : CountLabels) (site : EchoSite) :
      Reaches (.resultCount labels site) [] [] site
  | front {o : Outline} {ms : List Move} {address : List Side} {site : EchoSite} (o' : Outline)
      (reach : Reaches o ms address site) : Reaches (.seq o o') ms (.first :: address) site
  | back {o o' : Outline} {ms ms' : List Move} {address : List Side} {site : EchoSite}
      (before : Run o ms) (reach : Reaches o' ms' address site) :
      Reaches (.seq o o') (ms ++ ms') (.second :: address) site
  | hole {o : Outline} {ms : List Move} {address : List Side} {site : EchoSite}
      (reach : Reaches o ms address site) : Reaches (.hole o) ms address site
  | guard {o : Outline} {ms : List Move} {address : List Side} {site : EchoSite}
      (test : List Piece) (reach : Reaches o ms address site) :
      Reaches (.guard test o) ms address site
  | first {o : Outline} {ms : List Move} {address : List Side} {site : EchoSite}
      (test : List Piece) (o' : Outline) (reach : Reaches o ms address site) :
      Reaches (.branch test o o') ms (.first :: address) site
  | second {o' : Outline} {ms : List Move} {address : List Side} {site : EchoSite}
      (test : List Piece) (o : Outline) (reach : Reaches o' ms address site) :
      Reaches (.branch test o o') ms (.second :: address) site
  | loop {o : Outline} {ms : List Move} {address : List Side} {site : EchoSite}
      (array item : String) (reach : Reaches o ms address site) :
      Reaches (.loop array item o) ms address site
  | later {array item : String} {o : Outline} {ms ms' : List Move} {address : List Side}
      {site : EchoSite} (before : Run o ms)
      (reach : Reaches (.loop array item o) ms' address site) :
      Reaches (.loop array item o) (ms ++ ms') address site

/-- The cursor behind an outline as the converter walks it. -/
def behind (k : Cursor) : Outline → Cursor
  | text content => k.feed content.toList
  | seq first second => second.behind (first.behind k)
  | hole content => (content.behind k).interpolated
  | guard _ body => body.behind k
  | branch _ _ second => second.behind k
  | loop _ _ body => body.behind k
  | empty | echo .. | resultCount .. | code _ => k

/-- Whether every block of an outline hands on the place that it was given: the branches of a
conditional end at one place, and a body that may be skipped or repeated ends where it begins. -/
def steady (k : Cursor) : Outline → Bool
  | seq first second => first.steady k && second.steady (first.behind k)
  | hole content => content.steady k
  | guard _ body => body.steady k && decide ((body.behind k).Alike k)
  | branch _ first second =>
    first.steady k && second.steady k && decide ((first.behind k).Alike (second.behind k))
  | loop _ _ body => body.steady k && decide ((body.behind k).Alike k)
  | empty | text _ | echo .. | resultCount .. | code _ => true

end Outline

/-- The function that is picked for a value at a place in the markup. -/
def Job.picked (job : Job) (site : EchoSite) (k : Cursor) : Except Diagnostic (Option String) :=
  job.functionFor k site.field site.array site.e

/-- The functions in an outline are those picked at the cursor of the converter. -/
def Outline.Chosen (job : Job) (k : Cursor) : Outline → Prop
  | echo _ site | resultCount _ site => job.picked site k = .ok site.function
  | seq first second => first.Chosen job k ∧ second.Chosen job (first.behind k)
  | hole content => content.Chosen job k
  | guard _ body => body.Chosen job k
  | branch _ first second => first.Chosen job k ∧ second.Chosen job k
  | loop _ _ body => body.Chosen job k
  | empty | text _ | code _ => True

namespace Cursor

theorem walk_append (k : Cursor) (ms ms' : List Move) :
    k.walk (ms ++ ms') = (k.walk ms).walk ms' := List.foldl_append

end Cursor

/-- At the same place the same function is picked. -/
theorem Job.picked_of_alike (job : Job) (site : EchoSite) {k j : Cursor} (h : k.Alike j) :
    job.picked site k = job.picked site j := by
  rw [picked, functionFor, h.attributeName?]
  rfl

namespace Outline

variable {job : Job} {k : Cursor} {o : Outline}

theorem steady_seq {first second : Outline} : (seq first second).steady k = true ↔
    first.steady k = true ∧ second.steady (first.behind k) = true := by
  rw [steady, Bool.and_eq_true]

theorem steady_guard {test : List Piece} {body : Outline} : (guard test body).steady k = true ↔
    body.steady k = true ∧ (body.behind k).Alike k := by
  rw [steady, Bool.and_eq_true, decide_eq_true_iff]

theorem steady_branch {test : List Piece} {first second : Outline} :
    (branch test first second).steady k = true ↔
      first.steady k = true ∧ second.steady k = true ∧
        (first.behind k).Alike (second.behind k) := by
  rw [steady, Bool.and_eq_true, Bool.and_eq_true, decide_eq_true_iff, and_assoc]

theorem steady_loop {array item : String} {body : Outline} :
    (loop array item body).steady k = true ↔ body.steady k = true ∧ (body.behind k).Alike k := by
  rw [steady, Bool.and_eq_true, decide_eq_true_iff]

/-- There is a run on which the cursor is where the converter leaves it. -/
theorem exists_run (o : Outline) (k : Cursor) : ∃ ms, o.Run ms ∧ k.walk ms = o.behind k := by
  induction o generalizing k with
  | empty => exact ⟨[], .empty, rfl⟩
  | text content => exact ⟨_, .text content, rfl⟩
  | echo value site => exact ⟨[], .echo value site, rfl⟩
  | resultCount labels site => exact ⟨[], .resultCount labels site, rfl⟩
  | code piece => exact ⟨[], .code piece, rfl⟩
  | seq first second ih₁ ih₂ =>
    obtain ⟨ms, run, walk⟩ := ih₁ k
    obtain ⟨ms', run', walk'⟩ := ih₂ (first.behind k)
    exact ⟨ms ++ ms', .seq run run', by rw [Cursor.walk_append, walk, walk', behind]⟩
  | hole content ih =>
    obtain ⟨ms, run, walk⟩ := ih k
    refine ⟨ms ++ [.interpolated], .hole run, ?_⟩
    rw [Cursor.walk_append, walk]
    rfl
  | guard test body ih =>
    obtain ⟨ms, run, walk⟩ := ih k
    exact ⟨ms, .taken run, walk⟩
  | branch test first second _ ih₂ =>
    obtain ⟨ms, run, walk⟩ := ih₂ k
    exact ⟨ms, .second first run, walk⟩
  | loop array item body ih =>
    obtain ⟨ms, run, walk⟩ := ih k
    refine ⟨ms ++ [], .again run (.stop array item body), ?_⟩
    rw [List.append_nil]
    exact walk

/-- To every value there is a path on which the function of the value is the one picked. -/
theorem Chosen.exists_path (chosen : o.Chosen job k) {ms : List Move} {address : List Side}
    {site : EchoSite} (reach : o.Reaches ms address site) :
    ∃ ms', o.Reaches ms' address site ∧ job.picked site (k.walk ms') = .ok site.function := by
  induction reach generalizing k with
  | echo value site => exact ⟨[], .echo value site, chosen⟩
  | resultCount labels site => exact ⟨[], .resultCount labels site, chosen⟩
  | front o' _ ih =>
    obtain ⟨ms', reach, picked⟩ := ih chosen.1
    exact ⟨ms', .front o' reach, picked⟩
  | @back o o' ms _ _ _ before _ ih =>
    -- the first part is run as the converter walks it
    obtain ⟨ms', run, walk⟩ := o.exists_run k
    obtain ⟨ms'', reach, picked⟩ := ih chosen.2
    exact ⟨ms' ++ ms'', .back run reach, by rw [Cursor.walk_append, walk, picked]⟩
  | hole _ ih =>
    obtain ⟨ms', reach, picked⟩ := ih chosen
    exact ⟨ms', .hole reach, picked⟩
  | guard test _ ih =>
    obtain ⟨ms', reach, picked⟩ := ih chosen
    exact ⟨ms', .guard test reach, picked⟩
  | first test o' _ ih =>
    obtain ⟨ms', reach, picked⟩ := ih chosen.1
    exact ⟨ms', .first test o' reach, picked⟩
  | second test o _ ih =>
    obtain ⟨ms', reach, picked⟩ := ih chosen.2
    exact ⟨ms', .second test o reach, picked⟩
  | loop array item _ ih =>
    obtain ⟨ms', reach, picked⟩ := ih chosen
    exact ⟨ms', .loop array item reach, picked⟩
  -- the repetitions before are left out
  | later _ _ ih => exact ih chosen

/-- Where blocks hand on the place that they were given, every run ends where the converter does. -/
theorem Run.alike_behind {ms : List Move} (run : o.Run ms) {j : Cursor} (steady : o.steady k = true)
    (h : j.Alike k) : (j.walk ms).Alike (o.behind k) := by
  induction run generalizing k j with
  | empty | echo | resultCount | code => exact h
  | text content => exact h.feed content.toList
  | seq _ _ ih₁ ih₂ =>
    obtain ⟨first, second⟩ := steady_seq.mp steady
    rw [Cursor.walk_append]
    exact ih₂ second (ih₁ first h)
  | hole _ ih =>
    rw [Cursor.walk_append]
    exact (ih steady h).interpolated
  | taken _ ih => exact ih (steady_guard.mp steady).1 h
  | skipped test o =>
    -- the converter went through the body, which ends where it begins
    exact h.trans (steady_guard.mp steady).2.symm
  | first o' _ ih =>
    -- the converter goes on from the other branch, which ends at the same place
    obtain ⟨first, _, same⟩ := steady_branch.mp steady
    exact (ih first h).trans same
  | second o _ ih => exact ih (steady_branch.mp steady).2.1 h
  | stop array item o => exact h.trans (steady_loop.mp steady).2.symm
  | again _ _ ih₁ ih₂ =>
    obtain ⟨body, back⟩ := steady_loop.mp steady
    rw [Cursor.walk_append]
    have once := (ih₁ body h).trans back
    exact ih₂ steady once

/-- Where blocks hand on the place that they were given, the function of a value is the one picked
on every path to it. -/
theorem Reaches.picked_eq {ms : List Move} {address : List Side} {site : EchoSite}
    (reach : o.Reaches ms address site) {j : Cursor} (chosen : o.Chosen job k)
    (steady : o.steady k = true) (h : j.Alike k) :
    job.picked site (j.walk ms) = .ok site.function := by
  induction reach generalizing k j with
  | echo value site => exact (job.picked_of_alike site h).trans chosen
  | resultCount labels site => exact (job.picked_of_alike site h).trans chosen
  | front o' _ ih => exact ih chosen.1 (steady_seq.mp steady).1 h
  | back before _ ih =>
    obtain ⟨first, second⟩ := steady_seq.mp steady
    rw [Cursor.walk_append]
    exact ih chosen.2 second (before.alike_behind first h)
  | hole _ ih => exact ih chosen steady h
  | guard test _ ih => exact ih chosen (steady_guard.mp steady).1 h
  | first test o' _ ih => exact ih chosen.1 (steady_branch.mp steady).1 h
  | second test o _ ih => exact ih chosen.2 (steady_branch.mp steady).2.1 h
  | loop array item _ ih => exact ih chosen (steady_loop.mp steady).1 h
  | later before _ ih =>
    -- a repetition ends where the body begins, so the next one begins at the same place
    obtain ⟨body, back⟩ := steady_loop.mp steady
    rw [Cursor.walk_append]
    have once := (before.alike_behind body h).trans back
    exact ih chosen steady once

end Outline

end ServerTemplate

import ServerTemplate.Proofs.Emission.Alongside
import ServerTemplate.Proofs.Marker.Replay
import ServerTemplate.Proofs.Markup.Alike
import ServerTemplate.Proofs.Markup.Lookahead

/-!
# Seams between literal texts

Of a literal text a conversion heeds the markers other than quoted strings, and what is markup
(`heeded`). Two texts that are put behind one another are heeded as they are apart if the scanner
finds in the whole what it finds in the parts, and the cursor does not look past the end of the
first (`Seam`). Then it makes no difference whether they are replayed as one text or as two
(`Tracker.over?_append`).
-/

namespace ServerTemplate

open Emit

namespace Segment

/-- The segments that a replay heeds: the markers but for quoted strings, and the texts in markup.
-/
def heeded (inCode : Bool) : List Segment → List Segment
  | [] => []
  | .text content :: rest =>
    if inCode then heeded inCode rest else .text content :: heeded inCode rest
  | .marker .quoted :: rest => heeded inCode rest
  | .marker found :: rest => .marker found :: heeded (found.codeAfter inCode) rest

/-- The segments of two texts of which one is behind the other. The text with which one ends and
the text with which the other begins are one. -/
def join : List Segment → List Segment → List Segment
  | [], ys => ys
  | [.text content], .text content' :: ys => .text (content ++ content') :: ys
  | x :: xs, ys => x :: join xs ys

/-- The cursor behind segments that are heeded. -/
def walk : Cursor → List Segment → Cursor
  | k, [] => k
  | k, .text content :: rest => walk (k.feed content) rest
  | k, .marker _ :: rest => walk k rest

/-- Whether the cursor looks past the end of the last of some segments into the first of others. -/
def looksPast : Cursor → List Segment → List Segment → Bool
  | k, [.text content], .text content' :: _ => k.looksPast content content'
  | _, [], _ => false
  | k, .text content :: xs, ys => looksPast (k.feed content) xs ys
  | k, .marker _ :: xs, ys => looksPast k xs ys

/-- Joined segments are walked one after the other, if the cursor does not look past the first. -/
theorem walk_join {k : Cursor} {xs ys : List Segment} (blind : looksPast k xs ys = false) :
    walk k (join xs ys) = walk (walk k xs) ys := by
  fun_induction join xs ys generalizing k with
  | case1 ys => rfl
  | case2 content content' ys =>
    change walk (k.feed (content ++ content')) ys = walk ((k.feed content).feed content') ys
    rw [Cursor.feed_append blind]
  | case3 x xs ys last ih =>
    cases x with
    | text content =>
      refine ih ?_
      rw [← blind, looksPast]
      intro content' _ hys hxs
      exact last content content' _ hys rfl hxs
    | marker found => exact ih blind

/-- Cursors at the same place are at the same place behind segments. -/
theorem walk_alike {k k' : Cursor} (alike : k.Alike k') (xs : List Segment) :
    (walk k xs).Alike (walk k' xs) := by
  induction xs generalizing k k' with
  | nil => exact alike
  | cons x xs ih =>
    cases x with
    | text content => exact ih (alike.feed content)
    | marker found => exact ih alike

end Segment

namespace Tracker

/-- The scopes behind segments, unless a marker does not fit. -/
def follow? (t : Tracker) : List Segment → Option Tracker
  | [] => some t
  | .text _ :: rest => t.follow? rest
  | .marker found :: rest => (t.behind found).toOption.bind fun t' => t'.follow? rest

theorem follow?_join (t : Tracker) (xs ys : List Segment) :
    t.follow? (Segment.join xs ys) = (t.follow? xs).bind fun t' => t'.follow? ys := by
  fun_induction Segment.join xs ys generalizing t with
  | case1 ys => rfl
  | case2 content content' ys => rfl
  | case3 x xs ys last ih =>
    cases x with
    | text content => exact ih t
    | marker found =>
      rw [follow?, follow?]
      cases (t.behind found).toOption with
      | none => rfl
      | some t' => exact ih t'

/-- Only what is heeded is replayed. -/
theorem Flat.replay?_eq {t : Tracker} (flat : t.Flat) (k : Cursor) (xs : List Segment) :
    Segment.replay? xs t k = (t.follow? (Segment.heeded t.inCode xs)).map fun t' =>
      (t', Segment.walk k (Segment.heeded t.inCode xs)) := by
  induction xs generalizing t k with
  | nil => rfl
  | cons x xs ih =>
    cases x with
    | text content =>
      rw [Segment.replay?, ih flat, Segment.heeded]
      cases t.inCode <;> rfl
    | marker found =>
      have behind : ((t.behind found).toOption.bind fun t' => Segment.replay? xs t' k) =
          ((t.behind found).toOption.bind fun t' =>
            t'.follow? (Segment.heeded (found.codeAfter t.inCode) xs)).map fun t' =>
              (t', Segment.walk k (Segment.heeded (found.codeAfter t.inCode) xs)) := by
        cases hbehind : t.behind found with
        | error d => rfl
        | ok t' =>
          obtain ⟨flat', region⟩ := flat.behind hbehind
          rw [← region]
          exact ih flat' k
      cases found with
      | quoted => exact ih flat k
      | _ => exact behind

end Tracker

/-! ### Texts -/

/-- What a conversion heeds of a text that begins in code or in markup. -/
def heeded (inCode : Bool) (cs : List Char) : List Segment :=
  Segment.heeded inCode (segments inCode cs)

/-- Whether code follows a text that begins in code or in markup. -/
def codeAfter (inCode : Bool) (cs : List Char) : Bool :=
  Segment.codeAfter inCode (segments inCode cs)

/-- Two texts, the first of which begins in code or in markup and at a place in the markup, are
heeded behind one another as they are apart. -/
structure Seam (inCode : Bool) (k : Cursor) (xs ys : List Char) : Prop where
  /-- The scanner finds in the whole what it finds in the parts. -/
  scanned : heeded inCode (xs ++ ys) =
    Segment.join (heeded inCode xs) (heeded (codeAfter inCode xs) ys)
  /-- The cursor does not look past the end of the first. -/
  walked : Segment.looksPast k (heeded inCode xs) (heeded (codeAfter inCode xs) ys) = false

namespace Tracker

/-- The scopes and the cursor behind a text, unless a marker in it does not fit. -/
def over? (t : Tracker) (k : Cursor) (content : String) : Option (Tracker × Cursor) :=
  (t.follow? (heeded t.inCode content.toList)).map fun t' =>
    (t', Segment.walk k (heeded t.inCode content.toList))

variable {t t' : Tracker} {k k' : Cursor} {xs ys content : String}

/-- The region behind a text is the one that the scanner finds. -/
theorem Flat.over? (flat : t.Flat) (h : t.over? k content = some (t', k')) :
    t'.Flat ∧ t'.inCode = codeAfter t.inCode content.toList := by
  have replayed : Segment.replay? (t.segments content) t k = some (t', k') :=
    (flat.replay?_eq k _).trans h
  exact flat.replay? replayed

theorem cursor_of_over? (h : t.over? k content = some (t', k')) :
    k' = Segment.walk k (heeded t.inCode content.toList) := by
  obtain ⟨_, -, same⟩ := Option.map_eq_some_iff.mp h
  exact (Prod.mk.inj same).2.symm

/-- Two texts without a seam between them do together what they do one after the other. -/
theorem over?_append (flat : t.Flat) (seam : Seam t.inCode k xs.toList ys.toList) :
    t.over? k (xs ++ ys) = (t.over? k xs).bind fun r => r.1.over? r.2 ys := by
  cases hxs : t.follow? (heeded t.inCode xs.toList) with
  | none =>
    rw [over?, over?, String.toList_append, seam.scanned, follow?_join, hxs]
    rfl
  | some t₁ =>
    have first : t.over? k xs = some (t₁, Segment.walk k (heeded t.inCode xs.toList)) := by
      rw [over?, hxs]
      rfl
    obtain ⟨-, region⟩ := flat.over? first
    rw [first, Option.bind_some, over?, over?, String.toList_append, seam.scanned, follow?_join,
      hxs,
      Segment.walk_join seam.walked, region]
    rfl

/-- A text leads to the same scopes from every place in the markup. -/
theorem over?_alike (alike : (Segment.walk k (heeded t.inCode content.toList)).Alike
    (Segment.walk k' (heeded t.inCode content.toList))) :
    Option.Rel (fun r r' => r.1 = r'.1 ∧ r.2.Alike r'.2) (t.over? k content)
      (t.over? k' content) := by
  unfold over?
  cases t.follow? (heeded t.inCode content.toList) with
  | none => exact .none
  | some t' => exact .some ⟨rfl, alike⟩

end Tracker

namespace Emit

/-- A part of a conversion writes a text and leads to scopes and a place, or fails where there are
none. -/
def ComesTo (s : Progress) (x : Emit Unit) (r : Option (Tracker × Cursor)) (content : String) :
    Prop :=
  After x s (fun _ s' => r = some (s'.tracker, s'.cursor) ∧ s'.written = s.written ++ content)
    fun _ _ => r = none

variable {s : Progress} {x y : Emit Unit} {r : Option (Tracker × Cursor)}
  {content content' : String}

/-- Parts one after the other come to what the second comes to behind the first. -/
theorem ComesTo.bind {g : Tracker × Cursor → Option (Tracker × Cursor)}
    (hx : ComesTo s x r content)
    (hy : ∀ s', r = some (s'.tracker, s'.cursor) →
      ComesTo s' y (g (s'.tracker, s'.cursor)) content') :
    ComesTo s (do x; y) (r.bind g) (content ++ content') := by
  unfold ComesTo
  rw [after_bind]
  refine After.mono hx (fun _ s₁ ⟨hr, first⟩ => ?_) fun _ _ hr => by rw [hr]; rfl
  refine (hy s₁ hr).mono (fun _ s₂ ⟨hg, second⟩ => ⟨?_, ?_⟩) fun _ _ hg => ?_
  · rw [hr]
    exact hg
  · rw [second, first, String.append_assoc]
  · rw [hr]
    exact hg

/-- Parts that write the same text and come to the same scopes and the same place are parallel. -/
theorem ComesTo.parallel {front : String} {s' : Progress} {r' : Option (Tracker × Cursor)}
    (hx : ComesTo s x r content) (hy : ComesTo s' y r' content)
    (same : Option.Rel (fun r r' => r.1 = r'.1 ∧ r.2.Alike r'.2) r r')
    (written : s'.written = front ++ s.written) : Parallel front (x s) (y s') := by
  unfold ComesTo After at hx hy
  cases same with
  | none =>
    cases hxs : x s with
    | ok a s₁ => rw [hxs] at hx; cases hx.1
    | error d s₁ =>
      cases hys : y s' with
      | ok a s₁' => rw [hys] at hy; cases hy.1
      | error d' s₁' => exact .error d d' s₁ s₁'
  | some related =>
    cases hxs : x s with
    | error d s₁ => rw [hxs] at hx; cases hx
    | ok a s₁ =>
      cases hys : y s' with
      | error d' s₁' => rw [hys] at hy; cases hy
      | ok a' s₁' =>
        rw [hxs] at hx
        rw [hys] at hy
        obtain ⟨hr, first⟩ := hx
        obtain ⟨hr', second⟩ := hy
        cases hr
        cases hr'
        refine .ok ⟨related.1.symm, related.2, ?_⟩
        rw [second, first, written, String.append_assoc]

theorem comesTo_text (content : String) (flat : s.tracker.Flat) :
    ComesTo s (text content) (s.tracker.over? s.cursor content) content := by
  have same : s.tracker.over? s.cursor content =
      Segment.replay? (s.tracker.segments content) s.tracker s.cursor :=
    (flat.replay?_eq s.cursor _).symm
  rw [same]
  exact after_text_replay content s

theorem comesTo_chunk (content : String) (flat : s.tracker.Flat) :
    ComesTo s (chunk content) (s.tracker.over? s.cursor content) content :=
  comesTo_text (s := s.noting (.chunk content)) content flat

theorem comesTo_constantText (content : String) (flat : s.tracker.Flat) :
    ComesTo s (constantText content) (s.tracker.over? s.cursor content) content :=
  comesTo_text (s := s.noting (.constantText content)) content flat

end Emit

end ServerTemplate

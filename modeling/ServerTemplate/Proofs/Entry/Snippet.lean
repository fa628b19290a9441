import ServerTemplate.Proofs.Entry.Around
import ServerTemplate.Proofs.Text.Lines

/-!
# The lines that snippets show

A diagnostic about an expression reports the line on which the expression begins, as a script counts
lines, and shows the lines around it, as an editor counts them. While the lines in front are whole,
the line that is shown under the reported number is the right one if and only if it is whole itself
(`Options.site_shows_iff`).
-/

namespace ServerTemplate

open Script

/-! ### Numbered lines -/

namespace Snippet

variable {α : Type} {xs : List α} {a m n : Nat}

theorem drop_zipIdx : (xs.zipIdx m).drop a = (xs.drop a).zipIdx (m + a) := by
  refine List.ext_getElem? fun i => ?_
  simp only [List.getElem?_drop, List.getElem?_zipIdx, Nat.add_assoc]

theorem take_zipIdx : (xs.zipIdx m).take a = (xs.take a).zipIdx m := by
  refine List.ext_getElem? fun i => ?_
  simp only [List.getElem?_take, List.getElem?_zipIdx]
  split <;> rfl

/-- The line of a number is the one that many places behind the first. -/
theorem lookup_zipIdx {β : Type} (f : α → β) (le : m ≤ n) :
    ((xs.zipIdx m).map fun (x, number) => (number, f x)).lookup n = xs[n - m]?.map f := by
  induction xs generalizing m with
  | nil => rfl
  | cons x xs ih =>
    rw [List.zipIdx_cons, List.map_cons, List.lookup_cons]
    rcases Nat.eq_or_lt_of_le le with rfl | lt
    · simp
    · have other : (n == m) = false := by
        rw [beq_eq_false_iff_ne]
        exact Nat.ne_of_gt lt
      have index : n - m = n - (m + 1) + 1 := by omega
      rw [other, ih lt, index, List.getElem?_cons_succ]

/-- The line that a snippet shows under the number of the line at fault, if there is a snippet. -/
def shown? (snippet : Option Snippet) (number : Nat) : Option String :=
  snippet.bind fun snippet => snippet.lines.lookup number

/-- A snippet shows the line at fault as an editor numbers lines. -/
theorem shown?_around? (source : String) (k : Nat) (column : Option Int) :
    shown? (around? source (k + 1) column) (k + 1) =
      (Text.lines source.toList)[k]?.map String.ofList := by
  unfold shown? around?
  dsimp only
  generalize Text.lines source.toList = all
  split
  · rename_i within
    have lt : k < all.length := by omega
    have start : ((k : Int) + 1 - 1 - 1).toNat = k - 1 := by omega
    have stop : (min (all.length : Int) (k + 1 + 1)).toNat = min all.length (k + 2) := by omega
    rw [Option.bind_some, start, stop, drop_zipIdx, take_zipIdx,
      lookup_zipIdx String.ofList (by omega), List.getElem?_take, List.getElem?_drop]
    have index : k - 1 + (k + 1 - (1 + (k - 1))) = k := by omega
    rw [index, if_pos (by omega)]
  · have past : all.length ≤ k := by omega
    rw [List.getElem?_eq_none past]
    rfl

end Snippet

/-! ### Diagnostics about nodes -/

/-- Whether a site shows a text under the number of the line that it reports. -/
def Site.Shows (site : Site) (text : List Char) : Prop :=
  ∃ number : Nat, site.line = some (number : Int) ∧
    Snippet.shown? site.snippet number = some (String.ofList text)

/-- What a site shows is a line as an editor counts lines. -/
theorem Job.site_shows_iff_lines {job : Job} {t : Tracker} {e : Expr} {k : Nat} {text : List Char}
    (line : e.place.line = k + 1) :
    (job.site t e).Shows text ↔ (Text.lines job.source.toList)[k]? = some text := by
  have shown : Snippet.shown? (job.site t e).snippet (k + 1) =
      (Text.lines job.source.toList)[k]?.map String.ofList := by
    rw [site, line]
    exact Snippet.shown?_around? _ _ _
  have number : (job.site t e).line = some ((k + 1 : Nat) : Int) := by
    rw [site, line]
    rfl
  constructor
  · rintro ⟨m, reported, shows⟩
    have same : m = k + 1 := Int.ofNat_inj.mp (Option.some.inj (reported.symm.trans number))
    rw [same, shown] at shows
    obtain ⟨found, eq, same⟩ := Option.map_eq_some_iff.mp shows
    rw [eq, String.ofList_injective same]
  · intro eq
    exact ⟨k + 1, number, by rw [shown, eq, Option.map_some]⟩

namespace Options

variable {o : Options} {form : SourceForm} {source : String} {d : Declaration} {n : Node} {e : Expr}

/-- Whether an expression is that of a node which reading the entry template comes to. -/
def Lowers (o : Options) (form : SourceForm) (source : String) (d : Declaration) (n : Node)
    (e : Expr) : Prop :=
  let s := o.sourceOf form source d
  ∃ tree only, o.parser.read s.chars = some tree ∧
    tree.candidates s ⟨(o.entryPointOf d).name?, o.tag⟩ = [only] ∧
    Node.IsRead s only.call n ∧ Expr.ofNode s n = .ok e

/-- Behind how many characters of the source a node begins. What stands in front of the source
counts as its first line. -/
def pointOf (o : Options) (form : SourceForm) (source : String) (d : Declaration)
    (n : Node) : Nat :=
  ((o.sourceOf form source d).slice 0 n.start.octet).length - (o.sourceOf form source d).lead

/-- A node that is read begins in the source, or in front of it on its first line. -/
theorem Lowers.exists_spans (lowers : o.Lowers form source d n e) :
    ∃ front behind : List Char, ∃ i j, '\n' ∉ front ∧
      o.sourceOf form source d = ⟨front ++ source.toList ++ behind, front.length⟩ ∧
      n.Spans (o.sourceOf form source d).chars i j ∧ i < front.length + source.toList.length := by
  obtain ⟨tree, only, read, one, isRead, -⟩ := lowers
  have mem := one ▸ List.mem_singleton_self only
  obtain ⟨front, behind, single, -, last, eq⟩ := sourceOf_eq_of_found read mem
  obtain ⟨call, markup⟩ := Node.has_of_mem_candidates mem
  obtain ⟨parts, child, kind⟩ := Node.readParts_of_markup? markup
  have sound (m : Node) (has : only.call.Has m) := o.parser.sound read (call.trans has)
  obtain ⟨k, l, template⟩ := (sound _ (.inner child (.self _))).exists_spans
  obtain ⟨length, -, closing, -, stop⟩ :=
    (sound _ (.inner child (.self _))).template kind template
  have le_length := template.le_length
  obtain ⟨i, j, spans⟩ := (sound n isRead.has).exists_spans
  have before : n.start.octet < only.template.stop - 1 := by
    have within (m : Node) (has : only.template.Has m) := sound m (.inner child has)
    cases isRead with
    | here =>
      have bounds := Node.Has.bounds (.inner child (.self _)) sound
      exact Nat.lt_of_le_of_lt bounds.1 (Node.start_lt_of_isRead (s := o.sourceOf form source d)
        within kind (.here _))
    | inside part isRead =>
      rw [parts, List.mem_singleton] at part
      exact Node.start_lt_of_isRead within kind (part ▸ isRead)
  rw [spans.octet_eq, stop, offset_lt_iff (by omega)] at before
  rw [eq] at closing
  exact ⟨front, behind, i, j, single, eq, spans,
    Nat.lt_of_lt_of_le before (Source.quote_le last closing)⟩

/-- While the lines in front are whole, a diagnostic about the expression of a node shows the line
on which the node begins, under the number that it reports, if and only if this line is whole too.
Of an empty source nothing is shown. -/
theorem site_shows_iff (lowers : o.Lowers form source d n e) (job : Job)
    (source_eq : job.source = source) (t : Tracker)
    (before : Text.AreWholeBefore source.toList (o.pointOf form source d n)) :
    ∃ line, Text.feedLineAt? source.toList (o.pointOf form source d n) = some line ∧
      ((job.site t e).Shows line ↔ source ≠ "" ∧ Text.IsWhole line) := by
  obtain ⟨front, behind, i, j, single, eq, spans, lt⟩ := lowers.exists_spans
  obtain ⟨tree, only, -, -, -, lowered⟩ := lowers
  have place := (Expr.place_of_ofNode lowered).trans spans.place_eq
  have le : i ≤ (o.sourceOf form source d).chars.length := Nat.le_trans spans.le spans.le_length
  have point : o.pointOf form source d n = i - front.length := by
    have slice : (o.sourceOf form source d).slice 0 (offset (o.sourceOf form source d).chars i) =
        String.ofList ((o.sourceOf form source d).chars.take i) :=
      Source.slice_offset (Nat.zero_le i)
    have lead : (o.sourceOf form source d).lead = front.length := by rw [eq]
    rw [pointOf, spans.octet_eq, lead, slice, String.length_ofList, List.length_take,
      Nat.min_eq_left le]
  have line : e.place.line = ((source.toList.take (i - front.length)).count '\n' : Nat) + 1 := by
    rw [place, Source.place_past le]
    dsimp only
    rw [eq, Source.count_take_around single (Nat.le_of_lt lt)]
  rw [point] at before ⊢
  simp only [Job.site_shows_iff_lines line, source_eq]
  by_cases empty : source = ""
  · subst empty
    exact ⟨[], by simp [Text.feedLineAt?, Text.feedLines], by simp [Text.lines]⟩
  · have nonempty : 0 < source.toList.length :=
      List.length_pos_iff.mpr fun h => empty (String.toList_eq_nil_iff.mp h)
    have inside : i - front.length < source.toList.length := by omega
    obtain ⟨text, found, last⟩ := Text.exists_feedLineAt? inside
    have shows := Text.show_lines source.toList _ text before found last
    refine ⟨text, found, ?_⟩
    rw [shows, Option.some.injEq, Text.takeWhile_eq_self_iff, and_iff_right empty]

/-- The nodes in the holes of an entry template and what they become. -/
def holeNodes (o : Options) (form : SourceForm) (source : String) (d : Declaration) :
    List (Node × Expr) :=
  let s := o.sourceOf form source d
  (o.parser.read s.chars).toList.flatMap fun tree =>
    match tree.candidates s ⟨(o.entryPointOf d).name?, o.tag⟩ with
    | [only] =>
      ((only.call.readParts s).flatMap (Node.readParts s)).filterMap fun n =>
        (Expr.ofNode s n).toOption.map fun e => (n, e)
    | _ => []

theorem exists_of_mem_holeNodes (mem : (n, e) ∈ o.holeNodes form source d) :
    let s := o.sourceOf form source d
    ∃ tree only template, o.parser.read s.chars = some tree ∧
      tree.candidates s ⟨(o.entryPointOf d).name?, o.tag⟩ = [only] ∧
      template ∈ only.call.readParts s ∧ n ∈ template.readParts s ∧ Expr.ofNode s n = .ok e := by
  obtain ⟨tree, read, mem⟩ := List.mem_flatMap.mp mem
  split at mem
  · rename_i only one
    obtain ⟨c, part, eq⟩ := List.mem_filterMap.mp mem
    obtain ⟨template, first, second⟩ := List.mem_flatMap.mp part
    obtain ⟨lowered, ok, eq⟩ := Option.map_eq_some_iff.mp eq
    cases eq
    refine ⟨tree, only, template, Option.mem_toList.mp read, one, first, second, ?_⟩
    cases eq : Expr.ofNode (o.sourceOf form source d) n with
    | ok e' =>
      rw [eq] at ok
      cases ok
      rfl
    | error failure =>
      rw [eq] at ok
      cases ok
  · cases mem

theorem lowers_of_mem_holeNodes (mem : (n, e) ∈ o.holeNodes form source d) :
    o.Lowers form source d n e := by
  obtain ⟨tree, only, template, read, one, first, second, lowered⟩ := exists_of_mem_holeNodes mem
  exact ⟨tree, only, read, one, .inside first (.inside second (.here _)), lowered⟩

/-- A component without parameters. -/
def bare : Declaration := { name := .str "c" }

/-- A template on two lines. -/
def twoLines : String := "<p>a</p>\r\n<p>$\x7bthis.x\x7d</p>"

/-- The second of two lines is shown for a value on it. -/
theorem site_shows_twoLines : ∃ n e, ({} : Options).Lowers .template twoLines bare n e ∧
    ∀ (job : Job) (t : Tracker), job.source = twoLines →
      (job.site t e).Shows "<p>$\x7bthis.x\x7d</p>".toList := by
  have checks : ((({} : Options).holeNodes .template twoLines bare).any fun (n, e) =>
      Text.feedLineAt? twoLines.toList (({} : Options).pointOf .template twoLines bare n) ==
        some "<p>$\x7bthis.x\x7d</p>".toList &&
      decide (Text.AreWholeBefore twoLines.toList
        (({} : Options).pointOf .template twoLines bare n))) = true := by
    decide +kernel
  obtain ⟨⟨n, e⟩, mem, checks⟩ := List.any_eq_true.mp checks
  simp only [Bool.and_eq_true, beq_iff_eq, decide_eq_true_eq] at checks
  have lowers := lowers_of_mem_holeNodes mem
  refine ⟨n, e, lowers, fun job t source_eq => ?_⟩
  obtain ⟨line, found, shows⟩ :=
    site_shows_iff lowers job source_eq t checks.2
  cases found.symm.trans checks.1
  exact shows.mpr (by decide +kernel)

/-- A template with a separator of lines in front of its only line feed. -/
def separated : String := "<p>a\u2028b</p>\n<p>$\x7bthis.x\x7d</p>"

/-- For a value behind a separator of lines, a line in front of that on which it stands is shown. -/
theorem not_shows_separated : ∃ n e line,
    ({} : Options).Lowers .template separated bare n e ∧
      Text.feedLineAt? separated.toList (({} : Options).pointOf .template separated bare n) =
        some line ∧
      ∀ (job : Job) (t : Tracker), job.source = separated → ¬(job.site t e).Shows line := by
  have checks : ((({} : Options).holeNodes .template separated bare).any fun (n, e) =>
      e.place.line == 2 &&
      Text.feedLineAt? separated.toList (({} : Options).pointOf .template separated bare n) ==
        some "<p>$\x7bthis.x\x7d</p>".toList) = true := by
    decide +kernel
  obtain ⟨⟨n, e⟩, mem, checks⟩ := List.any_eq_true.mp checks
  simp only [Bool.and_eq_true, beq_iff_eq] at checks
  refine ⟨n, e, _, lowers_of_mem_holeNodes mem, checks.2, fun job t source_eq shows => ?_⟩
  have second := (Job.site_shows_iff_lines checks.1).mp shows
  rw [source_eq] at second
  revert second
  decide +kernel

end Options

end ServerTemplate

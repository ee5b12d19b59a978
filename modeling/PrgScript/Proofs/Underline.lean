import PrgScript.Proofs.Glyphs
import PrgScript.Proofs.Widths

/-!
# The mark under a span

A line is shown with blanks in place of its tabs, and a mark below it points out a span. The mark
starts below the first column of the span. It has a sign for every column that the characters of
the span take, tabs among them taking none: it reaches to the end of the span as it is shown if
no tab is in it, and else misses a column for every tab, except for those that a blank shares
with the clusters beside it (`underline_marks_span`).
-/

namespace PrgScript.Display

open Text

theorem ofNat_eq_tab {n : Nat} (low : n < 128) : Char.ofNat n = '\t' ↔ n = 9 := by
  revert n
  decide

/-- Bytes are shown as the characters that they are. -/
theorem untabbed_acts :
    ActsAs (fun b => if b = 9 then 32 else b) (fun c => if c = '\t' then ' ' else c) where
  high {b} high := by
    refine if_neg ?_
    rintro rfl
    exact absurd high (by decide)
  low {b} low := by
    split
    · decide
    · exact low
  char {b} low := by
    have isTab : Char.ofNat b.toNat = '\t' ↔ b = 9 := by
      rw [ofNat_eq_tab low]
      exact UInt8.toNat_inj (b := 9)
    simp only [isTab]
    split <;> rfl
  highChar {c} high := by
    refine if_neg ?_
    rintro rfl
    exact absurd high (by decide)

/-- The characters of a line before a span, in it, and behind it. A span that goes on beyond the
line covers all of its rest. -/
structure SpanParts (cs : List Char) (start stop : LineCol)
    (before covered behind : List Char) : Prop where
  whole : cs = before ++ covered ++ behind
  first : before.length = min (start.col - 1) cs.length
  last : before.length + covered.length = max before.length
    (if stop.line = start.line then min (stop.col - 1) cs.length else cs.length)

theorem exists_spanParts (cs : List Char) (start stop : LineCol) :
    ∃ before covered behind, SpanParts cs start stop before covered behind := by
  generalize length : min (start.col - 1) cs.length = first
  generalize stops : (if stop.line = start.line then min (stop.col - 1) cs.length else cs.length) =
    last
  have inside : last ≤ cs.length := by
    rw [← stops]
    split <;> omega
  refine ⟨cs.take first, (cs.drop first).take (last - first), (cs.drop first).drop (last - first),
    ?_, ?_, ?_⟩
  · rw [List.append_assoc, List.take_append_drop, List.take_append_drop]
  · rw [List.length_take, length]
    omega
  · rw [stops, List.length_take, List.length_take, List.length_drop]
    omega

theorem SpanParts.underline_eq {line : Text} {start stop : LineCol}
    {before covered behind : List Char}
    (h : SpanParts (chars line) start stop before covered behind) :
    underline line start stop = (screenWidth (untabbed before),
      ofString "^" ++ List.replicate (screenWidth covered - 1) 126) := by
  have front : (chars line).take before.length = before := by
    rw [h.whole, List.append_assoc, List.take_left]
  have inside : ((chars line).drop before.length).take covered.length = covered := by
    rw [h.whole, List.append_assoc, List.drop_left, List.take_left]
  unfold underline
  simp only [← h.first, ← h.last, Nat.add_sub_cancel_left, front, inside]

/-- The mark starts below the first column of a span as the line shows it, and has a sign for every
column that the characters of the span take, at least one. The line shows a column more for every
tab of the span, except for those that a blank shares with the clusters beside it; without a tab
the mark ends with the span. -/
theorem underline_marks_span (d : Display) (width number : Nat) (line : Text)
    (start stop : LineCol) :
    ∃ shown before covered behind n,
      d.sourceLine width number line =
          padLeft width (ofNat number) ++ " " ++ d.bar ++ " " ++ shown ++ "\n" ∧
        SpanParts (chars line) start stop before covered behind ∧
        chars shown = untabbed before ++ untabbed covered ++ untabbed behind ∧
        underline line start stop =
          (screenWidth (untabbed before), ofString "^" ++ List.replicate n 126) ∧
        n + 1 = max 1 (screenWidth covered) ∧
        screenWidth (untabbed covered) + sharedIn (clusters covered) =
          screenWidth covered + covered.count '\t' ∧
        ('\t' ∉ covered → n + 1 = max 1 (screenWidth (untabbed covered))) := by
  obtain ⟨before, covered, behind, parts⟩ := exists_spanParts (chars line) start stop
  have shown : chars (line.map fun b => if b = 9 then 32 else b) =
      untabbed before ++ untabbed covered ++ untabbed behind := by
    rw [untabbed_acts.chars_map, parts.whole, List.map_append, List.map_append]
    rfl
  have length : screenWidth covered - 1 + 1 = max 1 (screenWidth covered) := by omega
  refine ⟨_, before, covered, behind, screenWidth covered - 1, rfl, parts, shown,
    parts.underline_eq, length, screenWidth_untabbed covered, ?_⟩
  intro plain
  have same : untabbed covered = covered := by
    conv => rhs; rw [← List.map_id covered]
    refine List.map_congr_left fun c mem => if_neg ?_
    rintro rfl
    exact plain mem
  rw [same, length]

/-- The mark under a span with a tab ends before the span does. -/
theorem tab_not_marked :
    let line := ofString "a\tb c"
    line.map (fun b => if b = 9 then 32 else b) = ofString "a b c" ∧
      SpanParts (chars line) ⟨1, 1⟩ ⟨1, 4⟩ [] ['a', '\t', 'b'] [' ', 'c'] ∧
        screenWidth (untabbed ['a', '\t', 'b']) = 3 ∧
          underline line ⟨1, 1⟩ ⟨1, 4⟩ = (0, ofString "^~") := by
  refine ⟨by decide +kernel, ⟨by decide +kernel, by decide +kernel, by decide +kernel⟩,
    by decide +kernel, by decide +kernel⟩

end PrgScript.Display

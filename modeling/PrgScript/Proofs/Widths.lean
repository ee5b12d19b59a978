import PrgScript.Diagnostic.Display

/-!
# Widths of shown characters

Characters are shown in clusters, and a cluster takes the columns of its first character that
takes any. A tab is a cluster of its own without a column.

A blank shown in place of a tab takes a column. But it need not be a cluster of its own: some
characters take a blank behind them into their cluster, and some go on with the cluster of a
blank before them. What they share with the blank is shown once (`screenWidth_untabbed`).
-/

namespace PrgScript.Text

theorem charWidth_le_two (c : Char) : charWidth c ≤ 2 := by
  unfold charWidth
  dsimp only
  repeat' split
  all_goals decide

theorem total_cons (n : Nat) (ns : List Nat) : total (n :: ns) = n + total ns := by
  have shift : ∀ (ns : List Nat) (a b : Nat),
      ns.foldl (· + ·) (a + b) = a + ns.foldl (· + ·) b := by
    intro ns
    induction ns with
    | nil => exact fun a b => rfl
    | cons m ns ih => intro a b; rw [List.foldl_cons, List.foldl_cons, Nat.add_assoc, ih]
  exact (congrArg (ns.foldl (· + ·)) (Nat.add_comm 0 n)).trans (shift ns n 0)

/-! ### Clusters -/

theorem clusterWidth_cons (c : Char) (cs : List Char) :
    clusterWidth (c :: cs) = if 0 < charWidth c then charWidth c else clusterWidth cs := by
  unfold clusterWidth
  rw [List.map_cons, List.find?_cons]
  by_cases some : 0 < charWidth c <;> simp [some]

theorem clusterWidth_append (cs cs' : List Char) :
    clusterWidth (cs ++ cs') =
      if 0 < clusterWidth cs then clusterWidth cs else clusterWidth cs' := by
  induction cs with
  | nil => rfl
  | cons c cs ih =>
      rw [List.cons_append, clusterWidth_cons, clusterWidth_cons, ih]
      by_cases some : 0 < charWidth c <;> simp [some]

def widthOf (parts : List (List Char)) : Nat := total (parts.map clusterWidth)

theorem widthOf_cons (part : List Char) (parts : List (List Char)) :
    widthOf (part :: parts) = clusterWidth part + widthOf parts := total_cons _ _

theorem screenWidth_eq (cs : List Char) : screenWidth cs = widthOf (clusters cs) := rfl

/-- The clusters of characters that follow a cluster begun, whose characters are given from the
last to the first. -/
def clustersAfter (begun : List Char) (e : ClusterEnd) (cs : List Char) : List (List Char) :=
  clustersFrom (fun c => some (graphemeRole c)) begun e cs

theorem clusters_cons (c : Char) (cs : List Char) :
    clusters (c :: cs) = clustersAfter [c] (.start (graphemeRole c)) cs := rfl

theorem clustersAfter_nil (begun : List Char) (e : ClusterEnd) :
    clustersAfter begun e [] = [begun.reverse] := rfl

theorem clustersAfter_of_joins {e : ClusterEnd} {c : Char} (joins : e.joins (graphemeRole c) = true)
    (begun cs : List Char) :
    clustersAfter begun e (c :: cs) = clustersAfter (c :: begun) (e.push (graphemeRole c)) cs := by
  simp only [clustersAfter, clustersFrom, joins, if_true]

theorem clustersAfter_of_not_joins {e : ClusterEnd} {c : Char}
    (ends : e.joins (graphemeRole c) = false) (begun cs : List Char) :
    clustersAfter begun e (c :: cs) =
      begun.reverse :: clustersAfter [c] (.start (graphemeRole c)) cs := by
  simp [clustersAfter, clustersFrom, ends]

/-- What goes on with a cluster and what comes behind it depend on its end only. -/
theorem exists_clustersAfter (e : ClusterEnd) (cs : List Char) :
    ∃ more rest, ∀ begun, clustersAfter begun e cs = (begun.reverse ++ more) :: rest := by
  induction cs generalizing e with
  | nil => exact ⟨[], [], fun begun => by rw [clustersAfter_nil, List.append_nil]⟩
  | cons c cs ih =>
      cases joins : e.joins (graphemeRole c) with
      | true =>
          obtain ⟨more, rest, same⟩ := ih (e.push (graphemeRole c))
          refine ⟨c :: more, rest, fun begun => ?_⟩
          rw [clustersAfter_of_joins joins, same]
          simp
      | false =>
          refine ⟨[], clustersAfter [c] (.start (graphemeRole c)) cs, fun begun => ?_⟩
          rw [clustersAfter_of_not_joins joins, List.append_nil]

/-! ### Blanks in place of tabs -/

theorem graphemeRole_tab : graphemeRole '\t' = .control := by decide

theorem graphemeRole_blank : graphemeRole ' ' = .other := by decide

theorem ClusterEnd.joins_control (e : ClusterEnd) : e.joins .control = false := by
  simp [joins, isBreaking]

theorem ClusterEnd.control_joins {e : ClusterEnd} (control : e.last = .control)
    (role : GraphemeRole) : e.joins role = false := by
  simp [joins, isBreaking, control]

/-- Whether a cluster that ends with a character takes a blank in. -/
def takesBlank (c : Char) : Bool := graphemeRole c == .prepend

/-- Whether a character goes on with the cluster of a blank. -/
def followsBlank (c : Char) : Bool :=
  graphemeRole c == .extend || graphemeRole c == .joiner || graphemeRole c == .spacing

theorem ClusterEnd.joins_other (e : ClusterEnd) : e.joins .other = (e.last == .prepend) := by
  obtain ⟨last, odd, after, joined⟩ := e
  cases last <;> rfl

theorem ClusterEnd.joins_prepend {e : ClusterEnd} (closed : e.last ≠ .prepend) :
    e.joins .prepend = false := by
  obtain ⟨last, odd, after, joined⟩ := e
  cases last <;> first | rfl | exact absurd rfl closed

theorem ClusterEnd.push_other (e : ClusterEnd) : e.push .other = .start .other := rfl

theorem ClusterEnd.other_joins (role : GraphemeRole) :
    (start .other).joins role = (role == .extend || role == .joiner || role == .spacing) := by
  cases role <;> rfl

/-- A character behind a blank leaves a cluster open as it would by itself. -/
theorem ClusterEnd.other_push (role : GraphemeRole) : (start .other).push role = .start role := by
  cases role <;> rfl

/-- The columns that two neighbouring clusters share if one of them is a tab and shown as a blank:
the blank shows none behind a cluster that takes it in, and a cluster that follows the blank shows
none of its own. -/
def shared (part next : List Char) : Nat :=
  if next = ['\t'] ∧ part.getLast?.any takesBlank ∧ 0 < clusterWidth part then 1
  else if part = ['\t'] ∧ next.head?.any followsBlank then clusterWidth next
  else 0

/-- The columns that some clusters share with blanks in place of their tabs. -/
def sharedIn (parts : List (List Char)) : Nat := total (List.zipWith shared parts parts.tail)

theorem sharedIn_cons (part next : List Char) (parts : List (List Char)) :
    sharedIn (part :: next :: parts) = shared part next + sharedIn (next :: parts) :=
  total_cons _ _

theorem shared_of_ne {part next : List Char} (h : part ≠ ['\t']) (h' : next ≠ ['\t']) :
    shared part next = 0 := by
  simp [shared, h, h']

theorem shared_tab (part : List Char) :
    shared part ['\t'] =
      if part.getLast?.any takesBlank ∧ 0 < clusterWidth part then 1 else 0 := by
  have follows : followsBlank '\t' = false := by decide
  simp [shared, follows]

theorem tab_shared (c : Char) (cs : List Char) :
    shared ['\t'] (c :: cs) = if followsBlank c then clusterWidth (c :: cs) else 0 := by
  have takes : takesBlank '\t' = false := by decide
  simp [shared, takes]

open Display (untabbed)

theorem untabbed_cons_tab (cs : List Char) : untabbed ('\t' :: cs) = ' ' :: untabbed cs := rfl

theorem untabbed_cons {c : Char} (other : c ≠ '\t') (cs : List Char) :
    untabbed (c :: cs) = c :: untabbed cs := by
  simp [untabbed, other]

/-- A cluster that has begun and takes no blank in goes on alike with tabs and with blanks. -/
theorem head_untabbed {e : ClusterEnd} (closed : e.last ≠ .prepend) (begun cs : List Char) :
    (clustersAfter begun e (untabbed cs)).head? = (clustersAfter begun e cs).head? := by
  induction cs generalizing begun e with
  | nil => rfl
  | cons c cs ih =>
      by_cases tab : c = '\t'
      · subst tab
        have blank : e.joins (graphemeRole ' ') = false := by
          rw [graphemeRole_blank, ClusterEnd.joins_other]
          simpa using closed
        have ends : e.joins (graphemeRole '\t') = false := by
          rw [graphemeRole_tab, ClusterEnd.joins_control]
        rw [untabbed_cons_tab, clustersAfter_of_not_joins blank, clustersAfter_of_not_joins ends]
        rfl
      rw [untabbed_cons tab]
      cases joins : e.joins (graphemeRole c) with
      | false =>
          rw [clustersAfter_of_not_joins joins, clustersAfter_of_not_joins joins]
          rfl
      | true =>
          rw [clustersAfter_of_joins joins, clustersAfter_of_joins joins]
          refine ih (e := e.push _) ?_ _
          intro prepend
          change graphemeRole c = .prepend at prepend
          rw [prepend, ClusterEnd.joins_prepend closed] at joins
          cases joins

/-- A tab is a cluster of its own. -/
theorem exists_clustersAfter_tab (cs : List Char) :
    ∃ rest, clustersAfter ['\t'] (.start .control) cs = ['\t'] :: rest := by
  cases cs with
  | nil => exact ⟨[], rfl⟩
  | cons c cs => exact ⟨_, clustersAfter_of_not_joins (ClusterEnd.control_joins rfl _) _ _⟩

theorem clusterWidth_blank (cs : List Char) : clusterWidth (' ' :: cs) = 1 := rfl

/-- Behind a cluster that has begun without a tab, every tab adds a column as a blank, except for
those that are shared. -/
def CountsBehind (cs : List Char) : Prop :=
  ∀ (last : Char) (begun : List Char) (e : ClusterEnd), e.last = graphemeRole last →
    '\t' ∉ last :: begun →
      widthOf (clustersAfter (last :: begun) e (untabbed cs)) +
          sharedIn (clustersAfter (last :: begun) e cs) =
        widthOf (clustersAfter (last :: begun) e cs) + cs.count '\t'

/-- The same behind a tab, together with the column of that tab. -/
def CountsBehindTab (cs : List Char) : Prop :=
  widthOf (clustersAfter [' '] (.start .other) (untabbed cs)) +
      sharedIn (clustersAfter ['\t'] (.start .control) cs) =
    widthOf (clustersAfter ['\t'] (.start .control) cs) + (cs.count '\t' + 1)

section Counting

variable {c : Char} {cs : List Char}

theorem CountsBehind.cons (h : CountsBehind cs) (other : c ≠ '\t') : CountsBehind (c :: cs) := by
  intro last begun e ends plain
  rw [untabbed_cons other, List.count_cons_of_ne other]
  cases joins : e.joins (graphemeRole c) with
  | true =>
      rw [clustersAfter_of_joins joins, clustersAfter_of_joins joins]
      refine h c (last :: begun) _ rfl ?_
      simpa [other.symm] using plain
  | false =>
      have rest := h c [] (.start (graphemeRole c)) rfl (by simpa using other.symm)
      rw [clustersAfter_of_not_joins joins, clustersAfter_of_not_joins joins, widthOf_cons,
        widthOf_cons]
      obtain ⟨more, parts, same⟩ := exists_clustersAfter (.start (graphemeRole c)) cs
      rw [same] at rest ⊢
      have apart : shared (last :: begun).reverse ([c].reverse ++ more) = 0 := by
        refine shared_of_ne ?_ (by simp [other])
        intro tab
        exact plain (List.mem_reverse.1 (tab ▸ List.mem_singleton_self _))
      rw [sharedIn_cons, apart]
      omega

theorem CountsBehindTab.open (h : CountsBehindTab cs) : CountsBehind ('\t' :: cs) := by
  intro last begun e ends plain
  have breaks : e.joins (graphemeRole '\t') = false := by
    rw [graphemeRole_tab, ClusterEnd.joins_control]
  have takes : e.joins (graphemeRole ' ') = takesBlank last := by
    rw [graphemeRole_blank, ClusterEnd.joins_other, ends]
    rfl
  have counted : widthOf (clustersAfter [' '] (.start .other) (untabbed cs)) + _ = _ := h
  obtain ⟨rest, tab⟩ := exists_clustersAfter_tab cs
  obtain ⟨more, parts, same⟩ := exists_clustersAfter (.start .other) (untabbed cs)
  rw [untabbed_cons_tab, List.count_cons_self, clustersAfter_of_not_joins breaks, graphemeRole_tab,
    widthOf_cons]
  rw [tab] at counted ⊢
  rw [sharedIn_cons, shared_tab, List.getLast?_reverse, List.head?_cons, Option.any_some]
  cases joins : takesBlank last with
  | true =>
      -- The blank ends the cluster before it, which hides it if it shows a column.
      rw [joins] at takes
      rw [clustersAfter_of_joins takes, graphemeRole_blank, ClusterEnd.push_other]
      rw [same, widthOf_cons] at counted ⊢
      rw [List.reverse_cons, List.append_assoc, clusterWidth_append]
      rw [List.reverse_singleton, List.singleton_append, clusterWidth_blank] at counted
      rw [List.singleton_append, clusterWidth_blank]
      by_cases wide : 0 < clusterWidth (last :: begun).reverse
      · simp only [wide, if_true, and_self]
        omega
      · simp only [wide, if_false, and_false]
        omega
  | false =>
      rw [joins] at takes
      rw [clustersAfter_of_not_joins takes, graphemeRole_blank, widthOf_cons]
      simp only [Bool.false_eq_true, false_and, if_false]
      omega

theorem CountsBehindTab.cons (h : CountsBehindTab cs) : CountsBehindTab ('\t' :: cs) := by
  have blank : (ClusterEnd.start .other).joins (graphemeRole ' ') = false := by
    rw [graphemeRole_blank]
    rfl
  have breaks : (ClusterEnd.start .control).joins (graphemeRole '\t') = false :=
    ClusterEnd.control_joins rfl _
  unfold CountsBehindTab at h ⊢
  obtain ⟨rest, tab⟩ := exists_clustersAfter_tab cs
  rw [untabbed_cons_tab, List.count_cons_self, clustersAfter_of_not_joins blank,
    clustersAfter_of_not_joins breaks, graphemeRole_blank, graphemeRole_tab]
  rw [tab] at h ⊢
  have apart : shared ['\t'].reverse ['\t'] = 0 := by decide
  rw [sharedIn_cons, apart, widthOf_cons, widthOf_cons]
  have one : clusterWidth [' '].reverse = 1 := rfl
  have none : clusterWidth ['\t'].reverse = 0 := rfl
  omega

theorem CountsBehind.tab (h : CountsBehind cs) (other : c ≠ '\t') : CountsBehindTab (c :: cs) := by
  have rest := h c [] (.start (graphemeRole c)) rfl (by simpa using other.symm)
  have breaks : (ClusterEnd.start .control).joins (graphemeRole c) = false :=
    ClusterEnd.control_joins rfl _
  have follows : (ClusterEnd.start .other).joins (graphemeRole c) = followsBlank c :=
    ClusterEnd.other_joins _
  have none : clusterWidth ['\t'].reverse = 0 := rfl
  unfold CountsBehindTab
  rw [untabbed_cons other, List.count_cons_of_ne other, clustersAfter_of_not_joins breaks,
    widthOf_cons, none]
  obtain ⟨more, parts, same⟩ := exists_clustersAfter (.start (graphemeRole c)) cs
  cases joins : followsBlank c with
  | true =>
      -- The cluster of the blank goes on with the one behind it.
      rw [joins] at follows
      rw [clustersAfter_of_joins follows, ClusterEnd.other_push]
      have closed : (ClusterEnd.start (graphemeRole c)).last ≠ .prepend := by
        intro prepend
        change graphemeRole c = .prepend at prepend
        rw [prepend] at follows
        cases follows
      have alike := head_untabbed closed [c] cs
      obtain ⟨more', parts', same'⟩ := exists_clustersAfter (.start (graphemeRole c)) (untabbed cs)
      rw [same, same'] at rest alike
      rw [same, same', sharedIn_cons]
      simp only [List.reverse_cons, List.reverse_nil, List.nil_append, List.cons_append,
        List.head?_cons, widthOf_cons, clusterWidth_blank, Option.some.injEq, tab_shared, joins,
        if_true] at rest alike ⊢
      rw [alike] at rest
      omega
  | false =>
      rw [joins] at follows
      have one : clusterWidth [' '].reverse = 1 := rfl
      rw [clustersAfter_of_not_joins follows, widthOf_cons, one]
      rw [same] at rest ⊢
      rw [sharedIn_cons, List.reverse_singleton, List.reverse_singleton, List.singleton_append,
        tab_shared, joins]
      simp only [Bool.false_eq_true, if_false, List.reverse_singleton,
        List.singleton_append] at rest ⊢
      omega

theorem counts (cs : List Char) : CountsBehind cs ∧ CountsBehindTab cs := by
  induction cs with
  | nil => exact ⟨fun last begun e _ _ => rfl, rfl⟩
  | cons c cs ih =>
      by_cases tab : c = '\t'
      · subst tab
        exact ⟨ih.2.open, ih.2.cons⟩
      · exact ⟨ih.1.cons tab, ih.1.tab tab⟩

end Counting

/-- Shown with blanks in place of their tabs, characters take a column more for every tab, except
for the columns that the blanks share with the clusters beside them. -/
theorem screenWidth_untabbed (cs : List Char) :
    screenWidth (untabbed cs) + sharedIn (clusters cs) = screenWidth cs + cs.count '\t' := by
  cases cs with
  | nil => rfl
  | cons c cs =>
      rw [screenWidth_eq, screenWidth_eq]
      by_cases tab : c = '\t'
      · subst tab
        rw [untabbed_cons_tab, clusters_cons, clusters_cons, graphemeRole_blank, graphemeRole_tab,
          List.count_cons_self]
        exact (counts cs).2
      · rw [untabbed_cons tab, clusters_cons, clusters_cons, List.count_cons_of_ne tab]
        exact (counts cs).1 c [] _ rfl (by simpa using Ne.symm tab)

end PrgScript.Text

/-
# A test outcome is an exact patch

A check walks through the expected lines and those of an output side by side and keeps a mismatch
wherever they differ, up to the end of the longer list.  What it keeps is enough to get the
output back: the expected lines, with each mismatch written over the line of its number.  So a
check can neither leave out a difference nor report one that is not there, and a test passes only
where all lines are the expected ones.

* `Between`: what a mismatch between two lists of lines is, line by line;
* `mem_compareFrom`: the mismatches that are kept are those, all of them;
* `patchFrom_compareFrom`: written over the expected lines they give the output;
* `check_exact`: a test outcome is an exact patch.
-/
import FrontEnd.Proofs.ComparedLines

namespace FrontEnd

/-! ## 1. What a check keeps -/

/-- Two lists of lines differ at the line of the mismatch, the first line having the number `line`,
and the sides of the mismatch are what they have there. -/
structure LineMismatch.Between (line : Nat) (expected actual : List String) (m : LineMismatch) :
    Prop where
  le_line : line ≤ m.line
  expected_eq : m.expected = expected[m.line - line]?
  actual_eq : m.actual = actual[m.line - line]?
  ne : m.expected ≠ m.actual

/-- A mismatch is that of the first lines, or one of the lines after them. -/
theorem LineMismatch.between_iff {line : Nat} {expected actual : List String} {m : LineMismatch} :
    m.Between line expected actual ↔
      (m = ⟨line, expected.head?, actual.head?⟩ ∧ expected.head? ≠ actual.head?) ∨
        m.Between (line + 1) expected.tail actual.tail := by
  have hindex : line + 1 ≤ m.line → m.line - (line + 1) + 1 = m.line - line := by omega
  constructor
  · intro h
    -- the mismatch is on the first line, or on one after it
    rcases Nat.eq_or_lt_of_le h.le_line with rfl | hlt
    · have hexpected := h.expected_eq
      have hactual := h.actual_eq
      rw [Nat.sub_self, ← List.head?_eq_getElem?] at hexpected hactual
      rw [← hexpected, ← hactual]
      exact .inl ⟨rfl, h.ne⟩
    · refine .inr ⟨hlt, ?_, ?_, h.ne⟩
      · rw [List.getElem?_tail, hindex hlt, h.expected_eq]
      · rw [List.getElem?_tail, hindex hlt, h.actual_eq]
  · rintro (⟨rfl, hne⟩ | h)
    · refine ⟨Nat.le_refl line, ?_, ?_, hne⟩
      · show expected.head? = expected[line - line]?
        rw [Nat.sub_self, List.head?_eq_getElem?]
      · show actual.head? = actual[line - line]?
        rw [Nat.sub_self, List.head?_eq_getElem?]
    · refine ⟨Nat.le_of_succ_le h.le_line, ?_, ?_, h.ne⟩
      · rw [h.expected_eq, List.getElem?_tail, hindex h.le_line]
      · rw [h.actual_eq, List.getElem?_tail, hindex h.le_line]

namespace Expectations

/-- **The mismatches that are kept are those between the lists**, all of them. -/
theorem mem_compareFrom {line : Nat} {expected actual : List String} {m : LineMismatch} :
    m ∈ compareFrom line expected actual ↔ m.Between line expected actual := by
  fun_induction compareFrom line expected actual with
  | case1 line =>
    refine iff_of_false List.not_mem_nil fun h => h.ne ?_
    rw [h.expected_eq, h.actual_eq]
  | case2 line e expected ih =>
    rw [LineMismatch.between_iff, List.mem_cons, ih]
    simp
  | case3 line a actual ih =>
    rw [LineMismatch.between_iff, List.mem_cons, ih]
    simp
  | case4 line e expected actual ih =>
    rw [LineMismatch.between_iff, ih]
    simp
  | case5 line e expected a actual hne ih =>
    rw [LineMismatch.between_iff, List.mem_cons, ih]
    simp [hne]

/-- They are kept in the order of the lines, at most one for each. -/
theorem pairwise_compareFrom (line : Nat) (expected actual : List String) :
    (compareFrom line expected actual).Pairwise fun m m' => m.line < m'.line := by
  fun_induction compareFrom line expected actual with
  | case1 => exact .nil
  | case2 line e expected ih =>
    exact List.pairwise_cons.mpr ⟨fun m hm => (mem_compareFrom.mp hm).le_line, ih⟩
  | case3 line a actual ih =>
    exact List.pairwise_cons.mpr ⟨fun m hm => (mem_compareFrom.mp hm).le_line, ih⟩
  | case4 line e expected actual ih => exact ih
  | case5 line e expected a actual _ ih =>
    exact List.pairwise_cons.mpr ⟨fun m hm => (mem_compareFrom.mp hm).le_line, ih⟩

end Expectations

/-! ## 2. Writing mismatches over lines -/

namespace LineMismatch

/-- What becomes of a line with its number: the actual side of the mismatch with that number, which
may be that there is none, and the line itself where no mismatch has the number. -/
def overwrite (ms : List LineMismatch) (numbered : String × Nat) : Option String :=
  match ms.find? fun m => m.line == numbered.2 with
  | some m => m.actual
  | none => some numbered.1

/-- The line that a mismatch adds: its actual side, if it has no expected one. -/
def added? (m : LineMismatch) : Option String :=
  match m.expected with
  | some _ => none
  | none => m.actual

/-- The mismatches written over the lines, the first of which has the number `line`, and the lines
that they add behind them. -/
def patchFrom (line : Nat) (lines : List String) (ms : List LineMismatch) : List String :=
  (lines.zipIdx line).filterMap (overwrite ms) ++ ms.filterMap added?

theorem overwrite_eq_some {ms : List LineMismatch} {line : Nat}
    (h : ∀ m ∈ ms, line < m.line) (text : String) : overwrite ms (text, line) = some text := by
  have hnone : ms.find? (fun m => m.line == line) = none :=
    List.find?_eq_none.mpr fun m hm => by simpa using Nat.ne_of_gt (h m hm)
  rw [overwrite, hnone]

/-- A mismatch at an earlier line changes nothing. -/
theorem filterMap_overwrite_cons {m : LineMismatch} {line : Nat} (h : m.line < line)
    (lines : List String) (ms : List LineMismatch) :
    (lines.zipIdx line).filterMap (overwrite (m :: ms)) =
      (lines.zipIdx line).filterMap (overwrite ms) := by
  refine List.filterMap_congr fun p hp => ?_
  have hline : line ≤ p.2 := List.le_snd_of_mem_zipIdx hp
  have hne : (m.line == p.2) = false := by simpa using Nat.ne_of_lt (Nat.lt_of_lt_of_le h hline)
  rw [overwrite, List.find?_cons_of_neg (by simp [hne]), overwrite]

/-- A line without a mismatch stays. -/
theorem patchFrom_cons {ms : List LineMismatch} {line : Nat} (h : ∀ m ∈ ms, line < m.line)
    (text : String) (lines : List String) :
    patchFrom line (text :: lines) ms = text :: patchFrom (line + 1) lines ms := by
  rw [patchFrom, List.zipIdx_cons, List.filterMap_cons_some (overwrite_eq_some h text)]
  rfl

theorem patchFrom_nil (line : Nat) (lines : List String) : patchFrom line lines [] = lines := by
  induction lines generalizing line with
  | nil => rfl
  | cons text lines ih => rw [patchFrom_cons (by simp), ih]

/-- A line with a mismatch becomes its actual side. -/
theorem patchFrom_cons_cons (line : Nat) (text expected : String) (actual : Option String)
    (lines : List String) (ms : List LineMismatch) :
    patchFrom line (text :: lines) (⟨line, some expected, actual⟩ :: ms) =
      actual.toList ++ patchFrom (line + 1) lines ms := by
  have hfirst : overwrite (⟨line, some expected, actual⟩ :: ms) (text, line) = actual := by
    rw [overwrite, List.find?_cons_of_pos (by simp)]
  have hrest : (lines.zipIdx (line + 1)).filterMap
      (overwrite (⟨line, some expected, actual⟩ :: ms)) =
        (lines.zipIdx (line + 1)).filterMap (overwrite ms) :=
    filterMap_overwrite_cons (Nat.lt_succ_self line) lines ms
  rw [patchFrom, List.zipIdx_cons, List.filterMap_cons, hfirst, hrest, patchFrom,
    List.filterMap_cons_none rfl]
  cases actual <;> rfl

/-- Behind the lines, a mismatch adds its actual side. -/
theorem patchFrom_nil_cons (line number : Nat) (actual : String) (ms : List LineMismatch) :
    patchFrom line [] (⟨number, none, some actual⟩ :: ms) =
      actual :: patchFrom (line + 1) [] ms := rfl

end LineMismatch

/-! ## 3. Outcomes -/

/-- The mismatches of an outcome written over lines. -/
def TestOutcome.patch (o : TestOutcome) (lines : List String) : List String :=
  LineMismatch.patchFrom 1 lines o.mismatches

namespace Expectations

open LineMismatch (patchFrom)
open Text (TrimmedLines)

/-- **The mismatches written over the expected lines give the lines of the output.** -/
theorem patchFrom_compareFrom (line : Nat) (expected actual : List String) :
    patchFrom line expected (compareFrom line expected actual) = actual := by
  fun_induction compareFrom line expected actual with
  | case1 => rfl
  | case2 line e expected ih =>
    rw [LineMismatch.patchFrom_cons_cons, ih]
    rfl
  | case3 line a actual ih => rw [LineMismatch.patchFrom_nil_cons, ih]
  | case4 line e expected actual ih =>
    rw [LineMismatch.patchFrom_cons fun m hm => (mem_compareFrom.mp hm).le_line, ih]
  | case5 line e expected a actual _ ih =>
    rw [LineMismatch.patchFrom_cons_cons, ih]
    rfl

/-- **A test passes only where all lines are the expected ones.**  Without mismatches the expected
lines stay as they are, and they become those of the output. -/
theorem passed_check_iff {e : Expectations} {output : String} :
    (e.check output).passed = true ↔ e.lines = actualLines output := by
  rw [TestOutcome.passed, List.isEmpty_iff]
  constructor
  · intro hnone
    have hpatch : patchFrom 1 e.lines (e.check output).mismatches = actualLines output :=
      patchFrom_compareFrom 1 e.lines (actualLines output)
    rwa [hnone, LineMismatch.patchFrom_nil] at hpatch
  · intro heq
    rw [check, heq, compareFrom_self]

/-- **A test outcome is an exact patch.**  The expected lines are those that the lines of the source
with the marker ask for, and an output is compared by its lines without the blanks at their ends.
A mismatch is one of the outcome exactly if its sides differ and are what the expected lines and
those of the output have at its number, where either may have no line; the numbers increase
strictly.  The mismatches written over the expected lines give the lines of the output, so a test
passes if and only if these are the expected lines.  And no expected line holds a line feed or
ends in a blank. -/
theorem check_exact (source output : String) :
    let e := ofSource source
    let outcome := e.check output
    (∀ lines, AskedLines source lines ↔ lines = e.lines) ∧
    (∀ lines, TrimmedLines output lines ↔ lines = actualLines output) ∧
    (∀ m, m ∈ outcome.mismatches ↔ m.Between 1 e.lines (actualLines output)) ∧
    outcome.mismatches.Pairwise (fun m m' => m.line < m'.line) ∧
    outcome.patch e.lines = actualLines output ∧
    (outcome.passed = true ↔ e.lines = actualLines output) ∧
    ∀ line ∈ e.lines, '\n' ∉ line.toList ∧
      ∀ c, line.toList.getLast? = some c → Text.isBlank c = false := by
  intro e outcome
  exact ⟨fun lines => askedLines_iff, fun lines => trimmedLines_iff, fun m => mem_compareFrom,
    pairwise_compareFrom 1 _ _, patchFrom_compareFrom 1 _ _, passed_check_iff,
    fun line => clean_of_mem_ofSource⟩

end Expectations
end FrontEnd

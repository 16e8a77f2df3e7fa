/-
# Lines and columns are coordinates

A line table is told where lines start, and a start that is not after the last one is refused.
An offset is looked up by parting the starts: the ones that are not after the offset come first.
How many these are, less one, is the index of a line, and the offset less the start of that line,
and one more, is the column.  Nothing in this checks that the starts are in order, that the two
subtractions do not go below zero, or that the index is one of the table.  All of it rests on the
first start being 0 and on the starts increasing, whatever was pushed and refused before.

The sum at the end rests on nothing: the greatest offset, on a line that starts at 0, has a column
that is not a number of the machine.  It is the only offset for which the lookup fails.

* `Increasing.pushAll`: the starts increase after any pushes;
* `Coordinates`: what a line and a column say of an offset, in terms of the starts alone;
* `Coordinates.line_le`: a later offset is on no earlier line, which gives uniqueness and order;
* `Parting.lookUp?_eq_some`: the lookup by index, with every step of it checked;
* `coordinateSystem_pushAll`: after any pushes, what is looked up are coordinates;
* `not_forall_lineCol_ok`: not every offset of the machine can be looked up.
-/
import FrontEnd.LineTable
import Mathlib.Data.List.TakeWhile
import Mathlib.Data.Nat.PSub
import Mathlib.Data.Prod.Lex
import Mathlib.Order.Monotone.Defs

namespace FrontEnd
namespace LineTable

/-! ## 1. Pushes -/

/-- The line starts increase strictly. -/
def Increasing (t : LineTable) : Prop := t.starts.Pairwise (· < ·)

@[simp] theorem head?_starts (t : LineTable) : t.starts.head? = some 0 := rfl

@[simp] theorem getLast?_starts (t : LineTable) : t.starts.getLast? = some t.lastStart := by
  rw [starts, List.getLast?_cons, List.getLast?_reverse, lastStart]

theorem push?_of_lt {t : LineTable} {offset : Nat} (h : t.lastStart < offset) :
    t.push? offset = some ⟨offset :: t.later⟩ := if_pos h

/-- A refused push leaves the table as it was. -/
theorem push_of_le {t : LineTable} {offset : Nat} (h : offset ≤ t.lastStart) :
    t.push offset = t := by
  rw [push, push?_eq_none_iff.mpr h, Option.getD_none]

theorem push_of_lt {t : LineTable} {offset : Nat} (h : t.lastStart < offset) :
    t.push offset = ⟨offset :: t.later⟩ := by
  rw [push, push?_of_lt h, Option.getD_some]

/-- An accepted push adds its offset behind the other starts. -/
theorem starts_push {t : LineTable} {offset : Nat} (h : t.lastStart < offset) :
    (t.push offset).starts = t.starts ++ [offset] := by
  rw [push_of_lt h, starts, starts, List.reverse_cons, List.cons_append]

theorem increasing_empty : empty.Increasing := List.pairwise_singleton _ _

/-- The last start is the greatest. -/
theorem Increasing.le_lastStart {t : LineTable} (h : t.Increasing) {start : Nat}
    (hs : start ∈ t.starts) : start ≤ t.lastStart := by
  obtain ⟨others, hstarts⟩ := List.getLast?_eq_some_iff.mp t.getLast?_starts
  rw [Increasing, hstarts, List.pairwise_append] at h
  rw [hstarts] at hs
  rcases List.mem_append.mp hs with hs | hs
  · exact Nat.le_of_lt (h.2.2 start hs _ (List.mem_singleton_self _))
  · exact Nat.le_of_eq (List.mem_singleton.mp hs)

/-- **A step.**  A push keeps the starts increasing, accepted or refused. -/
theorem Increasing.push {t : LineTable} (h : t.Increasing) (offset : Nat) :
    (t.push offset).Increasing := by
  rcases Nat.lt_or_ge t.lastStart offset with hlt | hle
  · rw [Increasing, starts_push hlt, List.pairwise_append]
    refine ⟨h, List.pairwise_singleton _ _, fun start hs next hn => ?_⟩
    rw [List.mem_singleton.mp hn]
    exact Nat.lt_of_le_of_lt (h.le_lastStart hs) hlt
  · rwa [push_of_le hle]

/-- **A run.**  So does any sequence of pushes. -/
theorem Increasing.pushAll {t : LineTable} (h : t.Increasing) (offsets : List Nat) :
    (t.pushAll offsets).Increasing := by
  induction offsets generalizing t with
  | nil => exact h
  | cons offset offsets ih => exact ih (h.push offset)

/-! ## 2. Coordinates -/

/-- A line and a column are those of an offset: the column counts from the start of the line,
and the next line, if there is one, starts after the offset. -/
structure Coordinates (starts : List Nat) (offset : Nat) (p : Nat × Nat) : Prop where
  one_le_line : 1 ≤ p.1
  one_le_column : 1 ≤ p.2
  reaches : ∃ start, starts[p.1 - 1]? = some start ∧ start + (p.2 - 1) = offset
  before_next : ∀ next, starts[p.1]? = some next → offset < next

namespace Coordinates

variable {starts : List Nat} {a b : Nat} {p q : Nat × Nat}

/-- **A later offset is on no earlier line.**  Otherwise the line after the later offset's own
would start after it, and no later than the line of the earlier offset. -/
theorem line_le (h : starts.Pairwise (· < ·)) (hp : Coordinates starts a p)
    (hq : Coordinates starts b q) (hab : a ≤ b) : p.1 ≤ q.1 := by
  by_contra hlt
  obtain ⟨start, hstart, hoffset⟩ := hp.reaches
  obtain ⟨hlength, rfl⟩ := List.getElem?_eq_some_iff.mp hstart
  have hnext : q.1 < starts.length := by omega
  have hafter : b < starts[q.1] := hq.before_next _ (List.getElem?_eq_getElem hnext)
  have hle : starts[q.1] ≤ starts[p.1 - 1] := by
    rcases Nat.lt_or_eq_of_le (show q.1 ≤ p.1 - 1 by omega) with hindex | hindex
    · exact Nat.le_of_lt (List.pairwise_iff_getElem.mp h _ _ hnext hlength hindex)
    · simp only [hindex, Nat.le_refl]
  omega

/-- On one line, columns are as far apart as the offsets. -/
theorem column_add (hp : Coordinates starts a p) (hq : Coordinates starts b q)
    (hline : p.1 = q.1) : a + q.2 = b + p.2 := by
  obtain ⟨start, hstart, ha⟩ := hp.reaches
  obtain ⟨start', hstart', hb⟩ := hq.reaches
  rw [hline] at hstart
  obtain rfl : start = start' := Option.some.inj (hstart.symm.trans hstart')
  have hcolumn := hp.one_le_column
  have hcolumn' := hq.one_le_column
  omega

/-- Coordinates are those of one offset only. -/
theorem offset_eq (hp : Coordinates starts a p) (hq : Coordinates starts b p) : a = b :=
  Nat.add_right_cancel (column_add hp hq rfl)

/-- **An offset has one pair of coordinates.** -/
theorem unique (h : starts.Pairwise (· < ·)) (hp : Coordinates starts a p)
    (hq : Coordinates starts a q) : p = q := by
  have hline : p.1 = q.1 :=
    Nat.le_antisymm (line_le h hp hq (Nat.le_refl a)) (line_le h hq hp (Nat.le_refl a))
  have hcolumn := column_add hp hq hline
  exact Prod.ext hline (by omega)

/-- **Coordinates are ordered as the offsets are**, by the line and then by the column. -/
theorem lex_lt (h : starts.Pairwise (· < ·)) (hp : Coordinates starts a p)
    (hq : Coordinates starts b q) (hab : a < b) : toLex p < toLex q := by
  rw [Prod.Lex.toLex_lt_toLex]
  rcases Nat.lt_or_eq_of_le (line_le h hp hq (Nat.le_of_lt hab)) with hline | hline
  · exact .inl hline
  · have hcolumn := column_add hp hq hline
    exact .inr ⟨hline, by omega⟩

/-- A start behind the others leaves the coordinates of the offsets before it. -/
theorem snoc (hp : Coordinates starts a p) {start : Nat} (ha : a < start) :
    Coordinates (starts ++ [start]) a p := by
  obtain ⟨first, hfirst, hoffset⟩ := hp.reaches
  refine ⟨hp.one_le_line, hp.one_le_column, ⟨first, ?_, hoffset⟩, fun next hnext => ?_⟩
  · rw [List.getElem?_append_left (List.getElem?_eq_some_iff.mp hfirst).1, hfirst]
  · rcases Nat.lt_or_ge p.1 starts.length with hlt | hge
    · rw [List.getElem?_append_left hlt] at hnext
      exact hp.before_next next hnext
    · rw [List.getElem?_append_right hge] at hnext
      obtain rfl := List.mem_singleton.mp (List.mem_of_getElem? hnext)
      exact ha

/-- The column counts from the last start that is not after the offset. -/
theorem of_append {before after : List Nat} {start : Nat} (hle : start ≤ a)
    (hafter : ∀ next ∈ after, a < next) :
    Coordinates (before ++ start :: after) a (before.length + 1, a - start + 1) := by
  refine ⟨Nat.succ_pos _, Nat.succ_pos _, ⟨start, ?_, Nat.add_sub_of_le hle⟩, fun next hn => ?_⟩
  · simp
  · rw [List.getElem?_append_right (Nat.le_succ before.length)] at hn
    have hnext : after[0]? = some next := by simpa using hn
    exact hafter next (List.mem_of_getElem? hnext)

end Coordinates

/-- **The line of an offset and the distance from its start are coordinates**, for any table.  The
starts after the offset are passed over, and the last of them is that of the next line. -/
theorem coordinates_lineAt (t : LineTable) (offset : Nat) :
    Coordinates t.starts offset ((t.lineAt offset).1, offset - (t.lineAt offset).2 + 1) := by
  let after := t.later.takeWhile fun start => decide (offset < start)
  have hafter : ∀ next ∈ after.reverse, offset < next := fun next hn => by
    simpa using List.mem_takeWhile_imp (List.mem_reverse.mp hn)
  have hlater : t.later = after ++ t.later.dropWhile fun start => decide (offset < start) :=
    List.takeWhile_append_dropWhile.symm
  unfold lineAt
  split
  · rename_i hdrop
    have hstarts : t.starts = [] ++ 0 :: after.reverse := by
      rw [starts, hlater, hdrop, List.append_nil, List.nil_append]
    rw [hstarts]
    exact .of_append (Nat.zero_le offset) hafter
  · rename_i start before hdrop
    have hle : start ≤ offset := by
      have hhead := List.head?_dropWhile_not (fun start => decide (offset < start)) t.later
      rw [hdrop] at hhead
      simpa using hhead
    have hstarts : t.starts = (0 :: before.reverse) ++ start :: after.reverse := by
      rw [starts, hlater, hdrop]
      simp
    have hcoordinates : Coordinates t.starts offset
        ((0 :: before.reverse).length + 1, offset - start + 1) := by
      rw [hstarts]
      exact .of_append hle hafter
    simpa using hcoordinates

/-- The coordinates of an offset count from the start of its line, and no others do. -/
theorem Increasing.coordinates_iff {t : LineTable} (h : t.Increasing) {offset : Nat}
    {p : Nat × Nat} : Coordinates t.starts offset p ↔
      p = ((t.lineAt offset).1, offset - (t.lineAt offset).2 + 1) := by
  constructor
  · intro hp
    exact hp.unique h (t.coordinates_lineAt offset)
  · rintro rfl
    exact t.coordinates_lineAt offset

/-- **The lookup answers the coordinates**, if the column is a number of the machine. -/
theorem Increasing.lineCol_of_coordinates {t : LineTable} (h : t.Increasing) {offset : Nat}
    {p : Nat × Nat} (hp : Coordinates t.starts offset p) :
    t.lineCol offset = (Machine.add (p.2 - 1) 1).map fun column => (p.1, column) := by
  rw [h.coordinates_iff.mp hp]
  rfl

theorem Increasing.lineCol_eq_ok {t : LineTable} (h : t.Increasing) {offset : Nat}
    {p : Nat × Nat} : t.lineCol offset = .ok p ↔
      Coordinates t.starts offset p ∧ p.2 ≤ Machine.greatest := by
  rw [h.coordinates_iff, lineCol_eq_ok_iff, and_comm]
  refine and_congr_right ?_
  rintro rfl
  rfl

/-- **The lookup fails for the greatest offset alone**, and only if it is on the first line. -/
theorem Increasing.lineCol_eq_error {t : LineTable} (h : t.Increasing) {offset : Nat}
    (hoffset : offset ≤ Machine.greatest) {e : Panic} : t.lineCol offset = .error e ↔
      e = .overflow ∧ offset = Machine.greatest ∧
        Coordinates t.starts offset (1, Machine.greatest + 1) := by
  have hlookup := t.coordinates_lineAt offset
  constructor
  · intro he
    have hfar : Machine.greatest ≤ offset - (t.lineAt offset).2 := by
      by_contra hlt
      rw [lineCol_of_lt (Nat.lt_of_not_le hlt)] at he
      cases he
    rw [lineCol_of_le hfar] at he
    obtain ⟨start, hstart, hreach⟩ := hlookup.reaches
    obtain rfl : start = 0 := by omega
    have hfirst : t.starts[(t.lineAt offset).1 - 1]? = t.starts[0]? := hstart
    have hline : (t.lineAt offset).1 - 1 = 0 :=
      (List.getElem?_inj (List.getElem?_eq_some_iff.mp hstart).1 (h.imp Nat.ne_of_lt)).mp hfirst
    have hone := hlookup.one_le_line
    have hpair : (1, Machine.greatest + 1) =
        ((t.lineAt offset).1, offset - (t.lineAt offset).2 + 1) := by
      refine Prod.ext ?_ ?_ <;> simp only <;> omega
    exact ⟨(Except.error.inj he).symm, by omega, hpair ▸ hlookup⟩
  · rintro ⟨rfl, -, hp⟩
    have hpair := h.coordinates_iff.mp hp
    exact lineCol_of_le (Nat.le_of_succ_le_succ (Nat.le_of_eq (congrArg Prod.snd hpair)))

/-! ## 3. Looking up by index -/

/-- The first `n` starts are those that are not after the offset. -/
structure Parting (starts : List Nat) (offset n : Nat) : Prop where
  le_length : n ≤ starts.length
  before : ∀ start ∈ starts.take n, start ≤ offset
  after : ∀ start ∈ starts.drop n, offset < start

/-- The lookup where the first `n` starts are not after the offset (`line_col`).  It gives nothing
where a subtraction would go below zero, and where the table has no start at the index. -/
def lookUp? (starts : List Nat) (n offset : Nat) : Option (Except Panic (Nat × Nat)) := do
  let index ← n.psub 1
  let start ← starts[index]?
  let distance ← offset.psub start
  return (Machine.add distance 1).map fun column => (index + 1, column)

/-- Where starts increase, they are parted at each offset. -/
theorem Coordinates.parting {starts : List Nat} {offset : Nat} {p : Nat × Nat}
    (h : starts.Pairwise (· < ·)) (hp : Coordinates starts offset p) :
    Parting starts offset p.1 := by
  obtain ⟨first, hfirst, hoffset⟩ := hp.reaches
  obtain ⟨hlength, rfl⟩ := List.getElem?_eq_some_iff.mp hfirst
  have hline := hp.one_le_line
  have hincrease := List.pairwise_iff_getElem.mp h
  refine ⟨by omega, fun start hs => ?_, fun start hs => ?_⟩
  · obtain ⟨i, hi, rfl⟩ := List.mem_take_iff_getElem.mp hs
    rcases Nat.lt_or_eq_of_le (show i ≤ p.1 - 1 by omega) with hlt | rfl
    · have := hincrease i (p.1 - 1) (by omega) hlength hlt
      omega
    · omega
  · obtain ⟨i, hi, rfl⟩ := List.mem_drop_iff_getElem.mp hs
    have hnext : p.1 < starts.length := by omega
    have hafter := hp.before_next _ (List.getElem?_eq_getElem hnext)
    rcases Nat.eq_zero_or_pos i with rfl | hpos
    · exact hafter
    · exact Nat.lt_trans hafter (hincrease p.1 (p.1 + i) hnext (by omega) (by omega))

/-- **The subtractions and the index of the lookup do not fail**, and it counts from coordinates.
The first start is not after any offset, so it is among the first `n`, and so is the start at the
index. -/
theorem Parting.lookUp?_eq_some {starts : List Nat} {offset n : Nat}
    (hzero : starts.head? = some 0) (h : Parting starts offset n) :
    ∃ p, Coordinates starts offset p ∧
      lookUp? starts n offset = some ((Machine.add (p.2 - 1) 1).map fun column => (p.1, column)) := by
  have hpos : 1 ≤ n := by
    by_contra hn
    obtain rfl : n = 0 := by omega
    have hfirst : 0 ∈ starts.drop 0 := List.mem_of_mem_head? hzero
    exact absurd (h.after 0 hfirst) (Nat.not_lt_zero offset)
  have hlength := h.le_length
  have hindex : n - 1 < starts.length := by omega
  have hle : starts[n - 1] ≤ offset :=
    h.before _ (List.mem_take_iff_getElem.mpr ⟨n - 1, by omega, rfl⟩)
  refine ⟨(n - 1 + 1, offset - starts[n - 1] + 1), ?_, ?_⟩
  · refine ⟨Nat.succ_pos _, Nat.succ_pos _, ⟨_, List.getElem?_eq_getElem hindex, ?_⟩, ?_⟩
    · exact Nat.add_sub_of_le hle
    · intro next hnext
      have hline : n - 1 + 1 = n := Nat.sub_add_cancel hpos
      rw [hline] at hnext
      obtain ⟨hn, rfl⟩ := List.getElem?_eq_some_iff.mp hnext
      exact h.after _ (List.mem_drop_iff_getElem.mpr ⟨0, by omega, rfl⟩)
  · simp only [lookUp?, Nat.psub_eq_sub hpos, Nat.psub_eq_sub hle, Option.bind_eq_bind,
      Option.bind_some, List.getElem?_eq_getElem hindex, Nat.add_sub_cancel]
    rfl

/-! ## 4. Coordinates after any pushes -/

/-- **A step.**  A push leaves the coordinates of the offsets before it. -/
theorem Increasing.lineCol_push {t : LineTable} (h : t.Increasing) {offset start : Nat}
    (hs : offset < start) : (t.push start).lineCol offset = t.lineCol offset := by
  rcases Nat.lt_or_ge t.lastStart start with hlt | hle
  · have hlookup := t.coordinates_lineAt offset
    have hkept := hlookup.snoc hs
    rw [← starts_push hlt] at hkept
    rw [h.lineCol_of_coordinates hlookup, (h.push start).lineCol_of_coordinates hkept]
  · rw [push_of_le hle]

/-- **A run.**  Pushes that all come after an offset leave its coordinates. -/
theorem Increasing.lineCol_pushAll {t : LineTable} (h : t.Increasing) {offset : Nat}
    {offsets : List Nat} (hs : ∀ start ∈ offsets, offset < start) :
    (t.pushAll offsets).lineCol offset = t.lineCol offset := by
  induction offsets generalizing t with
  | nil => rfl
  | cons start offsets ih =>
    have hrest : ((t.push start).pushAll offsets).lineCol offset = (t.push start).lineCol offset :=
      ih (h.push start) fun s hm => hs s (List.mem_cons_of_mem _ hm)
    exact hrest.trans (h.lineCol_push (hs start List.mem_cons_self))

/-- The lines and columns of a table are coordinates of the offsets, and the lookup tells them
wherever they are numbers of the machine. -/
structure CoordinateSystem (t : LineTable) : Prop where
  head : t.starts.head? = some 0
  increasing : t.starts.Pairwise (· < ·)
  last : t.starts.getLast? = some t.lastStart
  /-- A start that is not after the last one is refused, and the table stays as it was. -/
  refused : ∀ start, start ≤ t.lastStart → t.push? start = none ∧ t.push start = t
  /-- Any other is added behind the starts. -/
  accepted : ∀ start, t.lastStart < start →
    t.push? start = some (t.push start) ∧ (t.push start).starts = t.starts ++ [start]
  /-- Each offset parts the starts. -/
  parted : ∀ offset, ∃ n, Parting t.starts offset n
  /-- The lookup by index does not go below zero or out of the table at any offset. -/
  found : ∀ offset n, Parting t.starts offset n →
    lookUp? t.starts n offset = some (t.lineCol offset)
  /-- Every offset has coordinates, and no others. -/
  coordinates : ∀ offset, ∃! p, Coordinates t.starts offset p
  /-- The lookup answers them, if the column is a number of the machine. -/
  answered : ∀ offset p, t.lineCol offset = .ok p ↔
    Coordinates t.starts offset p ∧ p.2 ≤ Machine.greatest
  /-- Of the offsets of the machine it fails for the greatest alone, if that is on line 1. -/
  failed : ∀ offset e, offset ≤ Machine.greatest → (t.lineCol offset = .error e ↔
    e = .overflow ∧ offset = Machine.greatest ∧
      Coordinates t.starts offset (1, Machine.greatest + 1))
  injective : ∀ a b, a ≤ Machine.greatest → b ≤ Machine.greatest →
    t.lineCol a = t.lineCol b → a = b
  /-- Coordinates are ordered as the offsets are, by the line and then by the column. -/
  strictMono : ∀ a b p q, t.lineCol a = .ok p → t.lineCol b = .ok q → a < b → toLex p < toLex q
  /-- Later pushes leave the coordinates of the offsets before them. -/
  kept : ∀ offset later, (∀ start ∈ later, offset < start) →
    (t.pushAll later).lineCol offset = t.lineCol offset

/-- Different offsets of the machine are not looked up alike, as the lookup fails for one at the
most. -/
theorem Increasing.lineCol_injective {t : LineTable} (h : t.Increasing) {a b : Nat}
    (ha : a ≤ Machine.greatest) (hb : b ≤ Machine.greatest)
    (hab : t.lineCol a = t.lineCol b) : a = b := by
  cases hlookup : t.lineCol a with
  | ok p =>
    have hp := (h.lineCol_eq_ok.mp hlookup).1
    have hq := (h.lineCol_eq_ok.mp (hab ▸ hlookup)).1
    exact hp.offset_eq hq
  | error e =>
    have hgreatest := ((h.lineCol_eq_error ha).mp hlookup).2.1
    have hgreatest' := ((h.lineCol_eq_error hb).mp (hab ▸ hlookup)).2.1
    exact hgreatest.trans hgreatest'.symm

/-- **Lines and columns are coordinates, whatever was pushed on a new table**, accepted or
refused, and they are told for all offsets of the machine but one at the most. -/
theorem coordinateSystem_pushAll (offsets : List Nat) :
    (empty.pushAll offsets).CoordinateSystem := by
  -- refused pushes change nothing, so that the starts increase after any of them
  have hincrease : (empty.pushAll offsets).Increasing := increasing_empty.pushAll offsets
  generalize empty.pushAll offsets = t at hincrease
  have hlookup := t.coordinates_lineAt
  exact {
    head := t.head?_starts
    increasing := hincrease
    last := t.getLast?_starts
    refused := fun start hle => ⟨push?_eq_none_iff.mpr hle, push_of_le hle⟩
    accepted := fun start hlt => ⟨by rw [push_of_lt hlt, push?_of_lt hlt], starts_push hlt⟩
    parted := fun offset => ⟨_, (hlookup offset).parting hincrease⟩
    found := by
      intro offset n hn
      obtain ⟨p, hcoordinates, hp⟩ := hn.lookUp?_eq_some t.head?_starts
      rw [hp, hincrease.lineCol_of_coordinates hcoordinates]
    coordinates := fun offset => ⟨_, hlookup offset, fun p hp => hp.unique hincrease (hlookup offset)⟩
    answered := fun offset p => hincrease.lineCol_eq_ok
    failed := fun offset e hoffset => hincrease.lineCol_eq_error hoffset
    injective := fun a b ha hb => hincrease.lineCol_injective ha hb
    strictMono := fun a b p q hp hq hab => (hincrease.lineCol_eq_ok.mp hp).1.lex_lt hincrease
      (hincrease.lineCol_eq_ok.mp hq).1 hab
    kept := fun offset later => hincrease.lineCol_pushAll }

/-- **Not every offset can be looked up.**  The greatest has no column on a new table. -/
theorem not_forall_lineCol_ok : ¬ ∀ (offsets : List Nat) (offset : Nat),
    offset ≤ Machine.greatest → ∃ p, (empty.pushAll offsets).lineCol offset = .ok p ∧
      Coordinates (empty.pushAll offsets).starts offset p := by
  intro h
  obtain ⟨p, hp, -⟩ := h [] Machine.greatest (Nat.le_refl _)
  have hfails : (empty.pushAll []).lineCol Machine.greatest = .error .overflow :=
    lineCol_of_le (Nat.le_refl _)
  rw [hfails] at hp
  cases hp

end LineTable
end FrontEnd

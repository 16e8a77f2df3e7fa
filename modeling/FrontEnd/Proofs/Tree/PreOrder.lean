/-
# Pre-order

What is meant by going through a forest in pre-order, each thing once, is said here without any
recursion over the forest.  A place is a path: which of the roots, which of what is directly below
it, and so on.  A list of things with their places is a pre-order of the forest if it has exactly
the places that lead somewhere, with what they lead to, and if the places increase strictly in the
order of a dictionary: a place comes before those that go on from it, and those that go through
one branch come before those that go through a later one.

Forests are given by their roots and by `below`, which says what is directly below a thing.  So
the same notions serve what a walk visits and what a printer prints.

* `PreOrder`: a list is a pre-order of a forest;
* `Visits.preOrder`: going through the roots one by one, and below each before the next, is one;
* `Lists.exists_preOrder`: so is the list of the things alone, for suitable places.
-/
import Mathlib.Data.List.Basic

namespace FrontEnd

/-- Which of the roots, which of what is below it, and so on. -/
abbrev Place := List Nat

section
variable {α : Type} (below : α → List α)

/-! ## 1. Places -/

/-- What is reached from a thing on a path downwards. -/
def reached (a : α) : Place → Option α
  | [] => some a
  | i :: q => (below a)[i]?.bind fun b => reached b q

/-- What stands at a place of the forest with these roots. -/
def standing (roots : List α) : Place → Option α
  | [] => none
  | i :: q => roots[i]?.bind fun a => reached below a q

/-- The things of a forest with their places, each once and in pre-order. -/
structure PreOrder (roots : List α) (visits : List (Place × α)) : Prop where
  increasing : (visits.map Prod.fst).Pairwise (· < ·)
  complete : ∀ q a, (q, a) ∈ visits ↔ standing below roots q = some a

/-! ## 2. Going through a forest -/

/-- A forest gone through, where the first root has the number `i`: each root, then what is below
it, then the roots after it. -/
inductive Visits : Nat → List α → List (Place × α) → Prop
  | nil (i : Nat) : Visits i [] []
  | cons {i : Nat} {a : α} {roots : List α} {inner rest : List (Place × α)} :
      Visits 0 (below a) inner → Visits (i + 1) roots rest →
      Visits i (a :: roots) (([i], a) :: inner.map (fun v => (i :: v.1, v.2)) ++ rest)

variable {below}

/-- What is visited stands at its place, and nothing else does. -/
theorem Visits.mem_iff {i : Nat} {roots : List α} {visits : List (Place × α)}
    (h : Visits below i roots visits) : ∀ {q : Place} {x : α}, (q, x) ∈ visits ↔
      ∃ j path, q = (i + j) :: path ∧ standing below roots (j :: path) = some x := by
  induction h with
  | nil i => simp [standing]
  | @cons i a roots inner rest _ _ ihInner ihRest =>
    intro q x
    rw [List.cons_append, List.mem_cons, List.mem_append, List.mem_map, ihRest]
    constructor
    · rintro (hq | ⟨⟨path, y⟩, hv, hq⟩ | ⟨j, path, rfl, hx⟩)
      · cases hq
        exact ⟨0, [], rfl, rfl⟩
      · cases hq
        obtain ⟨k, path, rfl, hy⟩ := ihInner.mp hv
        rw [Nat.zero_add]
        exact ⟨0, k :: path, rfl, hy⟩
      · exact ⟨j + 1, path, by rw [Nat.add_right_comm, Nat.add_assoc], hx⟩
    · rintro ⟨j, path, rfl, hx⟩
      cases j with
      | zero =>
        -- a place at the first root is the root itself or lies below it
        cases path with
        | nil =>
          cases hx
          exact .inl rfl
        | cons k path =>
          have hinner : (k :: path, x) ∈ inner := ihInner.mpr ⟨k, path, by rw [Nat.zero_add], hx⟩
          exact .inr (.inl ⟨_, hinner, rfl⟩)
      | succ j =>
        refine .inr (.inr ⟨j, path, ?_, hx⟩)
        rw [Nat.add_right_comm, Nat.add_assoc]

/-- A place that is visited is not empty, and starts no earlier than the first root. -/
theorem Visits.exists_cons {i : Nat} {roots : List α} {visits : List (Place × α)}
    (h : Visits below i roots visits) {v : Place × α} (hv : v ∈ visits) :
    ∃ j path, v.1 = j :: path ∧ i ≤ j := by
  obtain ⟨j, path, hq, -⟩ := h.mem_iff.mp (show (v.1, v.2) ∈ visits from hv)
  exact ⟨i + j, path, hq, Nat.le_add_right i j⟩

/-- Places come in the order of a dictionary: first the root itself, then what is below it, whose
paths are longer, and then the later roots, whose numbers are greater. -/
theorem Visits.increasing {i : Nat} {roots : List α} {visits : List (Place × α)}
    (h : Visits below i roots visits) : (visits.map Prod.fst).Pairwise (· < ·) := by
  induction h with
  | nil i => exact .nil
  | @cons i a roots inner rest hinner hrest ihInner ihRest =>
    have hlater : ∀ path, ∀ q ∈ rest.map Prod.fst, i :: path < q := by
      intro path q hq
      obtain ⟨v, hv, rfl⟩ := List.mem_map.mp hq
      obtain ⟨j, path', hj, hij⟩ := hrest.exists_cons hv
      rw [hj, List.cons_lt_cons_iff]
      exact .inl (Nat.lt_of_succ_le hij)
    have hbelow : ∀ q ∈ inner.map (fun v => i :: v.1), [i] < q := by
      intro q hq
      obtain ⟨v, hv, rfl⟩ := List.mem_map.mp hq
      obtain ⟨j, path, hj, -⟩ := hinner.exists_cons hv
      rw [hj, List.cons_lt_cons_iff]
      exact .inr ⟨rfl, List.nil_lt_cons j path⟩
    simp only [List.cons_append, List.map_cons, List.map_append, List.map_map, List.pairwise_cons,
      List.pairwise_append, List.mem_append]
    refine ⟨?_, ?_, ihRest, ?_⟩
    · rintro q (hq | hq)
      · exact hbelow q hq
      · exact hlater [] q hq
    · rw [List.pairwise_map] at ihInner ⊢
      refine ihInner.imp ?_
      intro v w hvw
      exact List.cons_lt_cons_iff.mpr (.inr ⟨rfl, hvw⟩)
    · rintro p hp q hq
      obtain ⟨v, -, rfl⟩ := List.mem_map.mp hp
      exact hlater v.1 q hq

/-- **Going through a forest is a pre-order of it.** -/
theorem Visits.preOrder {roots : List α} {visits : List (Place × α)}
    (h : Visits below 0 roots visits) : PreOrder below roots visits := by
  refine ⟨h.increasing, ?_⟩
  intro q a
  rw [h.mem_iff]
  constructor
  · rintro ⟨j, path, rfl, ha⟩
    rw [Nat.zero_add]
    exact ha
  · intro ha
    cases q with
    | nil => cases ha
    | cons j path => exact ⟨j, path, by rw [Nat.zero_add], ha⟩

/-! ## 3. Without the places -/

variable (below) in
/-- The things of a forest gone through, without their places. -/
inductive Lists : List α → List α → Prop
  | nil : Lists [] []
  | cons {a : α} {roots inner rest : List α} :
      Lists (below a) inner → Lists roots rest → Lists (a :: roots) (a :: inner ++ rest)

theorem Lists.single {a : α} {inner : List α} (h : Lists below (below a) inner) :
    Lists below [a] (a :: inner) := by
  have h := Lists.cons h .nil
  rwa [List.append_nil] at h

/-- Roots that follow on each other are gone through one after the other. -/
theorem Lists.append {roots roots' list list' : List α} (h : Lists below roots list)
    (h' : Lists below roots' list') : Lists below (roots ++ roots') (list ++ list') := by
  induction h with
  | nil => exact h'
  | cons hinner _ _ ihRest =>
    rw [List.cons_append, List.append_assoc]
    exact .cons hinner ihRest

theorem Lists.flatMap {β : Type} {root : β → α} {list : β → List α}
    (h : ∀ b, Lists below [root b] (list b)) (bs : List β) :
    Lists below (bs.map root) (bs.flatMap list) := by
  induction bs with
  | nil => exact .nil
  | cons b bs ih => exact (h b).append ih

theorem Lists.exists_visits {roots list : List α} (h : Lists below roots list) :
    ∀ i, ∃ visits, Visits below i roots visits ∧ visits.map Prod.snd = list := by
  induction h with
  | nil => exact fun i => ⟨[], .nil i, rfl⟩
  | cons _ _ ihInner ihRest =>
    intro i
    obtain ⟨inner, hinner, rfl⟩ := ihInner 0
    obtain ⟨rest, hrest, rfl⟩ := ihRest (i + 1)
    exact ⟨_, .cons hinner hrest, by simp⟩

/-- **The things of a forest gone through are those of a pre-order of it.** -/
theorem Lists.exists_preOrder {roots list : List α} (h : Lists below roots list) :
    ∃ visits, PreOrder below roots visits ∧ visits.map Prod.snd = list := by
  obtain ⟨visits, hvisits, hlist⟩ := h.exists_visits 0
  exact ⟨visits, hvisits.preOrder, hlist⟩

end
end FrontEnd

/-
# Printers have no memory

A printer changes its depth by hand around everything that it prints under a line, and it keeps the
depth from one item to the next.  A visit that left it one level too deep would shift all that
follows, and would not show in its own lines.  Every visit restores the depth, so what a printer
prints for an item is what a fresh one prints for it.

What an item prints is compared with the item itself.  `Entry.under` says what has a line directly
under another line: an else branch has one although it is no node, and the target of an assignment
has none although it is one.  The lines are those of a pre-order of the entries, and the depth of a
line is the length of the way to its entry.

Only a margin that is too wide is not printed.  The levels of an item are counted beforehand, and
the deepest line stands on the last of them.

* `prints_item`: the lines of an item, and the depth after it;
* `exists_visits`: the lines of outlines are a pre-order of entries;
* `OnLevels.fits_iff`: the levels tell whether all margins can be printed;
* `print_memoryless`: what a printer prints for items.
-/
import FrontEnd.Proofs.Tree.Distinct
import FrontEnd.Proofs.Tree.PreOrder
import FrontEnd.Tree.Margin

namespace FrontEnd
namespace Printer

/-! ## 1. What has a line -/

/-- What has a line of its own. -/
inductive Entry where
  | function (function : Function)
  | parameter (parameter : Parameter)
  | block (block : Block)
  | otherwise (block : Block)
  | node (node : Node)

namespace Entry

/-- What has a line directly under the line of an entry, in the order of the source. -/
def under : Entry → List Entry
  | function f => f.parameters.map parameter ++ [block f.body]
  | parameter _ => []
  | block b => b.map node
  | otherwise b => [block b]
  | node (.conditional condition thenBranch elseBranch) =>
    node condition :: block thenBranch :: (elseBranch.map otherwise).toList
  | node (.returned value) => [node value]
  | node (.binary left _ right) => [node left, node right]
  | node (.identifier _) => []
  | node (.literal ..) => []
  | node (.call _ arguments) => arguments.map node
  | node (.assignment _ value) => [node value]
  | node (.garbage _) => []

/-- The texts that stand in the line of an entry. -/
def texts : Entry → List String
  | function f => [f.name]
  | parameter q => [q.typeName, q.name]
  | block _ => []
  | otherwise _ => []
  | node n => n.texts

def outline : Entry → Outline
  | function f => f.outline
  | parameter q => q.outline
  | block b => .mk "Block" (nodeOutlines b)
  | otherwise b => .mk "Else" [.mk "Block" (nodeOutlines b)]
  | node n => n.outline

/-- What the line of an entry says. -/
def label (e : Entry) : String := e.outline.label

end Entry

/-- What an item prints that stands under nothing else. -/
def Item.entries : Item → List Entry
  | .node n => [.node n]
  | .block b => [.block b]
  | .parameter q => [.parameter q]
  | .function f => [.function f]
  | .program p => p.functions.map .function

/-! ## 2. Their lines -/

theorem nodeOutlines_eq_map (ns : List Node) :
    nodeOutlines ns = (ns.map Entry.node).map Entry.outline := by
  induction ns with
  | nil => rfl
  | cons n ns ih => exact congrArg (n.outline :: ·) ih

/-- What stands under an entry in its outline are the outlines of the entries under it. -/
theorem Entry.outline_eq (e : Entry) : e.outline = .mk e.label (e.under.map outline) := by
  cases e with
  | function f => simp [outline, label, under, Outline.label, Function.outline, Function.comp_def]
  | parameter q => rfl
  | block b => simp [outline, label, under, Outline.label, nodeOutlines_eq_map]
  | otherwise b => rfl
  | node n =>
    cases n with
    | conditional c t e =>
      cases e <;> rfl
    | call _ as => simp [outline, label, under, Outline.label, Node.outline, nodeOutlines_eq_map]
    | _ => rfl

/-- **The lines of outlines are a pre-order of the entries**, each as deep as the way to its entry
is long.  The induction is on the outlines, below which `Entry.under` stays. -/
theorem exists_visits : ∀ (os : List Outline) (es : List Entry), es.map Entry.outline = os →
    ∀ i, ∃ visits, Visits Entry.under i es visits ∧
      ∀ depth, outlineLines depth os =
        visits.map fun v => ⟨depth + (v.1.length - 1), v.2.label⟩
  | [], es, h, i => by
    obtain rfl := List.map_eq_nil_iff.mp h
    exact ⟨[], .nil i, fun _ => rfl⟩
  | .mk label under :: os, es, h, i => by
    obtain ⟨e, es, rfl, he, hes⟩ := List.map_eq_cons_iff.mp h
    rw [e.outline_eq] at he
    obtain ⟨rfl, hunder⟩ := Outline.mk.inj he
    obtain ⟨inner, hinner, hinnerLines⟩ := exists_visits under e.under hunder 0
    obtain ⟨rest, hrest, hrestLines⟩ := exists_visits os es hes (i + 1)
    refine ⟨_, .cons hinner hrest, ?_⟩
    intro depth
    have hdeeper : ∀ v ∈ inner, depth + 1 + (v.1.length - 1) = depth + v.1.length := by
      intro v hv
      obtain ⟨j, path, hj, -⟩ := hinner.exists_cons hv
      rw [hj, List.length_cons]
      omega
    rw [outlineLines, Outline.lines, hinnerLines, hrestLines]
    simp only [List.map_cons, List.map_append, List.map_map, List.cons_append]
    have hshifted : inner.map (fun v => (⟨depth + 1 + (v.1.length - 1), v.2.label⟩ : Line)) =
        inner.map ((fun v => ⟨depth + (v.1.length - 1), v.2.label⟩) ∘ fun v => (i :: v.1, v.2)) :=
      List.map_congr_left fun v hv => congrArg (Line.mk · v.2.label) (hdeeper v hv)
    rw [hshifted]
    rfl

/-! ## 3. Levels -/

/-- The lines of outlines stand on this many levels.  There is one on the last level, if there are
levels at all. -/
structure OnLevels (levels : Nat) (os : List Outline) : Prop where
  within : ∀ depth, ∀ l ∈ outlineLines depth os, l.depth < depth + levels
  deepest : 0 < levels → ∀ depth, ∃ l ∈ outlineLines depth os, l.depth + 1 = depth + levels

theorem onLevels_nothing : OnLevels 0 [] :=
  ⟨by simp [outlineLines], fun h => absurd h (Nat.lt_irrefl 0)⟩

/-- What stands side by side has the levels of the deeper one. -/
theorem OnLevels.append {n m : Nat} {os os' : List Outline} (h : OnLevels n os)
    (h' : OnLevels m os') : OnLevels (max n m) (os ++ os') := by
  constructor
  · intro depth l hl
    rw [outlineLines_append, List.mem_append] at hl
    rcases hl with hl | hl
    · have := h.within depth l hl
      omega
    · have := h'.within depth l hl
      omega
  · intro hpos depth
    rw [outlineLines_append]
    rcases Nat.le_total m n with hmn | hnm
    · rw [Nat.max_eq_left hmn] at hpos ⊢
      obtain ⟨l, hl, hdepth⟩ := h.deepest hpos depth
      exact ⟨l, List.mem_append_left _ hl, hdepth⟩
    · rw [Nat.max_eq_right hnm] at hpos ⊢
      obtain ⟨l, hl, hdepth⟩ := h'.deepest hpos depth
      exact ⟨l, List.mem_append_right _ hl, hdepth⟩

/-- A line adds a level, also where nothing is under it. -/
theorem OnLevels.headed {n : Nat} {os : List Outline} (h : OnLevels n os) (label : String) :
    OnLevels (n + 1) [.mk label os] := by
  constructor
  · intro depth l hl
    rw [outlineLines, outlineLines, List.append_nil, Outline.lines, List.mem_cons] at hl
    rcases hl with rfl | hl
    · simp
    · have := h.within (depth + 1) l hl
      omega
  · intro _ depth
    rw [outlineLines, outlineLines, List.append_nil, Outline.lines]
    rcases Nat.eq_zero_or_pos n with rfl | hn
    · exact ⟨_, List.mem_cons_self, rfl⟩
    · obtain ⟨l, hl, hdepth⟩ := h.deepest hn (depth + 1)
      exact ⟨l, List.mem_cons_of_mem _ hl, by omega⟩

mutual
/-- A node has as many levels as were counted. -/
theorem onLevels_node : ∀ n : Node, OnLevels n.levels [n.outline]
  | .conditional c t e => by
    have hthen := (onLevels_nodes t).headed "Block"
    exact ((onLevels_node c).append (hthen.append (onLevels_else e))).headed "If"
  | .returned v => (onLevels_node v).headed _
  | .binary l _ r => ((onLevels_node l).append (onLevels_node r)).headed _
  | .identifier _ => onLevels_nothing.headed _
  | .literal _ _ => onLevels_nothing.headed _
  | .call _ as => (onLevels_nodes as).headed _
  | .assignment _ v => (onLevels_node v).headed _
  | .garbage _ => onLevels_nothing.headed _
theorem onLevels_nodes : ∀ ns : List Node, OnLevels (nodesLevels ns) (nodeOutlines ns)
  | [] => onLevels_nothing
  | n :: ns => (onLevels_node n).append (onLevels_nodes ns)
theorem onLevels_else : ∀ b : Option (List Node), OnLevels (elseLevels b) (elseOutlines b)
  | none => onLevels_nothing
  | some b => ((onLevels_nodes b).headed "Block").headed "Else"
end

theorem onLevels_parameters : ∀ qs : List Parameter,
    ∃ n ≤ 1, OnLevels n (qs.map Parameter.outline)
  | [] => ⟨0, Nat.zero_le 1, onLevels_nothing⟩
  | q :: qs => by
    obtain ⟨n, hn, hqs⟩ := onLevels_parameters qs
    have hq : OnLevels 1 [q.outline] := onLevels_nothing.headed _
    exact ⟨max 1 n, by omega, hq.append hqs⟩

/-- The block of a function is on a level where the parameters are too. -/
theorem onLevels_function (f : Function) : OnLevels f.levels [f.outline] := by
  obtain ⟨n, hn, hparameters⟩ := onLevels_parameters f.parameters
  have hblock := (onLevels_nodes f.body).headed "Block"
  have h := (hparameters.append hblock).headed ("FunctionDecl " ++ f.name)
  rw [Nat.max_eq_right (by omega)] at h
  exact h

theorem onLevels_program : ∀ fs : List Function,
    OnLevels ((fs.map Function.levels).foldr max 0) (fs.map Function.outline)
  | [] => onLevels_nothing
  | f :: fs => (onLevels_function f).append (onLevels_program fs)

theorem onLevels_item (i : Item) : OnLevels i.levels (i.entries.map Entry.outline) := by
  cases i with
  | node n => exact onLevels_node n
  | block b => exact (onLevels_nodes b).headed _
  | parameter q => exact onLevels_nothing.headed _
  | function f => exact onLevels_function f
  | program p =>
    have h := onLevels_program p.functions
    simp only [Item.entries, List.map_map]
    exact h

/-- **The levels tell whether all margins can be printed.** -/
theorem OnLevels.fits_iff {n : Nat} {os : List Outline} (h : OnLevels n os) (indent widest : Nat) :
    (n - 1) * indent ≤ widest ↔ ∀ l ∈ outlineLines 0 os, l.depth * indent ≤ widest := by
  constructor
  · intro hfits l hl
    have hdepth := h.within 0 l hl
    exact (Nat.mul_le_mul_right indent (by omega)).trans hfits
  · intro hall
    rcases Nat.eq_zero_or_pos n with rfl | hn
    · simp
    · obtain ⟨l, hl, hdepth⟩ := h.deepest hn 0
      have hlast : n - 1 = l.depth := by omega
      rw [hlast]
      exact hall l hl

/-! ## 4. Items -/

/-- What prints an item adds the lines of its entries, and restores the depth. -/
theorem prints_item (i : Item) : Prints (fun p => p.item i) (i.entries.map Entry.outline) := by
  cases i with
  | node n => exact prints_node n
  | block b => exact .headed "Block" (prints_nodes b)
  | parameter q => exact prints_line _
  | function f => exact prints_function f
  | program p =>
    have h := prints_program p
    simp only [Item.entries, List.map_map]
    exact h

/-- Items leave a printer as deep as it was. -/
theorem prints_items : ∀ is : List Item,
    Prints (fun p => p.items is) (is.flatMap fun i => i.entries.map Entry.outline)
  | [] => prints_nothing
  | i :: is => (prints_item i).followed (prints_items is)

/-- Items are printed one after the other. -/
theorem text_items_cons (indent : Nat) (i : Item) (is : List Item) :
    ((start indent).items (i :: is)).text =
      ((start indent).item i).text ++ ((start indent).items is).text := by
  rw [← String.toList_inj, String.toList_append, (prints_items _).text, (prints_item i).text,
    (prints_items is).text, List.flatMap_cons, outlineLines_append, List.flatMap_append]
  rfl

/-- What a fresh printer prints for an item comes before what another prints for the others. -/
theorem print_cons (indent : Nat) (i : Item) (is : List Item) :
    print indent (i :: is) = (do
      let text ← print indent [i]
      let texts ← print indent is
      return text ++ texts) := by
  rw [print_single]
  unfold print
  rw [text_items_cons]
  show Except.map _ (checkMargins indent i.levels >>= fun _ => checkItems indent is) = _
  unfold checkMargins
  split
  · cases checkItems indent is <;> rfl
  · rfl

/-- **The whole text is that of the items, each printed by a fresh printer.** -/
theorem print_eq_mapM (indent : Nat) (items : List Item) :
    print indent items = (items.mapM fun i => print indent [i]).map String.join := by
  induction items with
  | nil => rfl
  | cons i is ih =>
    rw [print_cons, ih, List.mapM_cons]
    cases print indent [i] with
    | error e => rfl
    | ok text =>
      cases is.mapM fun i => print indent [i] with
      | error e => rfl
      | ok texts => exact congrArg Except.ok String.join_cons.symm

/-! ## 5. Lines of a text -/

/-- The blanks before the line of the entry at this place. -/
def marginAt (indent : Nat) (q : Place) : Nat := (q.length - 1) * indent

/-- The line of the entry at this place. -/
def lineAt (indent : Nat) (v : Place × Entry) : List Char :=
  List.replicate (marginAt indent v.1) ' ' ++ v.2.label.toList

/-- A line stays one line where the texts in it do, and its label starts with a letter. -/
theorem Entry.legible {e : Entry} (h : ∀ t ∈ e.texts, '\n' ∉ t.toList) : Legible e.label := by
  cases e with
  | function f =>
    have hname : '\n' ∉ f.name.toList := h _ List.mem_cons_self
    exact .append ⟨by decide, by decide⟩ hname
  | parameter q =>
    have htype : '\n' ∉ q.typeName.toList := h _ List.mem_cons_self
    have hname : '\n' ∉ q.name.toList := h _ (List.mem_cons_of_mem _ List.mem_cons_self)
    exact Parameter.legible_label htype hname
  | block b =>
    show Legible "Block"
    exact ⟨by decide, by decide⟩
  | otherwise b =>
    show Legible "Else"
    exact ⟨by decide, by decide⟩
  | node n => exact Node.legible_label h

/-- Nothing but the margin of a legible line is blank before its first letter. -/
theorem takeWhile_lineAt {v : Place × Entry} (h : Legible v.2.label) (indent : Nat) :
    ((lineAt indent v).takeWhile (· == ' ')).length = marginAt indent v.1 := by
  have hlabel : v.2.label.toList.takeWhile (· == ' ') = [] := by
    have hhead := h.head
    cases hchars : v.2.label.toList with
    | nil => rfl
    | cons c cs =>
      rw [hchars] at hhead
      exact List.takeWhile_cons_of_neg (by simpa using hhead)
  unfold lineAt
  rw [List.takeWhile_append_of_pos (by simp), hlabel, List.append_nil, List.length_replicate]

/-- Legible lines are read back from a text, which ends with the last of them. -/
theorem splitOn_lines (indent : Nat) : ∀ {visits : List (Place × Entry)},
    (∀ v ∈ visits, Legible v.2.label) →
    (visits.flatMap fun v => lineAt indent v ++ ['\n']).splitOn '\n' =
      visits.map (lineAt indent) ++ [[]]
  | [], _ => List.splitOn_nil _
  | v :: vs, h => by
    have hnewline : '\n' ∉ lineAt indent v :=
      Line.not_mem_newline (l := ⟨v.1.length - 1, v.2.label⟩) (h v List.mem_cons_self) indent
    have hv : ∀ c ∈ lineAt indent v, (c == '\n') = false := by
      intro c hc
      refine beq_false_of_ne ?_
      rintro rfl
      exact hnewline hc
    have ih := splitOn_lines indent fun w hw => h w (List.mem_cons_of_mem v hw)
    rw [List.flatMap_cons, List.append_assoc, List.singleton_append, List.splitOn,
      List.splitOnP_append_cons_of_forall_mem hv _ (by decide)]
    exact congrArg (lineAt indent v :: ·) ih

/-! ## 6. What a printer prints -/

/-- What comes of printing an item whose entries stand at these places.  The text is the lines of
the entries, unless one of them has a margin that is too wide.  Where no text in them has a line
feed, the lines can be told, and each starts with its margin and no further blank. -/
structure Shows (indent : Nat) (visits : List (Place × Entry))
    (printed : Except Panic String) : Prop where
  text : (∀ v ∈ visits, marginAt indent v.1 ≤ widestMargin) →
    printed = .ok (String.ofList (visits.flatMap fun v => lineAt indent v ++ ['\n']))
  error : ∀ v ∈ visits, widestMargin < marginAt indent v.1 → printed = .error .marginTooWide
  lines : (∀ v ∈ visits, ∀ t ∈ v.2.texts, '\n' ∉ t.toList) → ∀ text, printed = .ok text →
    text.toList.splitOn '\n' = visits.map (lineAt indent) ++ [[]] ∧
      ∀ v ∈ visits, ((lineAt indent v).takeWhile (· == ' ')).length = marginAt indent v.1

/-- **An item is printed as the lines of a pre-order of its entries.** -/
theorem exists_shows (indent : Nat) (i : Item) :
    ∃ visits, PreOrder Entry.under i.entries visits ∧ Shows indent visits (print indent [i]) := by
  obtain ⟨visits, hvisits, hlines⟩ := exists_visits _ i.entries rfl 0
  have hlines := hlines 0
  simp only [Nat.zero_add] at hlines
  -- one product decides for all margins, as there is an entry on every level
  have hfits : (i.levels - 1) * indent ≤ widestMargin ↔
      ∀ v ∈ visits, marginAt indent v.1 ≤ widestMargin := by
    rw [(onLevels_item i).fits_iff, hlines, List.forall_mem_map]
    rfl
  have htext : ((start indent).item i).text.toList =
      visits.flatMap fun v => lineAt indent v ++ ['\n'] := by
    have h := (prints_item i).text (start indent)
    rw [show (start indent).depth = 0 from rfl, hlines, List.flatMap_map] at h
    exact h
  refine ⟨visits, hvisits.preOrder, ?_, ?_, ?_⟩
  · intro hall
    rw [print_single, if_pos (hfits.mpr hall), ← htext, String.ofList_toList]
  · intro v hv hwide
    rw [print_single, if_neg]
    intro hle
    exact Nat.not_lt.mpr (hfits.mp hle v hv) hwide
  · -- the labels hold no line feed, so that each line is one line of the text
    intro htexts text hprinted
    have hlegible : ∀ v ∈ visits, Legible v.2.label := fun v hv => Entry.legible (htexts v hv)
    rw [print_single] at hprinted
    split at hprinted
    · cases hprinted
      rw [htext]
      exact ⟨splitOn_lines indent hlegible, fun v hv => takeWhile_lineAt (hlegible v hv) indent⟩
    · cases hprinted

/-- **A printer has no memory.**  Every visit restores the depth, and what one printer prints for
items is what fresh ones print for each of them: the lines of a pre-order of its entries, unless
one of them has a margin that is too wide. -/
theorem print_memoryless (indent : Nat) (items : List Item) :
    (∀ i ∈ items, ∀ p : Printer, (p.item i).depth = p.depth) ∧
      print indent items = (items.mapM fun i => print indent [i]).map String.join ∧
      ∀ i ∈ items, ∃ visits, PreOrder Entry.under i.entries visits ∧
        Shows indent visits (print indent [i]) := by
  refine ⟨?_, print_eq_mapM indent items, ?_⟩
  · intro i _ p
    exact (prints_item i).depth p
  · intro i _
    exact exists_shows indent i

/-- Two levels are enough for a margin that is too wide. -/
theorem not_forall_print_ok : ¬ ∀ indent items, ∃ text, print indent items = .ok text := by
  intro h
  obtain ⟨text, htext⟩ := h 65536 [.node (.returned (.identifier "x"))]
  have herror : print 65536 [.node (.returned (.identifier "x"))] = .error .marginTooWide := rfl
  rw [herror] at htext
  cases htext

end Printer
end FrontEnd

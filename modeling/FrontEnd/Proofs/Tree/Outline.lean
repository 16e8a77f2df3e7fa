/-
# Printed trees can be read back

A printed tree is an outline: constructs with other constructs under them, each on a line of
its own.  Nothing in the text says where the constructs under a line end but the margins of
the lines that follow.

So reading back takes two steps.  A line falls apart into its margin and its content, since no
content starts with a blank.  And the depths of the lines, in the order in which they are
printed, tell which line stands under which: the lines under a line are those up to the next
one that is no deeper.

* `Outline`, `outlineLines`: outlines and their lines;
* `lineChars_injective`: the text of lines tells the lines;
* `outlineLines_injective`: the lines of outlines tell the outlines;
* `prints_program`: what a printer prints are the lines of outlines.
-/
import FrontEnd.Tree.Margin
import Mathlib.Data.List.Basic

namespace FrontEnd

/-! ## 1. Outlines -/

/-- A construct and what is printed under it. -/
inductive Outline where
  | mk (label : String) (under : List Outline)

/-- A printed line: how deep it stands and what it says. -/
structure Line where
  depth : Nat
  content : String

mutual
/-- The lines of an outline at this depth. -/
def Outline.lines (depth : Nat) : Outline → List Line
  | .mk label under => ⟨depth, label⟩ :: outlineLines (depth + 1) under
/-- The lines of outlines that stand one after the other at this depth. -/
def outlineLines (depth : Nat) : List Outline → List Line
  | [] => []
  | o :: os => o.lines depth ++ outlineLines depth os
end

/-- Outlines are written one after the other. -/
theorem outlineLines_append (depth : Nat) (os os' : List Outline) :
    outlineLines depth (os ++ os') = outlineLines depth os ++ outlineLines depth os' := by
  induction os with
  | nil => rfl
  | cons o os ih => simp [outlineLines, ih]

/-! ## 2. From lines to outlines -/

/-- The lines that follow stand less deep than `depth`. -/
def Shallower (depth : Nat) (rest : List Line) : Prop := ∀ l ∈ rest.head?, l.depth < depth

/-- Below a line the next outlines are shallower than what stands under it. -/
theorem Shallower.outlineLines {depth : Nat} {rest : List Line} (h : Shallower depth rest)
    (os : List Outline) : Shallower (depth + 1) (outlineLines depth os ++ rest) := by
  cases os with
  | nil => exact fun l hl => Nat.lt_succ_of_lt (h l hl)
  | cons o os =>
    cases o
    intro l hl
    cases hl
    exact Nat.lt_succ_self depth

/-- Outlines start with a line at their depth, so what is shallower is not among them. -/
theorem Shallower.ne_cons {depth : Nat} {rest rest' : List Line} (h : Shallower depth rest)
    (o : Outline) (os : List Outline) : rest ≠ FrontEnd.outlineLines depth (o :: os) ++ rest' := by
  rintro rfl
  cases o
  exact Nat.lt_irrefl depth (h _ rfl)

/-- **The lines of outlines tell the outlines**, and where they end.  The outlines under a line
end before the outlines beside it, which are shallower than they are. -/
theorem outlineLines_injective : ∀ {os os' : List Outline} {depth : Nat} {rest rest' : List Line},
    Shallower depth rest → Shallower depth rest' →
    outlineLines depth os ++ rest = outlineLines depth os' ++ rest' → os = os' ∧ rest = rest'
  | [], [], _, _, _, _, _, h => ⟨rfl, h⟩
  | [], o :: os, _, _, _, hr, _, h => absurd h (hr.ne_cons o os)
  | o :: os, [], _, _, _, _, hr', h => absurd h.symm (hr'.ne_cons o os)
  | .mk label under :: os, .mk label' under' :: os', depth, rest, rest', hr, hr', h => by
    simp only [outlineLines, Outline.lines, List.cons_append, List.append_assoc, List.cons.injEq,
      Line.mk.injEq, true_and] at h
    obtain ⟨rfl, hunder, hbeside⟩ :=
      And.intro h.1 (outlineLines_injective (hr.outlineLines os) (hr'.outlineLines os') h.2)
    obtain ⟨rfl, hrest⟩ := outlineLines_injective hr hr' hbeside
    exact ⟨by rw [hunder], hrest⟩

/-! ## 3. From characters to lines -/

/-- What stands before the first `a` and what stands after it are told by both together. -/
theorem append_cons_injective {α : Type} {a : α} : ∀ {before before' after after' : List α},
    a ∉ before → a ∉ before' → before ++ a :: after = before' ++ a :: after' →
    before = before' ∧ after = after'
  | [], [], _, _, _, _, h => ⟨rfl, (List.cons.inj h).2⟩
  | [], b :: bs, _, _, _, hb, h => absurd (by simp [(List.cons.inj h).1]) hb
  | b :: bs, [], _, _, hb, _, h => absurd (by simp [(List.cons.inj h).1]) hb
  | b :: bs, b' :: bs', _, _, hb, hb', h => by
    obtain ⟨rfl, hrest⟩ := List.cons.inj h
    obtain ⟨rfl, hafter⟩ := append_cons_injective (fun hm => hb (List.mem_cons_of_mem b hm))
      (fun hm => hb' (List.mem_cons_of_mem b hm)) hrest
    exact ⟨rfl, hafter⟩

/-- Can be told from the margin before it, and stays on its line. -/
structure Legible (content : String) : Prop where
  head : content.toList.head?.any (· != ' ') = true
  newline : '\n' ∉ content.toList

/-- The characters of a printed line. -/
def Line.chars (indent : Nat) (l : Line) : List Char :=
  List.replicate (l.depth * indent) ' ' ++ l.content.toList ++ ['\n']

/-- A margin ends where no blank follows. -/
theorem margin_injective : ∀ {n m : Nat} {left right : List Char},
    left.head?.any (· != ' ') = true → right.head?.any (· != ' ') = true →
    List.replicate n ' ' ++ left = List.replicate m ' ' ++ right → n = m ∧ left = right
  | 0, 0, _, _, _, _, h => ⟨rfl, h⟩
  | 0, m + 1, left, right, hl, _, h => by
    obtain rfl : left = ' ' :: (List.replicate m ' ' ++ right) := h
    cases hl
  | n + 1, 0, left, right, _, hr, h => by
    obtain rfl : ' ' :: (List.replicate n ' ' ++ left) = right := h
    cases hr
  | n + 1, m + 1, _, _, hl, hr, h => by
    obtain ⟨rfl, hrest⟩ := margin_injective hl hr (List.cons.inj h).2
    exact ⟨rfl, hrest⟩

/-- A line is one line if its content is. -/
theorem Line.not_mem_newline {l : Line} (hl : Legible l.content) (indent : Nat) :
    '\n' ∉ List.replicate (l.depth * indent) ' ' ++ l.content.toList := by
  simp [hl.newline]

/-- **The text of lines tells the lines**: their ends are the line feeds, and their depths are
read off their margins. -/
theorem lineChars_injective {indent : Nat} (hindent : 0 < indent) :
    ∀ {ls ls' : List Line}, (∀ l ∈ ls, Legible l.content) → (∀ l ∈ ls', Legible l.content) →
      ls.flatMap (Line.chars indent) = ls'.flatMap (Line.chars indent) → ls = ls'
  | [], [], _, _, _ => rfl
  | [], l :: ls, _, _, h => by simp [Line.chars] at h
  | l :: ls, [], _, _, h => by simp [Line.chars] at h
  | ⟨depth, content⟩ :: ls, ⟨depth', content'⟩ :: ls', hls, hls', h => by
    have hl := hls ⟨depth, content⟩ List.mem_cons_self
    have hl' := hls' ⟨depth', content'⟩ List.mem_cons_self
    simp only [List.flatMap_cons, Line.chars, List.append_assoc, List.singleton_append] at h
    rw [← List.append_assoc, ← List.append_assoc] at h
    obtain ⟨hline, hrest⟩ :=
      append_cons_injective (Line.not_mem_newline hl indent) (Line.not_mem_newline hl' indent) h
    obtain ⟨hmargin, hcontent⟩ := margin_injective hl.head hl'.head hline
    obtain rfl := Nat.eq_of_mul_eq_mul_right hindent hmargin
    obtain rfl : content = content' := String.toList_inj.mp hcontent
    rw [lineChars_injective hindent (fun m hm => hls m (List.mem_cons_of_mem _ hm))
      (fun m hm => hls' m (List.mem_cons_of_mem _ hm)) hrest]

/-! ## 4. What a printer prints -/

/-- Printing adds the lines of these outlines at the present depth, and keeps the depth. -/
structure Prints (print : Printer → Printer) (os : List Outline) : Prop where
  indent : ∀ p, (print p).indent = p.indent
  depth : ∀ p, (print p).depth = p.depth
  text : ∀ p, (print p).text.toList =
    p.text.toList ++ (outlineLines p.depth os).flatMap (Line.chars p.indent)

theorem prints_nothing : Prints (fun p => p) [] :=
  ⟨fun _ => rfl, fun _ => rfl, fun _ => by simp [outlineLines]⟩

/-- What is printed first comes first. -/
theorem Prints.followed {f g : Printer → Printer} {os os' : List Outline} (hf : Prints f os)
    (hg : Prints g os') : Prints (fun p => g (f p)) (os ++ os') := by
  refine ⟨fun p => ?_, fun p => ?_, fun p => ?_⟩
  · rw [hg.indent, hf.indent]
  · rw [hg.depth, hf.depth]
  · rw [hg.text, hf.text, hf.indent, hf.depth, outlineLines_append, List.flatMap_append,
      List.append_assoc]

theorem text_line (p : Printer) (content : String) :
    (p.line content).text.toList = p.text.toList ++ Line.chars p.indent ⟨p.depth, content⟩ := by
  simp [Printer.line, Printer.margin, Line.chars]

/-- What is printed under a line stands one level deeper. -/
theorem Prints.headed {f : Printer → Printer} {os : List Outline} (content : String)
    (hf : Prints f os) : Prints (fun p => p.headed content f) [.mk content os] := by
  refine ⟨fun p => ?_, fun p => ?_, fun p => ?_⟩
  · simp only [Printer.headed, Printer.nested, hf.indent]
    rfl
  · simp only [Printer.headed, Printer.nested, hf.depth]
    rfl
  · have hline := text_line p content
    simp only [Printer.headed, Printer.nested, hf.text]
    rw [hline, List.append_assoc]
    simp [outlineLines, Outline.lines, Printer.line]

/-- A line alone has nothing under it. -/
theorem prints_line (content : String) : Prints (fun p => p.line content) [.mk content []] := by
  refine ⟨fun _ => rfl, fun _ => rfl, fun p => ?_⟩
  rw [text_line]
  simp [outlineLines, Outline.lines]

/-- What is printed one after the other has the outlines one after the other. -/
theorem prints_foldl {α : Type} {print : Printer → α → Printer} {outline : α → Outline}
    (h : ∀ a, Prints (fun p => print p a) [outline a]) :
    ∀ as : List α, Prints (fun p => as.foldl print p) (as.map outline)
  | [] => prints_nothing
  | a :: as => (h a).followed (prints_foldl h as)

/-! ## 5. The outlines of trees -/

mutual
/-- The outline of a node.  The target of an assignment stands in the label. -/
def Node.outline : Node → Outline
  | .conditional condition thenBranch elseBranch =>
    .mk "If" (condition.outline :: .mk "Block" (nodeOutlines thenBranch) :: elseOutlines elseBranch)
  | .returned value => .mk "Return" [value.outline]
  | .binary left operator right =>
    .mk ("Binary " ++ operator.symbol) [left.outline, right.outline]
  | .identifier name => .mk ("Identifier " ++ name) []
  | .literal kind value => .mk ("Literal " ++ kind.name ++ " " ++ value) []
  | .call callee arguments => .mk ("Call " ++ callee) (nodeOutlines arguments)
  | .assignment target value => .mk ("Assignment " ++ target) [value.outline]
  | .garbage token => .mk ("Garbage " ++ token.display) []
def nodeOutlines : List Node → List Outline
  | [] => []
  | n :: ns => n.outline :: nodeOutlines ns
def elseOutlines : Option (List Node) → List Outline
  | none => []
  | some b => [.mk "Else" [.mk "Block" (nodeOutlines b)]]
end

def Parameter.outline (q : Parameter) : Outline :=
  .mk ("Parameter " ++ q.typeName ++ " " ++ q.name) []

def Function.outline (f : Function) : Outline :=
  .mk ("FunctionDecl " ++ f.name)
    (f.parameters.map Parameter.outline ++ [.mk "Block" (nodeOutlines f.body)])

def Program.outlines (p : Program) : List Outline := p.functions.map Function.outline

namespace Printer

mutual
/-- **A node is printed as its outline says**, by its form. -/
theorem prints_node : ∀ n : Node, Prints (fun p => p.node n) [n.outline]
  | .conditional c t e =>
    .headed "If" (((prints_node c).followed (.headed "Block" (prints_nodes t))).followed
      (prints_else e))
  | .returned v => .headed "Return" (prints_node v)
  | .binary l _ r => .headed _ ((prints_node l).followed (prints_node r))
  | .identifier _ => prints_line _
  | .literal _ _ => prints_line _
  | .call _ as => .headed _ (prints_nodes as)
  | .assignment _ v => .headed _ (prints_node v)
  | .garbage _ => prints_line _
theorem prints_nodes : ∀ ns : List Node, Prints (fun p => p.nodes ns) (nodeOutlines ns)
  | [] => prints_nothing
  | n :: ns => (prints_node n).followed (prints_nodes ns)
theorem prints_else : ∀ b : Option (List Node), Prints (fun p => p.elseBlock b) (elseOutlines b)
  | none => prints_nothing
  | some b => .headed "Else" (.headed "Block" (prints_nodes b))
end

theorem prints_function (f : Function) : Prints (fun p => p.function f) [f.outline] :=
  .headed _ ((prints_foldl (fun _ => prints_line _) f.parameters).followed
    (.headed "Block" (prints_nodes f.body)))

/-- **A printed program is the lines of its outlines.** -/
theorem prints_program (q : Program) : Prints (fun p => p.program q) q.outlines :=
  prints_foldl prints_function q.functions

end Printer

/-- What is printed of a program are the lines of its outlines. -/
theorem toList_of_print {p : Program} {indent : Nat} {text : String}
    (h : p.print indent = .ok text) :
    text.toList = (outlineLines 0 p.outlines).flatMap (Line.chars indent) := by
  rw [Program.text_of_print h]
  exact (Printer.prints_program p).text (.start indent)

/-- **The printed form of a program tells its outlines**, if its lines are legible. -/
theorem outlines_of_print {p q : Program} {indent : Nat} {text : String} (hindent : 0 < indent)
    (hp : ∀ l ∈ outlineLines 0 p.outlines, Legible l.content)
    (hq : ∀ l ∈ outlineLines 0 q.outlines, Legible l.content)
    (h : p.print indent = .ok text) (h' : q.print indent = .ok text) : p.outlines = q.outlines := by
  have hchars := (toList_of_print h).symm.trans (toList_of_print h')
  have hlines := lineChars_injective hindent hp hq hchars
  have hnone : Shallower 0 [] := by simp [Shallower]
  exact (outlineLines_injective hnone hnone (congrArg (· ++ []) hlines)).1

end FrontEnd

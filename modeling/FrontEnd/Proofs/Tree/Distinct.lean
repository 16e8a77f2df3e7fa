/-
# Printed trees can be told apart

Programs that are parsed from texts and print the same are the same, but for the spans in
garbage.  This is so for any indentation but none, and also where the parse went on after
mismatches and the tree has odd names in it.

The lines of a printed program tell its outlines (`outlines_of_print`).  What is left is that
a line tells its construct, although names and literals stand in it as they are and may hold
blanks and look like anything.  It starts with a word for the construct; a blank ends that
word.  Where something else follows, it comes last on its line, or is a word too: the kind of a
literal, the kind of a garbage token, and the type of a parameter.  The last of them is a name
in every text, since a parameter is only read where a name is: no other token stands in for
its type.  And no tree that is returned shows the end of the text, whose name in a line would
have no text after it.

* `Node.forgetSpans`, `Program.forgetSpans`: trees without the spans in garbage;
* `Node.outline_injective`: an outline tells its node;
* `onLine_slots`, `typesAreWords`: what a parse of a lexed text puts into lines;
* `print_injective`: so the printed form tells the program.
-/
import FrontEnd.Proofs.Lexer.Boundaries
import FrontEnd.Proofs.Lexer.Partition
import FrontEnd.Proofs.Parser.Completion
import FrontEnd.Proofs.Tree.Outline

namespace FrontEnd

/-! ## 1. Trees without spans -/

mutual
/-- The node, with garbage tokens at no place in particular. -/
def Node.forgetSpans : Node → Node
  | .conditional c t e => .conditional c.forgetSpans (forgetNodeSpans t) (forgetElseSpans e)
  | .returned v => .returned v.forgetSpans
  | .binary l o r => .binary l.forgetSpans o r.forgetSpans
  | .identifier x => .identifier x
  | .literal k v => .literal k v
  | .call f as => .call f (forgetNodeSpans as)
  | .assignment x v => .assignment x v.forgetSpans
  | .garbage t => .garbage { t with span := ⟨0, 0⟩ }
def forgetNodeSpans : List Node → List Node
  | [] => []
  | n :: ns => n.forgetSpans :: forgetNodeSpans ns
def forgetElseSpans : Option (List Node) → Option (List Node)
  | none => none
  | some b => some (forgetNodeSpans b)
end

def Function.forgetSpans (f : Function) : Function := { f with body := forgetNodeSpans f.body }

def Program.forgetSpans (p : Program) : Program := ⟨p.functions.map Function.forgetSpans⟩

/-! ## 2. Labels -/

/-- What is before the first blank of a label and what is after it. -/
theorem blank_injective {word word' rest rest' : String} (h : ' ' ∉ word.toList)
    (h' : ' ' ∉ word'.toList) (he : word ++ " " ++ rest = word' ++ " " ++ rest') :
    word = word' ∧ rest = rest' := by
  have hchars := congrArg String.toList he
  simp only [String.toList_append, List.append_assoc, String.reduceToList, List.singleton_append]
    at hchars
  obtain ⟨hword, hrest⟩ := append_cons_injective h h' hchars
  exact ⟨String.toList_inj.mp hword, String.toList_inj.mp hrest⟩

theorem Operator.symbol_injective {o o' : Operator} (h : o.symbol = o'.symbol) : o = o' := by
  have hread (o : Operator) :
      (Lexeme.readSymbol? o.symbol.toList).map Lexeme.kind = some o.kind := by cases o <;> rfl
  have hkind : some o.kind = some o'.kind := by rw [← hread o, ← hread o', h]
  have hof := ofKind?_eq_some_iff.mpr (Option.some.inj hkind)
  exact Option.some.inj ((ofKind?_eq_some_iff.mpr rfl).symm.trans hof)

theorem LiteralKind.name_injective {k k' : LiteralKind} (h : k.name = k'.name) : k = k' := by
  have hof (k : LiteralKind) : ofName? k.name = some k := by cases k <;> rfl
  have := hof k
  rw [h, hof k'] at this
  exact (Option.some.inj this).symm

theorem Kind.name_injective {k k' : Kind} (h : k.name = k'.name) : k = k' := by
  have hof (k : Kind) : ofName? k.name = some k := by cases k <;> rfl
  have := hof k
  rw [h, hof k'] at this
  exact (Option.some.inj this).symm

/-- Names of kinds are words. -/
theorem Kind.isAlpha_name (k : Kind) : k.name.toList.all Char.isAlpha = true := by
  cases k <;> decide

theorem LiteralKind.isAlpha_name (k : LiteralKind) : k.name.toList.all Char.isAlpha = true := by
  cases k <;> decide

theorem not_mem_of_isAlpha {c : Char} {name : List Char} (hname : name.all Char.isAlpha = true)
    (hc : c.isAlpha = false) : c ∉ name := by
  intro hmem
  rw [List.all_eq_true.mp hname c hmem] at hc
  cases hc

/-- Messages name a token by its kind and its text. -/
theorem Token.display_injective {t u : Token} (ht : t.kind ≠ .eof) (hu : u.kind ≠ .eof)
    (h : t.display = u.display) : t.kind = u.kind ∧ t.text = u.text := by
  have hshape {t : Token} (ht : t.kind ≠ .eof) :
      t.display = t.kind.name ++ " " ++ ("'" ++ t.text ++ "'") := by
    rw [display, if_neg ht, show " '" = " " ++ "'" from rfl]
    simp only [String.append_assoc]
  rw [hshape ht, hshape hu] at h
  have hblank (k : Kind) : ' ' ∉ k.name.toList := not_mem_of_isAlpha k.isAlpha_name (by decide)
  obtain ⟨hname, htext⟩ := blank_injective (hblank _) (hblank _) h
  exact ⟨Kind.name_injective hname, by simpa using htext⟩

/-! ## 3. Outlines tell trees -/

/-- What the line of an outline says. -/
def Outline.label : Outline → String
  | .mk label _ => label

/-- The word that the line of a node starts with. -/
def Node.word : Node → String
  | .conditional .. => "If"
  | .returned _ => "Return"
  | .binary .. => "Binary"
  | .identifier _ => "Identifier"
  | .literal .. => "Literal"
  | .call .. => "Call"
  | .assignment .. => "Assignment"
  | .garbage _ => "Garbage"

/-- The first word of a label is the one for the construct. -/
theorem takeWhile_label (n : Node) :
    n.outline.label.toList.takeWhile (· != ' ') = n.word.toList := by
  cases n <;> simp [Node.outline, Outline.label, Node.word]

/-- The first word of a line tells which form a node has. -/
theorem word_of_outline {n m : Node} (h : n.outline = m.outline) : n.word = m.word := by
  rw [← String.toList_inj, ← takeWhile_label, ← takeWhile_label, h]

/-- The slot shows no line feed, and is not for the end of the text. -/
def Slot.OnLine : Slot → Prop
  | .fixed _ => True
  | .text _ x => '\n' ∉ x.toList
  | .token t => '\n' ∉ t.text.toList ∧ t.kind ≠ .eof

namespace Node

mutual
/-- **An outline tells its node**, but for the spans in garbage. -/
theorem outline_injective : ∀ {n m : Node}, (∀ s ∈ n.slots, s.OnLine) →
    (∀ s ∈ m.slots, s.OnLine) → n.outline = m.outline → n.forgetSpans = m.forgetSpans
  | .conditional c t e, m, hn, hm, h => by
    -- every form has its own first word, so only the equal form is left
    have hword := word_of_outline h
    cases m with
    | conditional c' t' e' =>
      simp only [slots, List.forall_mem_append, List.forall_mem_cons] at hn hm
      simp only [outline, Outline.mk.injEq, List.cons.injEq, true_and] at h
      obtain ⟨⟨⟨-, hc⟩, -, ht⟩, -, he⟩ := hn
      obtain ⟨⟨⟨-, hc'⟩, -, ht'⟩, -, he'⟩ := hm
      rw [forgetSpans, forgetSpans, outline_injective hc hc' h.1,
        nodes_injective ht ht' h.2.1, else_injective he he' h.2.2]
    | _ => simp [word] at hword
  | .returned v, m, hn, hm, h => by
    have hword := word_of_outline h
    cases m with
    | returned v' =>
      simp only [slots, List.forall_mem_cons] at hn hm
      simp only [outline, Outline.mk.injEq, List.cons.injEq, true_and, and_true] at h
      rw [forgetSpans, forgetSpans, outline_injective hn.2 hm.2 h]
    | _ => simp [word] at hword
  | .binary l o r, m, hn, hm, h => by
    have hword := word_of_outline h
    cases m with
    | binary l' o' r' =>
      simp only [slots, List.forall_mem_append, List.forall_mem_cons] at hn hm
      simp only [outline, Outline.mk.injEq, List.cons.injEq, and_true] at h
      obtain ⟨hsymbol, hl, hr⟩ := h
      rw [forgetSpans, forgetSpans, outline_injective hn.1 hm.1 hl,
        outline_injective hn.2.2 hm.2.2 hr,
        Operator.symbol_injective (String.append_right_inj _ |>.mp hsymbol)]
    | _ => simp [word] at hword
  | .identifier x, m, _, _, h => by
    have hword := word_of_outline h
    cases m with
    | identifier x' => simpa [outline, forgetSpans] using h
    | _ => simp [word] at hword
  | .literal k v, m, _, _, h => by
    have hword := word_of_outline h
    cases m with
    | literal k' v' =>
      -- a literal may hold blanks, the name of its kind holds none: the first blank parts them
      have hblank (k : LiteralKind) : ' ' ∉ k.name.toList :=
        not_mem_of_isAlpha k.isAlpha_name (by decide)
      simp only [outline, Outline.mk.injEq, and_true, String.append_assoc] at h
      have hrest : k.name ++ " " ++ v = k'.name ++ " " ++ v' := by
        simpa [String.append_assoc] using h
      obtain ⟨hk, rfl⟩ := blank_injective (hblank k) (hblank k') hrest
      rw [LiteralKind.name_injective hk]
    | _ => simp [word] at hword
  | .call f as, m, hn, hm, h => by
    have hword := word_of_outline h
    cases m with
    | call f' as' =>
      simp only [slots, List.forall_mem_append, List.forall_mem_cons] at hn hm
      simp only [outline, Outline.mk.injEq] at h
      have hf : f = f' := by simpa using h.1
      rw [forgetSpans, forgetSpans, hf, nodes_injective hn.1.2.2 hm.1.2.2 h.2]
    | _ => simp [word] at hword
  | .assignment x v, m, hn, hm, h => by
    have hword := word_of_outline h
    cases m with
    | assignment x' v' =>
      simp only [slots, List.forall_mem_cons] at hn hm
      simp only [outline, Outline.mk.injEq, List.cons.injEq, and_true] at h
      have hx : x = x' := by simpa using h.1
      rw [forgetSpans, forgetSpans, hx, outline_injective hn.2.2 hm.2.2 h.2]
    | _ => simp [word] at hword
  | .garbage t, m, hn, hm, h => by
    have hword := word_of_outline h
    cases m with
    | garbage u =>
      simp only [slots, List.forall_mem_cons] at hn hm
      have hdisplay : t.display = u.display := by simpa [outline] using h
      obtain ⟨hk, hx⟩ := Token.display_injective hn.1.2 hm.1.2 hdisplay
      rw [forgetSpans, forgetSpans, hk, hx]
    | _ => simp [word] at hword
/-- Nodes are told apart one by one. -/
theorem nodes_injective : ∀ {ns ms : List Node}, (∀ s ∈ nodeSlots ns, s.OnLine) →
    (∀ s ∈ nodeSlots ms, s.OnLine) → nodeOutlines ns = nodeOutlines ms →
    forgetNodeSpans ns = forgetNodeSpans ms
  | [], [], _, _, _ => rfl
  | [], _ :: _, _, _, h => by simp [nodeOutlines] at h
  | _ :: _, [], _, _, h => by simp [nodeOutlines] at h
  | n :: ns, m :: ms, hn, hm, h => by
    simp only [nodeSlots, List.forall_mem_append] at hn hm
    simp only [nodeOutlines, List.cons.injEq] at h
    rw [forgetNodeSpans, forgetNodeSpans, outline_injective hn.1 hm.1 h.1,
      nodes_injective hn.2 hm.2 h.2]
/-- A branch is printed with a line of its own, so that it is told from none. -/
theorem else_injective : ∀ {b b' : Option (List Node)}, (∀ s ∈ elseSlots b, s.OnLine) →
    (∀ s ∈ elseSlots b', s.OnLine) → elseOutlines b = elseOutlines b' →
    forgetElseSpans b = forgetElseSpans b'
  | none, none, _, _, _ => rfl
  | none, some _, _, _, h => by simp [elseOutlines] at h
  | some _, none, _, _, h => by simp [elseOutlines] at h
  | some b, some b', hb, hb', h => by
    simp only [elseSlots, List.forall_mem_append, List.forall_mem_cons] at hb hb'
    simp only [elseOutlines, List.cons.injEq, Outline.mk.injEq, true_and, and_true] at h
    rw [forgetElseSpans, forgetElseSpans, nodes_injective hb.1.2.2 hb'.1.2.2 h]
end

end Node

theorem map_eq_of_map_eq {α β γ : Type} {f : α → β} {g : α → γ} : ∀ {as bs : List α},
    (∀ a ∈ as, ∀ b ∈ bs, f a = f b → g a = g b) → as.map f = bs.map f → as.map g = bs.map g
  | [], [], _, _ => rfl
  | [], _ :: _, _, h => by simp at h
  | _ :: _, [], _, h => by simp at h
  | a :: as, b :: bs, hg, h => by
    simp only [List.map_cons, List.cons.injEq] at h
    rw [List.map_cons, List.map_cons, hg a List.mem_cons_self b List.mem_cons_self h.1,
      map_eq_of_map_eq (fun a ha b hb => hg a (List.mem_cons_of_mem _ ha) b
        (List.mem_cons_of_mem _ hb)) h.2]

/-- Where no type holds a blank. -/
theorem Parameter.outline_injective {q r : Parameter} (hq : ' ' ∉ q.typeName.toList)
    (hr : ' ' ∉ r.typeName.toList) (h : q.outline = r.outline) : q = r := by
  simp only [outline, Outline.mk.injEq, and_true, String.append_assoc] at h
  have hrest : q.typeName ++ " " ++ q.name = r.typeName ++ " " ++ r.name := by
    simpa [String.append_assoc] using h
  obtain ⟨htype, hname⟩ := blank_injective hq hr hrest
  cases q
  cases r
  cases htype
  cases hname
  rfl

/-- The types of the parameters are words. -/
def Function.TypesAreWords (f : Function) : Prop := ∀ q ∈ f.parameters, ' ' ∉ q.typeName.toList

/-- The parameters come before the block, and no block is printed like a parameter. -/
theorem Function.outline_injective {f g : Function} (hf : ∀ s ∈ f.slots, s.OnLine)
    (hg : ∀ s ∈ g.slots, s.OnLine) (htf : f.TypesAreWords) (htg : g.TypesAreWords)
    (h : f.outline = g.outline) : f.forgetSpans = g.forgetSpans := by
  simp only [slots, blockSlots, ← nodeSlots_eq_flatMap, List.forall_mem_append,
    List.forall_mem_cons] at hf hg
  obtain ⟨-, -, ⟨-, hf⟩, -⟩ := hf
  obtain ⟨-, -, ⟨-, hg⟩, -⟩ := hg
  simp only [outline, Outline.mk.injEq] at h
  obtain ⟨hname, hunder⟩ := h
  obtain ⟨hparameters, hblock⟩ := List.append_inj' hunder rfl
  have hbody : nodeOutlines f.body = nodeOutlines g.body := by simpa using hblock
  have hsame : f.parameters.map id = g.parameters.map id :=
    map_eq_of_map_eq (fun q hq r hr => Parameter.outline_injective (htf q hq) (htg r hr))
      hparameters
  have hnodes := Node.nodes_injective hf hg hbody
  rw [List.map_id, List.map_id] at hsame
  cases f
  cases g
  simp_all [forgetSpans]

/-- **Programs with the same outlines are the same**, up to the spans of garbage. -/
theorem Program.outlines_injective {p q : Program} (hp : ∀ s ∈ p.slots, s.OnLine)
    (hq : ∀ s ∈ q.slots, s.OnLine) (htp : ∀ f ∈ p.functions, f.TypesAreWords)
    (htq : ∀ f ∈ q.functions, f.TypesAreWords) (h : p.outlines = q.outlines) :
    p.forgetSpans = q.forgetSpans := by
  refine congrArg Program.mk (map_eq_of_map_eq (fun f hf g hg => ?_) h)
  have hfs : ∀ s ∈ f.slots, s.OnLine := fun s hs => hp s (List.mem_flatMap_of_mem hf hs)
  have hgs : ∀ s ∈ g.slots, s.OnLine := fun s hs => hq s (List.mem_flatMap_of_mem hg hs)
  exact Function.outline_injective hfs hgs (htp f hf) (htq g hg)

/-! ## 4. Lines are legible -/

/-- A word that is printed as it is, and more after it. -/
theorem Legible.append {word rest : String} (h : Legible word) (hr : '\n' ∉ rest.toList) :
    Legible (word ++ rest) := by
  refine ⟨?_, by simp [h.newline, hr]⟩
  cases hword : word.toList with
  | nil => simpa [hword] using h.head
  | cons c chars => simpa [hword] using h.head

/-- The texts that stand in the line of a node. -/
def Node.texts : Node → List String
  | .identifier x => [x]
  | .literal _ v => [v]
  | .call f _ => [f]
  | .assignment x _ => [x]
  | .garbage t => [t.text]
  | .conditional .. | .returned _ | .binary .. => []

/-- The label of a node starts with a letter, and stays on its line where its texts do. -/
theorem Node.legible_label {n : Node} (h : ∀ t ∈ n.texts, '\n' ∉ t.toList) :
    Legible n.outline.label := by
  cases n with
  | conditional c t e =>
    show Legible "If"
    exact ⟨by decide, by decide⟩
  | returned v =>
    show Legible "Return"
    exact ⟨by decide, by decide⟩
  | binary l o r =>
    have hsymbol : '\n' ∉ o.symbol.toList := by cases o <;> decide
    exact .append ⟨by decide, by decide⟩ hsymbol
  | identifier x => exact .append ⟨by decide, by decide⟩ (h _ List.mem_cons_self)
  | literal k v =>
    have hname := not_mem_of_isAlpha k.isAlpha_name (by decide : ('\n').isAlpha = false)
    have hkind : Legible ("Literal " ++ k.name) := .append ⟨by decide, by decide⟩ hname
    exact .append (hkind.append (by decide)) (h _ List.mem_cons_self)
  | call f as => exact .append ⟨by decide, by decide⟩ (h _ List.mem_cons_self)
  | assignment x v => exact .append ⟨by decide, by decide⟩ (h _ List.mem_cons_self)
  | garbage t =>
    have hname := not_mem_of_isAlpha t.kind.isAlpha_name (by decide : ('\n').isAlpha = false)
    have htext : '\n' ∉ t.text.toList := h _ List.mem_cons_self
    have hdisplay : '\n' ∉ t.display.toList := by
      unfold Token.display
      split <;> simp [hname, htext]
    exact .append ⟨by decide, by decide⟩ hdisplay

theorem Parameter.legible_label {q : Parameter} (ht : '\n' ∉ q.typeName.toList)
    (hn : '\n' ∉ q.name.toList) : Legible q.outline.label := by
  have htype : Legible ("Parameter " ++ q.typeName) := .append ⟨by decide, by decide⟩ ht
  exact .append (htype.append (by decide)) hn

/-- All lines of the outlines are legible, wherever they stand. -/
def Readable (os : List Outline) : Prop :=
  ∀ depth, ∀ l ∈ outlineLines depth os, Legible l.content

theorem readable_nil : Readable [] := by simp [Readable, outlineLines]

/-- Outlines are read one after the other. -/
theorem Readable.append {os os' : List Outline} (h : Readable os) (h' : Readable os') :
    Readable (os ++ os') := by
  intro depth
  rw [outlineLines_append]
  exact List.forall_mem_append.mpr ⟨h depth, h' depth⟩

theorem Readable.headed {label : String} {under : List Outline} (hl : Legible label)
    (h : Readable under) : Readable [.mk label under] := by
  intro depth
  rw [outlineLines, outlineLines, List.append_nil]
  exact List.forall_mem_cons.mpr ⟨hl, h (depth + 1)⟩

theorem readable_map {α : Type} {outline : α → Outline} : ∀ {as : List α},
    (∀ a ∈ as, Readable [outline a]) → Readable (as.map outline)
  | [], _ => readable_nil
  | a :: _, h =>
    (h a List.mem_cons_self).append (readable_map fun b hb => h b (List.mem_cons_of_mem a hb))

namespace Node

mutual
/-- What is printed of a node can be read back, if the texts in it are on one line each. -/
theorem readable : ∀ n : Node, (∀ s ∈ n.slots, s.OnLine) → Readable [n.outline]
  | .conditional c t e, h => by
    simp only [slots, List.forall_mem_append, List.forall_mem_cons] at h
    obtain ⟨⟨⟨-, hc⟩, -, ht⟩, -, he⟩ := h
    have hthen : Readable [.mk "Block" (nodeOutlines t)] :=
      .headed ⟨by decide, by decide⟩ (readable_nodes t ht)
    exact .headed ⟨by decide, by decide⟩
      ((readable c hc).append (hthen.append (readable_else e he)))
  | .returned v, h => by
    simp only [slots, List.forall_mem_cons] at h
    exact .headed ⟨by decide, by decide⟩ (readable v h.2)
  | .binary l o r, h => by
    simp only [slots, List.forall_mem_append, List.forall_mem_cons] at h
    exact .headed (legible_label (n := .binary l o r) nofun)
      ((readable l h.1).append (readable r h.2.2))
  | .identifier x, h => by
    have hx : '\n' ∉ x.toList := h _ List.mem_cons_self
    exact .headed (legible_label (n := .identifier x) (List.forall_mem_singleton.mpr hx))
      readable_nil
  | .literal k v, h => by
    have hv : '\n' ∉ v.toList := h _ List.mem_cons_self
    exact .headed (legible_label (n := .literal k v) (List.forall_mem_singleton.mpr hv))
      readable_nil
  | .call f as, h => by
    simp only [slots, List.forall_mem_append, List.forall_mem_cons] at h
    exact .headed (legible_label (n := .call f as) (List.forall_mem_singleton.mpr h.1.1))
      (readable_nodes as h.1.2.2)
  | .assignment x v, h => by
    simp only [slots, List.forall_mem_cons] at h
    exact .headed (legible_label (n := .assignment x v) (List.forall_mem_singleton.mpr h.1))
      (readable v h.2.2)
  | .garbage t, h => by
    have ht : Slot.OnLine (.token t) := h _ List.mem_cons_self
    exact .headed (legible_label (n := .garbage t) (List.forall_mem_singleton.mpr ht.1))
      readable_nil
theorem readable_nodes : ∀ ns : List Node, (∀ s ∈ nodeSlots ns, s.OnLine) →
    Readable (nodeOutlines ns)
  | [], _ => readable_nil
  | n :: ns, h => by
    simp only [nodeSlots, List.forall_mem_append] at h
    exact (readable n h.1).append (readable_nodes ns h.2)
theorem readable_else : ∀ b : Option (List Node), (∀ s ∈ elseSlots b, s.OnLine) →
    Readable (elseOutlines b)
  | none, _ => readable_nil
  | some b, h => by
    simp only [elseSlots, List.forall_mem_append, List.forall_mem_cons] at h
    exact .headed ⟨by decide, by decide⟩
      (.headed ⟨by decide, by decide⟩ (readable_nodes b h.1.2.2))
end

end Node

theorem Parameter.readable {q : Parameter} (h : ∀ s ∈ q.slots, s.OnLine) :
    Readable [q.outline] := by
  simp only [slots, List.forall_mem_cons] at h
  exact .headed (legible_label h.1 h.2.1) readable_nil

theorem Function.readable {f : Function} (h : ∀ s ∈ f.slots, s.OnLine) : Readable [f.outline] := by
  simp only [slots, blockSlots, ← nodeSlots_eq_flatMap, List.forall_mem_append,
    List.forall_mem_cons] at h
  obtain ⟨⟨-, hname, -, hparameters⟩, -, ⟨-, hbody⟩, -⟩ := h
  have hall : ∀ q ∈ f.parameters, Readable [q.outline] := fun q hq =>
    Parameter.readable fun s hs => hparameters s (List.mem_flatMap_of_mem hq hs)
  have hblock : Readable [.mk "Block" (nodeOutlines f.body)] :=
    .headed ⟨by decide, by decide⟩ (Node.readable_nodes f.body hbody)
  exact .headed (.append ⟨by decide, by decide⟩ hname) ((readable_map hall).append hblock)

theorem Program.readable {p : Program} (h : ∀ s ∈ p.slots, s.OnLine) : Readable p.outlines :=
  readable_map fun _ hf => Function.readable fun s hs => h s (List.mem_flatMap_of_mem hf hs)

/-! ## 5. Trees of texts -/

/-- A token of a text is a lexeme, or the end of the text. -/
theorem spelling_of_mem_lex {path source : String} {t : Token}
    (h : t ∈ (lex path source).tokens) :
    Lexeme.Spelling t.kind t.written ∨ t.kind = .eof ∧ t.text = "" := by
  rw [lex_tokens] at h
  rcases List.mem_append.mp h with h | h
  · obtain ⟨p, hp, ht⟩ := List.mem_filterMap.mp h
    have hs := mem_segments_of_mem_placed hp
    have hw := (written_of_token? hs ht).2.1
    obtain ⟨left, rest, hf⟩ := exists_first_of_mem_segments hs
    have hstands := Segment.stands_of_first? hf
    obtain ⟨offset, s⟩ := p
    cases hstands with
    | lexeme hk =>
      cases ht
      rw [hw]
      exact .inl hk
    | _ => cases ht
  · cases List.mem_singleton.mp h
    exact .inr ⟨rfl, rfl⟩

/-- The text of a token is a part of how it is written. -/
theorem Token.mem_written {t : Token} {c : Char} (h : c ∈ t.text.toList) : c ∈ t.written := by
  unfold written Lexeme.written
  split <;> simp [h]

theorem not_mem_newline_of_mem_lex {path source : String} {t : Token}
    (h : t ∈ (lex path source).tokens) : '\n' ∉ t.text.toList := by
  rcases spelling_of_mem_lex h with hs | ⟨-, ht⟩
  · exact fun hmem => hs.not_mem_newline (Token.mem_written hmem)
  · simp [ht]

/-- A name holds no blank. -/
theorem Lexeme.Spelling.not_mem_blank {k : Kind} {chars : List Char} (h : Spelling k chars)
    (hk : k = .identifier) : ' ' ∉ chars := by
  cases h with
  | symbol hs =>
    subst hk
    cases hs
  | @identifier c word hc hw =>
    rw [List.mem_cons, not_or]
    refine ⟨?_, fun hm => absurd (hw _ hm) (by decide)⟩
    rintro rfl
    exact absurd hc (by decide)
  | integer => cases hk
  | float => cases hk
  | @quoted q => cases q <;> cases hk

theorem not_mem_blank_of_mem_lex {path source : String} {t : Token}
    (h : t ∈ (lex path source).tokens) (hk : t.kind = .identifier) : ' ' ∉ t.text.toList := by
  rcases spelling_of_mem_lex h with hs | ⟨-, ht⟩
  · exact fun hmem => hs.not_mem_blank hk (Token.mem_written hmem)
  · simp [ht]

namespace Parser

section
variable {α : Type} {stack : List Rule} {c c' : Cursor} {es : List Event}

/-- Each item of a loop is read at a lookahead that passes the test. -/
theorem repeatWhile_item {item : Parser α} {test : Kind → Bool} (hitem : Composed item) :
    ∀ {n c es as}, (repeatWhile test item n).run stack c = .ok ⟨.ok as, es, c'⟩ →
      ∀ a ∈ as, ∃ t rest es₁ c₁, t :: rest <:+ c ∧ test t.kind = true ∧
        item.run stack (t :: rest) = .ok ⟨.ok a, es₁, c₁⟩
  | n, c, es, as, h, b, hb => by
    obtain ⟨t, rest, rfl, ⟨-, rfl, -, -⟩ | ⟨ht, m, a, as', es₁, c₁, es₂, -, rfl, -, ha, has⟩⟩ :=
      run_repeatWhile_cases h
    · cases hb
    · rcases List.mem_cons.mp hb with rfl | hb
      · exact ⟨t, rest, es₁, c₁, List.suffix_rfl, ht, ha⟩
      · obtain ⟨u, rest', es', c'', hsuffix, hu, hrun⟩ := repeatWhile_item hitem has b hb
        have hc : c₁ <:+ t :: rest := ⟨passed es₁, (hitem.trail ha).eq_append.symm⟩
        exact ⟨u, rest', es', c'', hsuffix.trans hc, hu, hrun⟩

/-- The type of a parameter is the name that it is read at. -/
theorem typeName_of_run {t : Token} {q : Parameter} (ht : t.kind = .identifier)
    (h : parameter.run stack (t :: c) = .ok ⟨.ok q, es, c'⟩) : q.typeName = t.text := by
  obtain ⟨u, rest, ⟨o, es, c'⟩, hc, hb, hr⟩ := run_inRule_cases h
  cases hc
  cases hr
  obtain ⟨typeName, es₁, c₁, es₂, h₁, h₂, -⟩ := run_bind_success hb
  obtain ⟨name, es₃, c₃, es₄, -, h₃, -⟩ := run_bind_success h₂
  cases h₃
  obtain ⟨v, es₅, c₅, es₆, h₄, h₅, -⟩ := run_bind_success h₁
  cases h₅
  cases run_eatBefore_cases h₄ with
  | found => rfl
  | standIn hne => exact absurd ht hne
  | missing hne => exact absurd ht hne

/-- **The type of every parameter is a name of the text.** -/
theorem exists_typeName {bound : Nat} {f : Function}
    (h : (functionDecl bound).run stack c = .ok ⟨.ok f, es, c'⟩) :
    ∀ q ∈ f.parameters, ∃ t ∈ c, t.kind = .identifier ∧ q.typeName = t.text := by
  intro q hq
  obtain ⟨u, rest, ⟨o, es, c'⟩, rfl, h₁, hr⟩ := run_inRule_cases h
  cases hr
  obtain ⟨_, es₁, c₁, _, hfunc, h₂, rfl⟩ := run_bind_success h₁
  obtain ⟨_, es₂, c₂, _, hname, h₃, rfl⟩ := run_bind_success h₂
  obtain ⟨_, es₃, c₃, _, hopen, h₄, rfl⟩ := run_bind_success h₃
  obtain ⟨qs, es₄, c₄, _, hparameters, h₅, rfl⟩ := run_bind_success h₄
  obtain ⟨_, es₅, c₅, _, -, h₆, rfl⟩ := run_bind_success h₅
  obtain ⟨_, es₆, c₆, _, -, h₇, rfl⟩ := run_bind_success h₆
  cases h₇
  obtain ⟨t, rest', es', c'', hsuffix, ht, hrun⟩ :=
    repeatWhile_item .parameter (run_of_many hparameters) q hq
  have hk : t.kind = .identifier := by simpa using ht
  refine ⟨t, ?_, hk, typeName_of_run hk hrun⟩
  rw [((Composed.eat _).trail hfunc).eq_append,
    ((Composed.name _ (by decide)).trail hname).eq_append,
    ((Composed.eatBefore _ _ (by decide)).trail hopen).eq_append]
  simp [hsuffix.subset List.mem_cons_self]

/-- The type of a parameter is the text of a name, as a parameter is begun before a name only, and
names hold no blank. -/
theorem typesAreWords_of_run {bound : Nat} {p : Program}
    (hc : ∀ t ∈ c, t.kind = .identifier → ' ' ∉ t.text.toList)
    (h : (program bound).run stack c = .ok ⟨.ok p, es, c'⟩) :
    ∀ f ∈ p.functions, f.TypesAreWords := by
  intro f hf q hq
  obtain ⟨u, rest, ⟨o, es, c'⟩, rfl, hb, hr⟩ := run_inRule_cases h
  cases hr
  obtain ⟨fs, es₁, c₁, es₂, hloop, hlast, -⟩ := run_bind_success hb
  cases hlast
  rw [run_many] at hloop
  obtain ⟨t, rest', es', c'', hsuffix, -, hrun⟩ :=
    repeatWhile_item (.functionDecl bound) hloop f hf
  obtain ⟨v, hv, hk, htype⟩ := exists_typeName hrun q hq
  rw [htype]
  exact hc v (hsuffix.subset hv) hk

end
end Parser

/-- All texts in a tree are texts of tokens, and garbage is none at the end of the text. -/
theorem onLine_slots {path source : String} {p : Program}
    (h : (lex path source).run.outcome = .ok p) : ∀ s ∈ p.slots, s.OnLine := by
  intro s hs
  obtain ⟨-, hedited⟩ := edited_of_tree h
  obtain ⟨t, ht, hslot⟩ := hedited.exists_token s hs
  rw [List.append_nil] at ht
  have hmem : t ∈ (lex path source).tokens := by
    rw [(lex path source).trail_run.eq_append]
    exact List.mem_append_left _ ht
  have hline := not_mem_newline_of_mem_lex hmem
  cases s with
  | fixed => trivial
  | text k x =>
    have hx : t.text = x := hslot.elim And.right id
    exact hx ▸ hline
  | token u =>
    obtain rfl : t = u := hslot.elim id False.elim
    exact ⟨hline, kind_ne_eof_of_mem_passed ht⟩

/-- So it is for every tree that comes from a text. -/
theorem typesAreWords {path source : String} {p : Program}
    (h : (lex path source).run.outcome = .ok p) : ∀ f ∈ p.functions, f.TypesAreWords :=
  Parser.typesAreWords_of_run (fun _ => not_mem_blank_of_mem_lex)
    (TokenStream.program_run_of_tree h)

/-! ## 6. Programs -/

/-- **Printed trees can be told apart.**  Two texts are parsed to trees, whether or not
mismatches were recorded.  If the trees are printed alike, with the same indentation, they are
the same but for the spans in garbage. -/
theorem print_injective {path path' source source' text : String} {p q : Program} {indent : Nat}
    (hindent : 0 < indent) (hp : (lex path source).run.outcome = .ok p)
    (hq : (lex path' source').run.outcome = .ok q) (htext : p.print indent = .ok text)
    (htext' : q.print indent = .ok text) : p.forgetSpans = q.forgetSpans := by
  have hsp := onLine_slots hp
  have hsq := onLine_slots hq
  have houtlines := outlines_of_print hindent (Program.readable hsp 0) (Program.readable hsq 0)
    htext htext'
  exact Program.outlines_injective hsp hsq (typesAreWords hp) (typesAreWords hq) houtlines

/-- The name is missing, so that the function is named by a parenthesis, and what is returned is
garbage, which stands elsewhere in the second text. -/
theorem print_injective_garbage :
    let source := "func()\x7breturn,\x7d"
    let text := "FunctionDecl (\n Block\n  Return\n   Garbage Comma ','\n"
    let tree (offset : Nat) : Program :=
      ⟨[⟨"(", [], [.returned (.garbage ⟨.comma, ",", ⟨offset, 1⟩⟩)]⟩]⟩
    (lex "a" source).run.outcome = .ok (tree 13) ∧
      (lex "b" (" " ++ source)).run.outcome = .ok (tree 14) ∧ tree 13 ≠ tree 14 ∧
      (tree 13).print 1 = .ok text ∧ (tree 14).print 1 = .ok text ∧
      (tree 13).forgetSpans = (tree 14).forgetSpans := by
  intro source text tree
  let tokens (n : Nat) : List Token := [⟨.keywordFunc, "func", ⟨n, 4⟩⟩,
    ⟨.openParenthesis, "(", ⟨n + 4, 1⟩⟩, ⟨.closeParenthesis, ")", ⟨n + 5, 1⟩⟩,
    ⟨.openScope, "\x7b", ⟨n + 6, 1⟩⟩, ⟨.keywordReturn, "return", ⟨n + 7, 6⟩⟩,
    ⟨.comma, ",", ⟨n + 13, 1⟩⟩, ⟨.closeScope, "\x7d", ⟨n + 14, 1⟩⟩, .eof (n + 15)]
  have hp : (lex "a" source).run.outcome = .ok (tree 13) := by
    have htokens : (lex "a" source).tokens =
        (TokenStream.ofTokens "a" (tokens 0) .empty []).tokens := by
      rw [lex_tokens, segments_eq_firstSegments (n := 15) (by decide)]
      decide
    rw [TokenStream.run_congr htokens]
    decide
  have hq : (lex "b" (" " ++ source)).run.outcome = .ok (tree 14) := by
    have htokens : (lex "b" (" " ++ source)).tokens =
        (TokenStream.ofTokens "b" (tokens 1) .empty []).tokens := by
      rw [lex_tokens, segments_eq_firstSegments (n := 16) (by decide)]
      decide
    rw [TokenStream.run_congr htokens]
    decide
  have htext : (tree 13).print 1 = .ok text := by decide
  have htext' : (tree 14).print 1 = .ok text := by decide
  exact ⟨hp, hq, by decide, htext, htext', print_injective (by decide) hp hq htext htext'⟩

end FrontEnd

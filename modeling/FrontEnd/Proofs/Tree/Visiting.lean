/-
# Walks visit everything once, in pre-order

Every construct has its own way of walking to what is below it, and each of these has to name all
children, in the order of the source, and to stop where one of them fails.  A visitor acts at some
constructs only, and the walk goes on below the others as well.  A slip in one of the ways shows
only in a tree of that shape, walked by a visitor that acts or fails below it.

So what the walk visits is compared with the tree itself.  `Construct.below` says what is directly
below a construct, and nothing of the order in which anything is done; `PreOrder` says what it means
to list all that can be reached that way.  And what a visitor does on a walk is compared with what
it does along that list, where failing means that nothing after it is done.

* `Program.walk_eq_forM`: in every lawful monad the walk acts along a list of constructs;
* `lists_program`: that list goes through the tree;
* `Visitor.acts_forM`: acting along a list ends with the first action that fails;
* `accept_preOrder`: what a visitor does on a walk.
-/
import FrontEnd.Proofs.Tree.PreOrder
import FrontEnd.Tree.Walk

namespace FrontEnd

/-! ## 1. What is below a construct -/

/-- What is directly below a construct, in the order of the source.  The target of an assignment
is an identifier before its value, and a node has the construct that it is below it. -/
def Construct.below : Construct → List Construct
  | program p => p.functions.map function
  | function f => f.parameters.map parameter ++ [block f.body]
  | parameter _ => []
  | block b => b.map node
  | node n => [n.construct]
  | conditional condition thenBranch elseBranch =>
    node condition :: block thenBranch :: (elseBranch.map block).toList
  | returned value => [node value]
  | binary left _ right => [node left, node right]
  | identifier _ => []
  | literal .. => []
  | call _ arguments => arguments.map node
  | assignment target value => [identifier target, node value]
  | garbage _ => []

mutual
/-- The constructs of a node and below it, in the order of a walk. -/
def Node.constructs : Node → List Construct
  | n@(.conditional condition thenBranch elseBranch) =>
    .node n :: n.construct ::
      (condition.constructs ++ .block thenBranch :: nodesConstructs thenBranch
        ++ elseConstructs elseBranch)
  | n@(.returned value) => .node n :: n.construct :: value.constructs
  | n@(.binary left _ right) => .node n :: n.construct :: (left.constructs ++ right.constructs)
  | n@(.call _ arguments) => .node n :: n.construct :: nodesConstructs arguments
  | n@(.assignment target value) =>
    .node n :: n.construct :: .identifier target :: value.constructs
  | n@(.identifier _) => [.node n, n.construct]
  | n@(.literal ..) => [.node n, n.construct]
  | n@(.garbage _) => [.node n, n.construct]
def nodesConstructs : List Node → List Construct
  | [] => []
  | n :: ns => n.constructs ++ nodesConstructs ns
def elseConstructs : Option (List Node) → List Construct
  | none => []
  | some b => .block b :: nodesConstructs b
end

def Function.constructs (f : Function) : List Construct :=
  .function f :: (f.parameters.map .parameter ++ .block f.body :: nodesConstructs f.body)

def Program.constructs (p : Program) : List Construct :=
  .program p :: p.functions.flatMap Function.constructs

/-! ## 2. The list goes through the tree -/

/-- A construct with nothing below it is listed alone. -/
theorem lists_leaf {c : Construct} (h : c.below = []) : Lists Construct.below [c] [c] := by
  refine .single ?_
  rw [h]
  exact .nil

/-- A node is gone through by going through the construct that it is. -/
theorem lists_node_of_construct {n : Node} {inner : List Construct}
    (h : Lists Construct.below n.construct.below inner) :
    Lists Construct.below [.node n] (.node n :: n.construct :: inner) :=
  .single (.single h)

mutual
/-- **The constructs of a node are its pre-order**, by its form. -/
theorem lists_node : ∀ n : Node, Lists Construct.below [.node n] n.constructs
  | .conditional c t e => by
    have hthen : Lists Construct.below [.block t] (.block t :: nodesConstructs t) :=
      .single (lists_nodes t)
    exact lists_node_of_construct (((lists_node c).append hthen).append (lists_else e))
  | .returned v => lists_node_of_construct (lists_node v)
  | .binary l _ r => lists_node_of_construct ((lists_node l).append (lists_node r))
  | .call _ as => lists_node_of_construct (lists_nodes as)
  | .assignment _ v => lists_node_of_construct ((lists_leaf rfl).append (lists_node v))
  | .identifier _ => lists_node_of_construct .nil
  | .literal _ _ => lists_node_of_construct .nil
  | .garbage _ => lists_node_of_construct .nil
theorem lists_nodes : ∀ ns : List Node,
    Lists Construct.below (ns.map .node) (nodesConstructs ns)
  | [] => .nil
  | n :: ns => (lists_node n).append (lists_nodes ns)
theorem lists_else : ∀ b : Option (List Node),
    Lists Construct.below (b.map Construct.block).toList (elseConstructs b)
  | none => .nil
  | some b => .single (lists_nodes b)
end

theorem lists_function (f : Function) :
    Lists Construct.below [.function f] f.constructs := by
  have hparameters : Lists Construct.below (f.parameters.map .parameter)
      (f.parameters.flatMap fun q => [.parameter q]) :=
    .flatMap (fun _ => lists_leaf rfl) f.parameters
  rw [← List.map_eq_flatMap] at hparameters
  exact .single (hparameters.append (.single (lists_nodes f.body)))

/-- **The constructs of a program go through its tree.** -/
theorem lists_program (p : Program) : Lists Construct.below [.program p] p.constructs :=
  .single (.flatMap lists_function p.functions)

/-! ## 3. The walk acts along the list -/

section
variable {m : Type → Type} [Monad m] (act : Construct → m Unit)

theorem forM_flatMap [LawfulMonad m] {α : Type} (list : α → List Construct) (as : List α) :
    (as.flatMap list).forM act = as.forM fun a => (list a).forM act := by
  induction as with
  | nil => rfl
  | cons a as ih =>
    simp only [List.forM_eq_forM] at ih
    simp [ih]

mutual
/-- **Walking a node is acting at its constructs**, one after the other. -/
theorem Node.walk_eq_forM [LawfulMonad m] : ∀ n : Node, n.walk act = n.constructs.forM act
  | .conditional c t e => by
    simp [Node.walk, Node.constructs, Node.walk_eq_forM c, walkNodes_eq_forM t, walkElse_eq_forM e]
  | .returned v => by simp [Node.walk, Node.constructs, Node.walk_eq_forM v]
  | .binary l _ r => by
    simp [Node.walk, Node.constructs, Node.walk_eq_forM l, Node.walk_eq_forM r]
  | .call _ as => by simp [Node.walk, Node.constructs, walkNodes_eq_forM as]
  | .assignment _ v => by simp [Node.walk, Node.constructs, Node.walk_eq_forM v]
  | .identifier _ => by simp [Node.walk, Node.constructs]
  | .literal _ _ => by simp [Node.walk, Node.constructs]
  | .garbage _ => by simp [Node.walk, Node.constructs]
theorem walkNodes_eq_forM [LawfulMonad m] :
    ∀ ns : List Node, walkNodes act ns = (nodesConstructs ns).forM act
  | [] => by simp [walkNodes, nodesConstructs]
  | n :: ns => by simp [walkNodes, nodesConstructs, Node.walk_eq_forM n, walkNodes_eq_forM ns]
theorem walkElse_eq_forM [LawfulMonad m] : ∀ b : Option (List Node),
    walkElse act b = (elseConstructs b).forM act
  | none => by simp [walkElse, elseConstructs]
  | some b => by simp [walkElse, elseConstructs, walkNodes_eq_forM b]
end

theorem Function.walk_eq_forM [LawfulMonad m] (f : Function) :
    f.walk act = f.constructs.forM act := by
  simp [Function.walk, Function.constructs, walkBlock, walkNodes_eq_forM]

/-- **In every lawful monad the walk acts along the constructs of the program.** -/
theorem Program.walk_eq_forM [LawfulMonad m] (p : Program) :
    p.walk act = p.constructs.forM act := by
  have hfunctions := forM_flatMap act Function.constructs p.functions
  simp only [List.forM_eq_forM] at hfunctions
  simp [Program.walk, Program.constructs, Function.walk_eq_forM, hfunctions]

end

/-! ## 4. Visitors -/

/-- One who walks a tree, with a state of type `σ`: where it acts, and what it does there.  An
action fails with an error of type `ε` or lets the walk go on; what it did to the state stays. -/
structure Visitor (σ ε : Type) where
  overrides : Construct → Bool
  action : Construct → σ → Except ε Unit × σ

section
variable {σ ε : Type}

namespace Visitor

/-- What the visitor does at a construct on a walk: nothing where it does not act. -/
def act (v : Visitor σ ε) (c : Construct) : ExceptT ε (StateM σ) Unit :=
  if v.overrides c then .mk fun s => pure (v.action c s) else pure ()

/-- The visitor acts at these constructs, one after the other, and at no others.  If the outcome is
an error, it is that of the last action; the actions before it, or else all of them, succeeded. -/
inductive Acts (v : Visitor σ ε) : σ → List Construct → Except ε Unit → σ → Prop
  | done (s : σ) : Acts v s [] (.ok ()) s
  | failed {c : Construct} {e : ε} {s s' : σ} :
      v.action c s = (.error e, s') → Acts v s [c] (.error e) s'
  | acted {c : Construct} {cs : List Construct} {outcome : Except ε Unit} {s s' s'' : σ} :
      v.action c s = (.ok (), s') → Acts v s' cs outcome s'' → Acts v s (c :: cs) outcome s''

end Visitor

/-- How the walk of a visitor that starts in this state ends, and its state then. -/
def Program.accept (p : Program) (v : Visitor σ ε) (s : σ) : Except ε Unit × σ :=
  (p.walk v.act).run.run s

namespace Visitor

/-- Where the visitor does not act nothing happens. -/
theorem run_forM_of_silent {v : Visitor σ ε} {c : Construct} (h : v.overrides c = false)
    (cs : List Construct) (s : σ) :
    ((c :: cs).forM v.act).run.run s = (cs.forM v.act).run.run s := by
  simp [act, h]

/-- Where it acts it goes on with what the action left, unless that is an error. -/
theorem run_forM_cons {v : Visitor σ ε} {c : Construct} (h : v.overrides c = true)
    (cs : List Construct) (s : σ) :
    ((c :: cs).forM v.act).run.run s =
      ExceptT.bindCont (fun _ => cs.forM v.act) (v.action c s).1 (v.action c s).2 := by
  have hact : v.act c = .mk fun s => pure (v.action c s) := if_pos h
  show (v.act c >>= fun _ => cs.forM v.act).run.run s = _
  rw [hact]
  rfl

/-- **Acting along a list ends with the first action that fails**, or else with the list. -/
theorem acts_forM (v : Visitor σ ε) (cs : List Construct) : ∀ s : σ,
    ∃ n ≤ (cs.filter v.overrides).length,
      v.Acts s ((cs.filter v.overrides).take n) ((cs.forM v.act).run.run s).1
        ((cs.forM v.act).run.run s).2 ∧
      (((cs.forM v.act).run.run s).1 = .ok () → n = (cs.filter v.overrides).length) := by
  induction cs with
  | nil =>
    intro s
    exact ⟨0, Nat.le_refl 0, .done s, fun _ => rfl⟩
  | cons c cs ih =>
    intro s
    cases hc : v.overrides c with
    | false =>
      rw [run_forM_of_silent hc, List.filter_cons_of_neg (by simp [hc])]
      exact ih s
    | true =>
      rw [List.filter_cons_of_pos hc, List.length_cons]
      rcases ha : v.action c s with ⟨_ | _, s'⟩
      · rw [run_forM_cons hc, ha]
        exact ⟨1, Nat.succ_le_succ (Nat.zero_le _), .failed ha, nofun⟩
      · rw [run_forM_cons hc, ha]
        obtain ⟨n, hn, hacts, hok⟩ := ih s'
        exact ⟨n + 1, Nat.succ_le_succ hn, .acted ha hacts, fun h => congrArg (· + 1) (hok h)⟩

end Visitor

/-- **A walk visits everything once, in pre-order, up to the first action that fails.**  The actions
are those at the constructs of the tree where the visitor acts, wherever they are.  The walk does
the first `n` of them and nothing else: all of them if it succeeds, and up to the one that failed
if it does not, whose error is that of the walk. -/
theorem accept_preOrder (p : Program) (v : Visitor σ ε) (s : σ) :
    ∃ visits, PreOrder Construct.below [.program p] visits ∧
      let actions := (visits.map Prod.snd).filter v.overrides
      ∃ n ≤ actions.length, v.Acts s (actions.take n) (p.accept v s).1 (p.accept v s).2 ∧
        ((p.accept v s).1 = .ok () → n = actions.length) := by
  obtain ⟨visits, hvisits, hlist⟩ := (lists_program p).exists_preOrder
  refine ⟨visits, hvisits, ?_⟩
  rw [hlist]
  unfold Program.accept
  rw [p.walk_eq_forM]
  exact v.acts_forM p.constructs s

end
end FrontEnd

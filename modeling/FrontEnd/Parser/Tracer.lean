/-
# Who is told of a parse

A tracer is told of every rule that is entered and of every token that is consumed, when it
happens (the trait `Tracer`).  An observer is a tracer that is told of two things more, of which
the parser itself writes in the log: of each mismatch that is recorded, and of the error that
stops the parse.  Neither answers anything.

What an observer does in the course of a parse is in `Parser.Watch`.  Here is what it does when
it is told of events one after the other.
-/
import FrontEnd.Parser.Basic

namespace FrontEnd

/-- What to do with a state of type `σ` when a rule is entered, at a depth and with a
lookahead, and when a token is consumed. -/
structure Tracer (σ : Type) where
  enter : Rule → Nat → Token → σ → σ
  consume : Token → σ → σ

/-- A tracer that is also told what is written in the log. -/
structure Observer (σ : Type) extends Tracer σ where
  recorded : Diagnostic → σ → σ
  aborting : SyntaxError → σ → σ

namespace Tracer

variable {σ : Type}

/-- Does nothing (`NoTrace`). -/
def silent : Tracer σ where
  enter _ _ _ state := state
  consume _ state := state

/-- Keeps a list of what it was told. -/
def recorder : Tracer (List Event) where
  enter rule depth lookahead events := events ++ [.enter rule depth lookahead]
  consume token events := events ++ [.consume token]

/-- The tracer, with nothing kept of the log. -/
def alone (tracer : Tracer σ) : Observer σ where
  toTracer := tracer
  recorded _ state := state
  aborting _ state := state

/-- The state after one event. -/
def see (tracer : Tracer σ) (state : σ) : Event → σ
  | .enter rule depth lookahead => tracer.enter rule depth lookahead state
  | .consume token => tracer.consume token state
  | .mismatch .. => state

/-- The state after some events. -/
def watch (tracer : Tracer σ) (state : σ) (events : List Event) : σ :=
  events.foldl tracer.see state

/-- A tracer that adds to a list what each event gives adds what they all give. -/
theorem watch_eq_append {α : Type} {tracer : Tracer (List α)} {given : Event → Option α}
    (h : ∀ as e, tracer.see as e = as ++ (given e).toList) (events : List Event) :
    ∀ as, tracer.watch as events = as ++ events.filterMap given := by
  induction events with
  | nil =>
    intro as
    exact (List.append_nil as).symm
  | cons e events ih =>
    intro as
    rw [watch, List.foldl_cons, h, List.filterMap_cons]
    refine (ih _).trans ?_
    cases given e with
    | none => rw [Option.toList_none, List.append_nil]
    | some a => rw [Option.toList_some, List.append_assoc, List.singleton_append]

end Tracer

namespace Observer

variable {σ : Type} (o : Observer σ)

/-- The state after one event. -/
def see (state : σ) : Event → σ
  | .enter rule depth lookahead => o.enter rule depth lookahead state
  | .consume token => o.consume token state
  | .mismatch expected found stack => o.recorded (.ofMismatch expected found stack) state

/-- The state after some events. -/
def watch (state : σ) (events : List Event) : σ := events.foldl o.see state

/-- The state after all that a reply tells of, the error last. -/
def told {α : Type} (state : σ) (r : Reply α) : σ :=
  match r.outcome with
  | .ok _ => o.watch state r.events
  | .error e => o.aborting e (o.watch state r.events)

theorem watch_append (state : σ) (es es' : List Event) :
    o.watch state (es ++ es') = o.watch (o.watch state es) es' :=
  List.foldl_append

/-- Nothing but the calls of the tracer shows where nothing is kept of the log. -/
theorem told_alone {α : Type} (tracer : Tracer σ) (state : σ) (r : Reply α) :
    tracer.alone.told state r = tracer.watch state r.events := by
  have hsee : tracer.alone.see = tracer.see := by
    funext state e
    cases e <;> rfl
  have hwatch : tracer.alone.watch state r.events = tracer.watch state r.events := by
    rw [watch, hsee, Tracer.watch]
  unfold told
  split
  · exact hwatch
  · exact hwatch

end Observer
end FrontEnd

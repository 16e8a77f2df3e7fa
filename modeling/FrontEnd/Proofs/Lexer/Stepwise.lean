/-
# Lexing can be cut anywhere

A lexing under way hands out one token per call of `next`, and `finish` lexes what is left.  So
the same text can be lexed in one go, token by token, or in any mixture of both.  The offset, the
line table, the diagnostics and the mark that the end was handed out are all kept on the way, and
a call may pass over layout and faults before it finds its token, or finds none and hands out the
end; nothing of this may get lost at the cut, or be noted on both sides of it.

What is left of a lexing is the list `rest`, together with the lexing after it.  A call takes the
first token off that list and leaves the lexing after it as it is, so the argument is about lists
from there on.

* `drain_eq_cons`: seeking one token and draining what is left is draining everything;
* `rest_of_next`: one call;
* `calls_spec`: any number of calls;
* `lex_stepwise`: cutting a lexing after any number of calls changes nothing.
-/
import FrontEnd.Proofs.Lexer.Partition

namespace FrontEnd
namespace Lexer

/-! ## 1. One call -/

/-- **Seeking one token and draining what is left is draining everything.**  Segments that give
no token are passed over on either way, so the recursion is that of `seek`. -/
theorem drain_eq_cons : ∀ (segs : List Segment) (l : Lexer), l.finished = false →
    let (token, after) := l.seek segs
    l.drain segs = (token :: (after.handOut token).rest.1, (after.handOut token).rest.2)
  | [], _, _ => rfl
  | s :: segs, l, hl => by
    unfold drain seek
    cases ht : s.token? l.offset with
    | some token =>
      have hafter : ((l.pass s segs).handOut token).rest =
          ((l.pass s segs).handOut token).drain segs := if_neg (by simpa [handOut, pass] using hl)
      simp only [hafter]
      rfl
    | none =>
      simp only [handOut_none]
      exact drain_eq_cons segs (l.pass s segs) hl

/-- A finished lexing hands out nothing and stays as it is. -/
theorem next_of_finished {l : Lexer} (hl : l.finished = true) : l.next = (none, l) := by
  unfold next
  rw [if_pos hl]

theorem rest_of_finished {l : Lexer} (hl : l.finished = true) : l.rest = ([], l) := by
  unfold rest
  rw [if_pos hl]

/-- **A call takes the first token off what is left.** -/
theorem rest_of_next {l : Lexer} (hl : l.finished = false) :
    ∃ token, l.next.1 = some token ∧
      l.rest = (token :: l.next.2.rest.1, l.next.2.rest.2) := by
  have hdrain := drain_eq_cons l.pending l hl
  refine ⟨(l.seek l.pending).1, ?_, ?_⟩
  · simp [next, hl]
  · simp only [next, hl]
    exact (if_neg (by simp [hl])).trans hdrain

/-- As long as the end was not handed out it is left, and it is the last thing left. -/
theorem endsWithEof_rest {l : Lexer} (hl : l.finished = false) : EndsWithEof l.rest.1 := by
  have hrest : l.rest = l.drain l.pending := if_neg (by simp [hl])
  rw [hrest, drain_fst]
  exact ⟨_, by rw [List.getLast?_concat]; rfl, rfl⟩

/-! ## 2. Any number of calls -/

/-- The answers to `n` calls, and the lexing after them. -/
def calls (l : Lexer) : Nat → List (Option Token) × Lexer
  | 0 => ([], l)
  | n + 1 =>
    let (answer, after) := l.next
    let (answers, last) := after.calls n
    (answer :: answers, last)

theorem calls_succ (l : Lexer) (n : Nat) :
    l.calls (n + 1) = (l.next.1 :: (l.next.2.calls n).1, (l.next.2.calls n).2) := rfl

/-- Once a lexing is finished every call answers nothing. -/
theorem calls_of_finished {l : Lexer} (hl : l.finished = true) (n : Nat) :
    l.calls n = (List.replicate n none, l) := by
  induction n with
  | zero => rfl
  | succ n ih =>
    rw [calls_succ, next_of_finished hl, ih]
    rfl

/-- **Calls hand out what is left, one token each, and then nothing.**  What they have not handed
out is left, and the lexing after all of it is the same. -/
theorem calls_spec (n : Nat) : ∀ l : Lexer,
    (l.calls n).1 =
      (l.rest.1.take n).map some ++ List.replicate (n - l.rest.1.length) none ∧
    (l.calls n).2.rest = (l.rest.1.drop n, l.rest.2) := by
  induction n with
  | zero =>
    intro l
    exact ⟨by simp [calls], rfl⟩
  | succ n ih =>
    intro l
    cases hl : l.finished with
    | true =>
      rw [calls_of_finished hl, rest_of_finished hl]
      exact ⟨by simp, rfl⟩
    | false =>
      obtain ⟨token, hnext, hrest⟩ := rest_of_next hl
      obtain ⟨hanswers, hleft⟩ := ih l.next.2
      rw [calls_succ, hnext, hrest]
      refine ⟨?_, hleft⟩
      rw [hanswers]
      simp

/-- A lexing of which nothing is left was finished. -/
theorem finished_of_rest {l : Lexer} (h : l.rest.1 = []) : l.finished = true := by
  cases hl : l.finished with
  | true => rfl
  | false =>
    obtain ⟨token, -, hrest⟩ := rest_of_next hl
    rw [hrest] at h
    cases h

/-- The stream of what is left is that of the tokens left, terminated where none is left. -/
theorem tokens_finish (l : Lexer) : l.finish.tokens = terminate l.rest.1 := rfl

end Lexer

/-! ## 3. A cut lexing and the whole one -/

theorem rest_start (path source : String) :
    (Lexer.start path source).rest.1 = (lex path source).tokens :=
  (terminate_eq_self (Lexer.endsWithEof_rest rfl)).symm

/-- The end of a text is its last token and no other, so it is among the first tokens exactly if
these are all of them. -/
theorem exists_eof_take_iff (path source : String) (n : Nat) :
    (∃ t ∈ (lex path source).tokens.take n, t.kind = .eof) ↔
      (lex path source).tokens.length ≤ n := by
  constructor
  · rintro ⟨t, ht, hk⟩
    by_contra hn
    rw [lex_tokens, List.length_append, List.length_singleton] at hn
    rw [lex_tokens, List.take_append_of_le_length (by omega)] at ht
    obtain ⟨p, hp, ht⟩ := List.mem_filterMap.mp (List.mem_of_mem_take ht)
    exact (written_of_token? (mem_segments_of_mem_placed hp) ht).2.2 hk
  · intro hn
    obtain ⟨t, ht, hk⟩ := (lex path source).endsWithEof
    rw [List.take_of_length_le hn]
    exact ⟨t, List.mem_of_getLast? ht, hk⟩

/-- Calls on a fresh lexing answer the first tokens of the text, and leave the others. -/
theorem calls_start (path source : String) (n : Nat) :
    ((Lexer.start path source).calls n).1 =
      ((lex path source).tokens.take n).map some ++
        List.replicate (n - (lex path source).tokens.length) none ∧
    ((Lexer.start path source).calls n).2.rest =
      ((lex path source).tokens.drop n, (Lexer.start path source).rest.2) := by
  have h := (Lexer.start path source).calls_spec n
  rwa [rest_start] at h

theorem mem_calls_start_iff (path source : String) (n : Nat) (t : Token) :
    some t ∈ ((Lexer.start path source).calls n).1 ↔ t ∈ (lex path source).tokens.take n := by
  rw [(calls_start path source n).1, List.mem_append, List.mem_map]
  constructor
  · rintro (⟨u, hu, hut⟩ | hnone)
    · exact Option.some.inj hut ▸ hu
    · cases (List.mem_replicate.mp hnone).2
  · intro ht
    exact .inl ⟨t, ht, rfl⟩

/-- Before the end was handed out it is left, so the stream of what is left holds just that. -/
theorem tokens_finish_of_lt {path source : String} {n : Nat}
    (hn : n < (lex path source).tokens.length) :
    ((Lexer.start path source).calls n).2.finish.tokens = (lex path source).tokens.drop n := by
  have hend : EndsWithEof ((lex path source).tokens.drop n) := by
    obtain ⟨t, ht, hk⟩ := (lex path source).endsWithEof
    refine ⟨t, ?_, hk⟩
    rw [List.getLast?_drop, if_neg (by omega)]
    exact ht
  rw [Lexer.tokens_finish, (calls_start path source n).2, terminate_eq_self hend]

/-- Once the end was handed out nothing is left. -/
theorem rest_of_length_le {path source : String} {n : Nat}
    (hn : (lex path source).tokens.length ≤ n) :
    ((Lexer.start path source).calls n).2.rest.1 = [] := by
  rw [(calls_start path source n).2]
  exact List.drop_of_length_le hn

/-- **Lexing can be cut anywhere.**  After any number of calls on a fresh lexing, what they
answered and what is left make up the lexing of the whole text.  As long as no answer was the end
of the text, each was a token, and the tokens of the stream of what is left go on where the
answers stop.  Once one was, the answers are all tokens of the text and then nothing, all further
calls answer nothing, and no token is left for the stream, which then holds an end at the start
of the text only.  Wherever the cut is, the stream has the lines and the diagnostics of the whole
text. -/
theorem lex_stepwise (path source : String) (n : Nat) :
    let whole := lex path source
    let answers := ((Lexer.start path source).calls n).1
    let after := ((Lexer.start path source).calls n).2
    ((∀ t, some t ∈ answers → t.kind ≠ .eof) →
      ∃ tokens, tokens.length = n ∧ answers = tokens.map some ∧
        tokens ++ after.finish.tokens = whole.tokens) ∧
    ((∃ t, some t ∈ answers ∧ t.kind = .eof) →
      answers = whole.tokens.map some ++ List.replicate (n - whole.tokens.length) none ∧
      (∀ m, after.calls m = (List.replicate m none, after)) ∧
      after.finish.tokens = [.eof 0]) ∧
    after.finish.path = path ∧ after.finish.lines = whole.lines ∧
    after.finish.diagnostics = whole.diagnostics := by
  intro whole answers after
  obtain ⟨hanswers, hleft⟩ := calls_start path source n
  have hmem := mem_calls_start_iff path source n
  have heof := exists_eof_take_iff path source n
  refine ⟨?_, ?_, ?_, ?_, ?_⟩
  · intro hnone
    have hn : n < whole.tokens.length := by
      by_contra hn
      obtain ⟨t, ht, hk⟩ := heof.mpr (Nat.le_of_not_lt hn)
      exact hnone t ((hmem t).mpr ht) hk
    refine ⟨whole.tokens.take n, ?_, ?_, ?_⟩
    · rw [List.length_take]
      omega
    · show ((Lexer.start path source).calls n).1 = _
      rw [hanswers, Nat.sub_eq_zero_of_le (Nat.le_of_lt hn)]
      exact List.append_nil _
    · rw [tokens_finish_of_lt hn]
      exact List.take_append_drop n whole.tokens
  · rintro ⟨t, ht, hk⟩
    have hn : whole.tokens.length ≤ n := heof.mp ⟨t, (hmem t).mp ht, hk⟩
    have hnothing : after.rest.1 = [] := rest_of_length_le hn
    refine ⟨?_, ?_, ?_⟩
    · show ((Lexer.start path source).calls n).1 = _
      rw [hanswers, List.take_of_length_le hn]
    · exact Lexer.calls_of_finished (Lexer.finished_of_rest hnothing)
    · rw [Lexer.tokens_finish, hnothing]
      rfl
  -- the stream is made of the lexing after all that was left
  · show after.rest.2.path = path
    rw [hleft]
    exact lex_path path source
  · show after.rest.2.lines = _
    rw [hleft]
    rfl
  · show after.rest.2.diagnostics = _
    rw [hleft]
    rfl

end FrontEnd

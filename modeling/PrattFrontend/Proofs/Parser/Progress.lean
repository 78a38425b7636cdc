import Mathlib.Tactic.Common
import PrattFrontend.Parser.State

/-!
# Progress of a parser

Whatever a parser does, it never goes back: the current token is the same or a later one, and what
was recorded as an error stays recorded.

* `State.tokensLeft`: the number of tokens before the end of the input, the current one included;
* **`State.Precedes`**: one state comes before another, with its laws for all that a state can do;
* `State.Precedes.tokens_eq`, `State.Precedes.errors_eq`: a run that records nothing recorded
  nothing halfway.
-/

namespace PrattFrontend.State

variable {s t u : State}

/-! ## Tokens ahead -/

/-- The number of tokens that are left, from the current one on. -/
def tokensLeft (s : State) : Nat :=
  s.tokens.ahead.length

@[simp] theorem tokensLeft_advance (s : State) : s.advance.tokensLeft = s.tokensLeft - 1 := by
  simp [tokensLeft]

@[simp] theorem tokensLeft_record (s : State) (e : ParseError) :
    (s.record e).tokensLeft = s.tokensLeft := rfl

theorem kind_get_of_length_le {T : Token.Stream} {i : Nat} (h : T.ahead.length ≤ i) :
    (T.get i).kind = .endOfInput := by
  rw [Token.Stream.get_of_length_le h, Token.kind_endAt]

theorem tokensLeft_pos (h : s.current.kind ≠ .endOfInput) : 0 < s.tokensLeft := by
  by_contra hn
  exact h (kind_get_of_length_le (by unfold tokensLeft at hn; omega))

theorem one_lt_tokensLeft (h : s.next.kind ≠ .endOfInput) : 1 < s.tokensLeft := by
  by_contra hn
  exact h (kind_get_of_length_le (by unfold tokensLeft at hn; omega))

theorem current_of_ahead {x : Token} {xs : List Token} (h : s.tokens.ahead = x :: xs) :
    s.current = x := by
  simp [current, Token.Stream.get, h]

theorem next_of_ahead {x y : Token} {xs : List Token} (h : s.tokens.ahead = x :: y :: xs) :
    s.next = y := by
  simp [next, Token.Stream.get, h]

theorem ahead_advance_of_ahead {x : Token} {xs : List Token} (h : s.tokens.ahead = x :: xs) :
    s.advance.tokens.ahead = xs := by
  simp [h]

theorem ahead_eq_cons (h : s.current.kind ≠ .endOfInput) :
    s.tokens.ahead = s.current :: s.advance.tokens.ahead := by
  cases hs : s.tokens.ahead with
  | nil => exact absurd (kind_get_of_length_le (by rw [hs]; exact Nat.le_refl _)) h
  | cons x xs => rw [current_of_ahead hs, ahead_advance_of_ahead hs]

theorem ahead_advance_eq_cons (h : s.next.kind ≠ .endOfInput) :
    s.advance.tokens.ahead = s.next :: s.advance.advance.tokens.ahead := by
  rw [← current_advance] at h ⊢
  exact ahead_eq_cons h

theorem next_of_ahead_advance {x : Token} {xs : List Token} (h : s.advance.tokens.ahead = x :: xs) :
    s.next = x := by
  rw [← current_advance, current_of_ahead h]

theorem current_of_tokens_eq {T : Token.Stream} {n : Nat} (h : s.tokens = T.drop n) :
    s.current = T.get n := by
  rw [current, h, Token.Stream.get_drop, Nat.add_zero]

theorem next_of_tokens_eq {T : Token.Stream} {n : Nat} (h : s.tokens = T.drop n) :
    s.next = T.get (n + 1) := by
  rw [next, h, Token.Stream.get_drop]

theorem tokens_advance_of_tokens_eq {T : Token.Stream} {n : Nat} (h : s.tokens = T.drop n) :
    s.advance.tokens = T.drop (n + 1) := by
  rw [tokens_advance, h, Token.Stream.drop_drop]

/-! ## The order of states -/

/-- **One state precedes another** if the other has the same tokens ahead of it or fewer of them,
and the same errors or more. -/
structure Precedes (s t : State) : Prop where
  tokens : ∃ n, t.tokens = s.tokens.drop n
  errors : s.errors.toList <+: t.errors.toList

namespace Precedes

theorem refl (s : State) : s.Precedes s :=
  ⟨⟨0, by rw [Token.Stream.drop_zero]⟩, List.prefix_rfl⟩

theorem trans (h : s.Precedes t) (h' : t.Precedes u) : s.Precedes u := by
  obtain ⟨⟨m, hm⟩, he⟩ := h
  obtain ⟨⟨n, hn⟩, he'⟩ := h'
  exact ⟨⟨m + n, by rw [hn, hm, Token.Stream.drop_drop]⟩, he.trans he'⟩

theorem advanceBy (s : State) (n : Nat) : s.Precedes (s.advanceBy n) :=
  ⟨⟨n, tokens_advanceBy s n⟩, errors_advanceBy s n ▸ List.prefix_rfl⟩

theorem advance (s : State) : s.Precedes s.advance :=
  ⟨⟨1, rfl⟩, List.prefix_rfl⟩

theorem note (s : State) (e : Event) : s.Precedes (s.note e) :=
  ⟨⟨0, by rw [tokens_note, Token.Stream.drop_zero]⟩, List.prefix_rfl⟩

theorem record (s : State) (e : ParseError) : s.Precedes (s.record e) := by
  refine ⟨⟨0, by rw [tokens_record, Token.Stream.drop_zero]⟩, ?_⟩
  rw [errors_record, Array.toList_push]
  exact List.prefix_append _ _

theorem skipToSemicolon (s : State) : s.Precedes s.skipToSemicolon :=
  advanceBy s _

theorem passSemicolon (s : State) : s.Precedes s.passSemicolon := by
  unfold State.passSemicolon
  split
  · exact advance s
  · exact refl s

theorem exists_tokens_advance_eq {T : Token.Stream} {n : Nat} (h : s.Precedes t)
    (hs : s.tokens = T.drop n) : ∃ m, n < m ∧ t.advance.tokens = T.drop m := by
  obtain ⟨m, hm⟩ := h.tokens
  rw [hs, Token.Stream.drop_drop] at hm
  exact ⟨n + m + 1, by omega, tokens_advance_of_tokens_eq hm⟩

theorem tokensLeft_le (h : s.Precedes t) : t.tokensLeft ≤ s.tokensLeft := by
  obtain ⟨n, hn⟩ := h.tokens
  simp [tokensLeft, hn]

theorem size_le (h : s.Precedes t) : s.errors.size ≤ t.errors.size := by
  have := h.errors.length_le
  rwa [Array.length_toList, Array.length_toList] at this

theorem errors_eq_left (h : s.Precedes t) (h' : t.Precedes u) (he : u.errors = s.errors) :
    t.errors = s.errors := by
  have hle := h'.size_le
  rw [he] at hle
  have heq := h.errors.eq_of_length_le (by rwa [Array.length_toList, Array.length_toList])
  exact Array.toList_inj.mp heq.symm

theorem errors_eq_right (h : s.Precedes t) (h' : t.Precedes u) (he : u.errors = s.errors) :
    u.errors = t.errors := by
  rw [he, errors_eq_left h h' he]

theorem errors_ne_of_record {e : ParseError} (h : s.Precedes t) (h' : (t.record e).Precedes u) :
    u.errors ≠ s.errors := by
  intro he
  have h₁ := h.size_le
  have h₂ := h'.size_le
  rw [errors_record, Array.size_push, he] at h₂
  omega

end Precedes

/-! ## The next semicolon -/

@[simp] theorem errors_skipToSemicolon (s : State) : s.skipToSemicolon.errors = s.errors := by
  simp [skipToSemicolon]

@[simp] theorem errors_passSemicolon (s : State) : s.passSemicolon.errors = s.errors := by
  unfold passSemicolon
  split
  · rfl
  · rfl

theorem ahead_skipToSemicolon (s : State) :
    s.skipToSemicolon.tokens.ahead =
      s.tokens.ahead.dropWhile fun t => t.kind ≠ .semicolon && t.kind ≠ .endOfInput := by
  set p : Token → Bool := fun t => t.kind ≠ .semicolon && t.kind ≠ .endOfInput
  have hsplit : s.tokens.ahead = s.tokens.ahead.takeWhile p ++ s.tokens.ahead.dropWhile p :=
    List.takeWhile_append_dropWhile.symm
  change (s.advanceBy s.distanceToSemicolon).tokens.ahead = _
  rw [tokens_advanceBy, Token.Stream.ahead_drop]
  change s.tokens.ahead.drop (s.tokens.ahead.takeWhile p).length = _
  nth_rewrite 2 [hsplit]
  exact List.drop_left

end PrattFrontend.State

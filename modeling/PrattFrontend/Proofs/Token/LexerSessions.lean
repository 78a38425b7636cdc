import PrattFrontend.Token.Lexer
import PrattFrontend.Proofs.Text.Bytes
import PrattFrontend.Proofs.Token.Prescription
import PrattFrontend.Proofs.Token.Scanning

/-!
# What holds of a lexer in use

As long as its user moves it from one boundary of characters to another, a lexer stays on such
boundaries, with all copies of it, and has an answer to whatever it is asked. At the end of the text
it stays for good.

* `Lexer.Placed`: a lexer of a source that stands on a boundary;
* **`Lexer.Placed.exists_next?`**: it has a next token, and moves on with it or is at the end;
* `Lexer.Operation.Lands`, `Lexer.Session.Lands`: users that move a lexer from boundary to boundary;
* `Lexer.Session.Sound`, `Lexer.Session.Sound.step`, `Lexer.Session.Sound.after`: what one operation
  keeps, and a row of them;
* `Lexer.Session.lexer_after_atEnd`: at the end;
* `Lexer.Operation.run_eq_none`: where a lexer cannot read on;
* **`Lexer.Session.boundary_after`**: all of it.
-/

namespace PrattFrontend.Lexer

open Text (IsBoundary IsInside byteLength byteLength_append)
open Token (Piece)

variable {source : Source} {l : Lexer} {σ : Session} {op : Operation} {ops : List Operation}

/-! ## Lexers on a boundary -/

/-- A lexer is **placed** on a source if it is one of that source and stands on a boundary. -/
structure Placed (source : Source) (l : Lexer) : Prop where
  source_eq : l.source = source
  boundary : IsBoundary source.text.toList l.offset

/-- The lexer at the end of a source. -/
def atEndOf (source : Source) : Lexer :=
  ⟨source, byteLength source.text.toList⟩

/-- The token for the end of a source. -/
def endOf (source : Source) : Token :=
  .endAt (.atByte (byteLength source.text.toList) source.file)

theorem isSome_rest?_iff : l.rest?.isSome ↔ IsBoundary l.source.text.toList l.offset :=
  Text.isSome_dropBytes?_iff

theorem next?_of_blanks {cs : List Char} (h : l.rest? = some cs)
    (hblank : ∀ c ∈ cs, Token.isBlank c) : l.next? = some (endOf l.source, atEndOf l.source) := by
  obtain ⟨before, htext, hlen⟩ := exists_of_rest?_eq_some h
  have hstop : l.offset + byteLength cs = byteLength l.source.text.toList := by
    rw [htext, byteLength_append, hlen]
  rw [next?, h, Option.map_some, Piece.read?_eq_none_iff.mpr hblank]
  simp only [hstop]
  rfl

namespace Placed

theorem atEndOf (source : Source) : (atEndOf source).Placed source :=
  ⟨rfl, Text.isBoundary_byteLength _⟩

theorem exists_rest? (h : l.Placed source) : ∃ cs, l.rest? = some cs := by
  refine Option.isSome_iff_exists.mp (isSome_rest?_iff.mpr ?_)
  rw [h.source_eq]
  exact h.boundary

/-- **A lexer on a boundary has a next token**, and is on a boundary behind it. -/
theorem exists_next? (h : l.Placed source) :
    ∃ t l', l.next? = some (t, l') ∧ l'.Placed source ∧
      (t.kind ≠ .endOfInput ∧ l.offset < l'.offset ∨
        t = endOf source ∧ l' = Lexer.atEndOf source) := by
  obtain ⟨cs, hcs⟩ := h.exists_rest?
  cases hread : Piece.read? cs with
  | none =>
    have hnext := next?_of_blanks hcs (Piece.read?_eq_none_iff.mp hread)
    rw [h.source_eq] at hnext
    exact ⟨_, _, hnext, .atEndOf source, .inr ⟨rfl, rfl⟩⟩
  | some r =>
    obtain ⟨p, rest⟩ := r
    obtain ⟨hp, htext, -⟩ := Piece.read?_eq_some_iff.mp hread
    have hpos : byteLength p.text ≠ 0 := fun hzero => by
      have hnil := Text.byteLength_eq_zero_iff.mp hzero
      exact hp.lexeme.text_ne_nil (List.append_eq_nil_iff.mp hnil).2
    refine ⟨_, l.advance (byteLength p.text), by rw [next?, hcs, Option.map_some, hread],
      ⟨h.source_eq, ?_⟩, .inl ⟨(Token.prescribes_iff.mpr hp.lexeme).kind_ne, ?_⟩⟩
    · rw [← htext] at hcs
      have hrest := isSome_rest?_iff.mp (Option.isSome_of_eq_some (rest?_advance hcs))
      rwa [source_advance, h.source_eq] at hrest
    · rw [offset_advance]
      omega

end Placed

/-! ## Users that keep to boundaries -/

/-- An operation **fits** if it asks for no offset that the lexer cannot hold. -/
def Operation.Fits (σ : Session) : Operation → Prop
  | advance n => σ.lexer.offset + n < offsetBound
  | _ => True

/-- An operation **lands** if it does not move the lexer, or moves it to a boundary. -/
def Operation.Lands (σ : Session) : Operation → Prop
  | advance n => σ.lexer.offset + n < offsetBound ∧
    IsBoundary σ.lexer.source.text.toList (σ.lexer.offset + n)
  | _ => True

/-- Each of a row of operations lands. -/
def Session.Lands : Session → List Operation → Prop
  | _, [] => True
  | σ, op :: ops => op.Lands σ ∧ (σ.step op).Lands ops

instance (σ : Session) : DecidablePred (Operation.Lands σ)
  | .advance n =>
    inferInstanceAs (Decidable (σ.lexer.offset + n < offsetBound ∧ IsBoundary _ _))
  | .next | .current | .peek | .rest | .atEnd | .copy | .restore _ => .isTrue trivial

instance Session.decidableLands : (σ : Session) → (ops : List Operation) → Decidable (σ.Lands ops)
  | _, [] => .isTrue trivial
  | σ, op :: ops =>
    have := decidableLands (σ.step op) ops
    inferInstanceAs (Decidable (op.Lands σ ∧ (σ.step op).Lands ops))

/-- A session is **sound** if its lexer and all copies of it stand on boundaries of the source. -/
structure Session.Sound (source : Source) (σ : Session) : Prop where
  lexer : σ.lexer.Placed source
  copies : ∀ l ∈ σ.copies, l.Placed source

theorem Session.sound_start (source : Source) : (start source).Sound source :=
  ⟨⟨rfl, [], source.text.toList, rfl, rfl⟩, by simp [start]⟩

/-- **In a sound session every operation that fits has an answer.** -/
theorem Session.Sound.isSome_run (h : σ.Sound source) (hop : op.Fits σ) : (op.run σ).isSome := by
  obtain ⟨cs, hcs⟩ := h.lexer.exists_rest?
  cases op with
  | next => simp [Operation.run, isSome_next?, hcs]
  | current => simp [Operation.run, char?_eq hcs]
  | peek => simp [Operation.run, char?_eq hcs]
  | rest => simp [Operation.run, hcs]
  | advance n =>
    have hfits : σ.lexer.offset + n < offsetBound := hop
    rw [Operation.run, advance?, if_pos hfits]
    rfl
  | restore i =>
    rw [Operation.run]
    split <;> rfl
  | _ => rfl

/-- **A session stays sound** with an operation that lands. -/
theorem Session.Sound.step (h : σ.Sound source) (hop : op.Lands σ) : (σ.step op).Sound source := by
  cases op with
  | next =>
    obtain ⟨t, l, hnext, hl, -⟩ := h.lexer.exists_next?
    simp only [Session.step, Operation.run, hnext]
    exact ⟨hl, h.copies⟩
  | current => rwa [step_current]
  | peek => rwa [step_peek]
  | rest => rwa [step_rest]
  | atEnd => rwa [step_atEnd]
  | advance n =>
    have hsource := h.lexer.source_eq
    rw [step_advance hop.1]
    exact ⟨⟨hsource, hsource ▸ hop.2⟩, h.copies⟩
  | copy =>
    refine ⟨h.lexer, fun l hl => ?_⟩
    rcases List.mem_append.mp hl with hl | hl
    · exact h.copies l hl
    · exact List.mem_singleton.mp hl ▸ h.lexer
  | restore i =>
    simp only [Session.step, Operation.run]
    split
    · exact h
    · next l hl => exact ⟨h.copies l (List.mem_of_getElem? hl), h.copies⟩

/-- **A session stays sound** whatever is done in it, if each operation lands. -/
theorem Session.Sound.after (h : σ.Sound source) (hops : σ.Lands ops) :
    (σ.after ops).Sound source := by
  induction ops generalizing σ with
  | nil => exact h
  | cons op ops ih => exact ih (h.step hops.1) hops.2

/-! ## At the end -/

theorem next?_atEndOf (source : Source) :
    (atEndOf source).next? = some (endOf source, atEndOf source) :=
  next?_of_blanks (Text.dropBytes?_eq_some_iff.mpr ⟨_, (List.append_nil _).symm, rfl⟩) (by simp)

/-- **At the end of the source a lexer stays**, until its user goes back to a copy. -/
theorem Session.lexer_after_atEnd (hops : σ.Lands ops) (hcopy : ∀ i, .restore i ∉ ops)
    (h : σ.lexer = atEndOf source) : (σ.after ops).lexer = atEndOf source := by
  induction ops generalizing σ with
  | nil => exact h
  | cons op ops ih =>
    refine ih hops.2 (fun i hi => hcopy i (List.mem_cons_of_mem op hi)) ?_
    cases op with
    | next =>
      simp only [Session.step, Operation.run, h, next?_atEndOf]
      rfl
    | current => rwa [step_current]
    | peek => rwa [step_peek]
    | rest => rwa [step_rest]
    | atEnd => rwa [step_atEnd]
    | advance n =>
      -- a boundary behind the end is the end
      have hle := IsBoundary.le hops.1.2
      rw [h] at hle
      have hzero : n = 0 := by
        change byteLength source.text.toList + n ≤ byteLength source.text.toList at hle
        omega
      subst hzero
      rw [step_advance hops.1.1]
      exact h
    | copy => exact h
    | restore i => exact absurd List.mem_cons_self (hcopy i)

/-! ## Off the boundaries -/

/-- **Where a lexer cannot read on**, it can still tell whether it is at the end. -/
theorem Operation.run_eq_none (h : ¬IsBoundary σ.lexer.source.text.toList σ.lexer.offset) :
    (next.run σ = none ∧ current.run σ = none ∧ peek.run σ = none ∧ rest.run σ = none) ∧
      atEnd.run σ = some (.flag σ.lexer.atEnd, σ) := by
  have hrest : σ.lexer.rest? = none := by
    rwa [← isSome_rest?_iff, Bool.not_eq_true, Option.isSome_eq_false_iff,
      Option.isNone_iff_eq_none] at h
  have hnext : σ.lexer.next? = none := by rw [next?, hrest, Option.map_none]
  simp [run, hnext, char?, hrest]

/-- **A lexer stays on boundaries of its source**, if it is moved only to such. -/
theorem Session.boundary_after (source : Source) (ops : List Operation)
    (hops : (start source).Lands ops) :
    let σ := (start source).after ops
    let text := source.text.toList
    (IsBoundary text σ.lexer.offset ∧ σ.lexer.offset ≤ byteLength text) ∧
    (∀ op : Operation, op.Fits σ → (op.run σ).isSome) ∧
    (∀ fallback, σ.lexer.scan? fallback = σ.lexer.next?) ∧
    (∃ t l, σ.lexer.next? = some (t, l) ∧
      (t.kind ≠ .endOfInput → σ.lexer.offset < l.offset) ∧
      (t.kind = .endOfInput → l.offset = byteLength text ∧
        ∀ more, (σ.step .next).Lands more → (∀ i, .restore i ∉ more) →
          let τ := (σ.step .next).after more
          τ.lexer.offset = byteLength text ∧ Operation.next.run τ = some (.token t, τ))) ∧
    ∀ n, σ.lexer.offset + n < offsetBound →
      byteLength text < σ.lexer.offset + n ∨ IsInside text (σ.lexer.offset + n) →
      let τ := σ.step (.advance n)
      τ.lexer.offset = σ.lexer.offset + n ∧
      (Operation.next.run τ = none ∧ Operation.current.run τ = none ∧
        Operation.peek.run τ = none ∧ Operation.rest.run τ = none) ∧
      (Operation.atEnd.run τ).isSome := by
  intro σ text
  have hσ : σ.Sound source := (sound_start source).after hops
  refine ⟨⟨hσ.lexer.boundary, hσ.lexer.boundary.le⟩, fun op hop => hσ.isSome_run hop,
    scan?_eq_next? σ.lexer, ?_, fun n hfits hn => ?_⟩
  · obtain ⟨t, l, hnext, -, ⟨hkind, hlt⟩ | ⟨rfl, rfl⟩⟩ := hσ.lexer.exists_next?
    · exact ⟨t, l, hnext, fun _ => hlt, fun hk => absurd hk hkind⟩
    · have hstep : (σ.step .next).lexer = atEndOf source := by
        simp only [Session.step, Operation.run, hnext]
        rfl
      refine ⟨endOf source, atEndOf source, hnext, fun hk => absurd rfl hk, fun _ =>
        ⟨rfl, fun more hmore hcopy => ?_⟩⟩
      have hend := lexer_after_atEnd hmore hcopy hstep
      intro τ
      have hτ : τ.lexer = atEndOf source := hend
      refine ⟨by rw [hτ]; rfl, ?_⟩
      rw [Operation.run, hτ, next?_atEndOf, Option.map_some, ← hτ]
  · intro τ
    have hτ : τ = { σ with lexer := σ.lexer.advance n } := step_advance hfits
    have hsource : τ.lexer.source = source := hτ ▸ hσ.lexer.source_eq
    have hoffset : τ.lexer.offset = σ.lexer.offset + n := by rw [hτ, offset_advance]
    have hnot : ¬IsBoundary τ.lexer.source.text.toList τ.lexer.offset := by
      rw [hsource, hoffset]
      exact Text.not_isBoundary_iff.mpr hn
    obtain ⟨hfail, hatEnd⟩ := Operation.run_eq_none hnot
    exact ⟨hoffset, hfail, by rw [hatEnd]; rfl⟩

/-- A text of characters of one byte, of two and of four. -/
def wideSource : Source :=
  .ofText "é=12 !🦀" none

/-- Operations that move behind the first character, keep a copy, read all tokens but the first, go
back, and read up to the end. -/
def wideOperations : List Operation :=
  [.advance 2, .copy, .next, .peek, .next, .next, .next, .next, .restore 0, .current, .next, .next,
    .next, .next, .next, .atEnd, .advance 0]

/-- Moved on by a byte from its end, the lexer of the sample is behind the end. -/
theorem Session.boundary_after_wideOperations :
    (start wideSource).Lands wideOperations ∧
      ((start wideSource).after wideOperations).lexer.offset = 11 ∧
      (∀ op : Operation, op.Fits ((start wideSource).after wideOperations) →
        (op.run ((start wideSource).after wideOperations)).isSome) ∧
      byteLength wideSource.text.toList <
        ((start wideSource).after wideOperations).lexer.offset + 1 ∧
      Operation.next.run (((start wideSource).after wideOperations).step (.advance 1)) = none := by
  have hops : (start wideSource).Lands wideOperations := by decide +kernel
  have hoffset : ((start wideSource).after wideOperations).lexer.offset = 11 := by decide +kernel
  have hlt : byteLength wideSource.text.toList <
      ((start wideSource).after wideOperations).lexer.offset + 1 := by decide +kernel
  obtain ⟨-, hrun, -, -, hoff⟩ := boundary_after wideSource wideOperations hops
  have hfits : ((start wideSource).after wideOperations).lexer.offset + 1 < offsetBound := by
    decide +kernel
  exact ⟨hops, hoffset, hrun, hlt, (hoff 1 hfits (.inl hlt)).2.1.1⟩

end PrattFrontend.Lexer

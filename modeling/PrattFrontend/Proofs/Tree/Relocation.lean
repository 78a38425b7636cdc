import PrattFrontend.ParseError
import PrattFrontend.Token.Stream
import PrattFrontend.Tree

/-!
# Tokens at other places

A tree holds the tokens it was read from, but its text does not depend on them. To put the tokens
of a tree at other places changes nothing else about it.

* **`Expr.mapTokens`**, `Statement.mapTokens`: a tree with other tokens (`Expr.code_mapTokens`);
* **`Token.relocate`**, `ParseError.relocate`, `Token.Stream.Relocated`: tokens, errors and streams
  under a map of positions;
* `Position.shift`: such a map, by a number of bytes.
-/

namespace PrattFrontend

/-! ## Trees with other tokens -/

/-- An identifier with another token. -/
def Identifier.mapToken (f : Token → Token) (i : Identifier) : Identifier :=
  { i with token := f i.token }

@[simp] theorem Identifier.mapToken_id (i : Identifier) : i.mapToken id = i := rfl

namespace Expr

/-- **An expression with other tokens.** Its names, numbers and operators stay. -/
def mapTokens (f : Token → Token) : Expr → Expr
  | .identifier i => .identifier (i.mapToken f)
  | .integer t v => .integer (f t) v
  | .unary t o none => .unary (f t) o none
  | .unary t o (some e) => .unary (f t) o (some (e.mapTokens f))
  | .binary t d o none => .binary (f t) (d.mapTokens f) o none
  | .binary t d o (some e) => .binary (f t) (d.mapTokens f) o (some (e.mapTokens f))
termination_by structural e => e

variable (f : Token → Token)

@[simp] theorem mapTokens_identifier (i : Identifier) :
    (identifier i).mapTokens f = identifier (i.mapToken f) := rfl

@[simp] theorem mapTokens_integer (t : Token) (v : Int) :
    (integer t v).mapTokens f = integer (f t) v := rfl

@[simp] theorem mapTokens_unary (t : Token) (o : String) (r : Option Expr) :
    (unary t o r).mapTokens f = unary (f t) o (r.map (mapTokens f)) := by
  cases r <;> rfl

@[simp] theorem mapTokens_binary (t : Token) (d : Expr) (o : String) (r : Option Expr) :
    (binary t d o r).mapTokens f = binary (f t) (d.mapTokens f) o (r.map (mapTokens f)) := by
  cases r <;> rfl

@[simp] theorem mapTokens_id (e : Expr) : e.mapTokens id = e := by
  induction e with
  | identifier i => rfl
  | integer t v => rfl
  | unary t o r ih => cases r <;> simp_all
  | binary t d o r ihd ih => cases r <;> simp_all

theorem mapTokens_mapTokens (g : Token → Token) (e : Expr) :
    (e.mapTokens f).mapTokens g = e.mapTokens fun t => g (f t) := by
  induction e with
  | identifier i => rfl
  | integer t v => rfl
  | unary t o r ih => cases r <;> simp_all
  | binary t d o r ihd ih => cases r <;> simp_all

@[simp] theorem tokens_mapTokens (e : Expr) : (e.mapTokens f).tokens = e.tokens.map f := by
  induction e with
  | identifier i => rfl
  | integer t v => rfl
  | unary t o r ih => cases r <;> simp_all [tokens]
  | binary t d o r ihd ih => cases r <;> simp_all [tokens]

@[simp] theorem code_mapTokens (e : Expr) : (e.mapTokens f).code = e.code := by
  induction e with
  | identifier i => rfl
  | integer t v => rfl
  | unary t o r ih => cases r <;> simp_all [code_unary, codeOf]
  | binary t d o r ihd ih => cases r <;> simp_all [code_binary, codeOf]

end Expr

namespace Statement

/-- **A statement with other tokens.** -/
def mapTokens (f : Token → Token) : Statement → Statement
  | letValue t name v => letValue (f t) (name.mapToken f) (v.map (Expr.mapTokens f))
  | returnValue t v => returnValue (f t) (v.map (Expr.mapTokens f))
  | expression t v => expression (f t) (v.map (Expr.mapTokens f))

theorem map_mapTokens_id (v : Option Expr) : v.map (Expr.mapTokens id) = v := by
  cases v <;> simp

@[simp] theorem mapTokens_id (st : Statement) : st.mapTokens id = st := by
  cases st <;> simp [mapTokens, map_mapTokens_id]

theorem mapTokens_mapTokens (f g : Token → Token) (st : Statement) :
    (st.mapTokens f).mapTokens g = st.mapTokens fun t => g (f t) := by
  have hvalue : Expr.mapTokens g ∘ Expr.mapTokens f = Expr.mapTokens fun t => g (f t) :=
    funext fun e => e.mapTokens_mapTokens f g
  cases st <;> simp [mapTokens, Identifier.mapToken, hvalue]

theorem code_mapTokens {f : Token → Token} (hf : ∀ t, (f t).literal = t.literal) (st : Statement) :
    (st.mapTokens f).code = st.code := by
  have hvalue : ∀ v : Option Expr, Expr.codeOf (v.map (Expr.mapTokens f)) = Expr.codeOf v := by
    rintro (_ | e)
    · rfl
    · exact e.code_mapTokens f
  cases st <;> simp [mapTokens, code, Identifier.mapToken, hvalue, hf]

end Statement

/-! ## Places -/

/-- **A position some bytes further on.** -/
def Position.shift (n : Nat) (p : Position) : Position :=
  ⟨n + p.offset, p.file⟩

theorem Position.shift_atByte {n offset : Nat} (h : n + offset ≤ maxOffset) (file : String) :
    (atByte offset file).shift n = atByte (n + offset) file := by
  have ho : offset ≤ maxOffset := by omega
  simp [shift, atByte, Nat.min_eq_left h, Nat.min_eq_left ho]

/-- **A token at another place.** -/
def Token.relocate (f : Position → Position) (t : Token) : Token :=
  { t with span := ⟨f t.span.start, f t.span.stop⟩ }

/-- An error at another place. -/
def ParseError.relocate (f : Position → Position) (e : ParseError) : ParseError :=
  { e with position := f e.position }

@[simp] theorem ParseError.relocate_id (e : ParseError) : e.relocate id = e := rfl

namespace Token

variable (f : Position → Position)

@[simp] theorem kind_relocate (t : Token) : (t.relocate f).kind = t.kind := rfl

@[simp] theorem literal_relocate (t : Token) : (t.relocate f).literal = t.literal := rfl

@[simp] theorem start_relocate (t : Token) : (t.relocate f).span.start = f t.span.start := rfl

theorem relocate_id : relocate id = id := rfl

@[simp] theorem relocate_endAt (stop : Position) : (endAt stop).relocate f = endAt (f stop) := rfl

namespace Stream

/-- **A stream is relocated** if another has the same tokens at other places. -/
structure Relocated (f : Position → Position) (T T' : Stream) : Prop where
  ahead : T'.ahead = T.ahead.map (Token.relocate f)
  stop : T'.stop = f T.stop

namespace Relocated

variable {f} {T T' : Stream}

theorem length_eq (h : T.Relocated f T') : T'.ahead.length = T.ahead.length := by
  rw [h.ahead, List.length_map]

theorem get (h : T.Relocated f T') (i : Nat) : T'.get i = (T.get i).relocate f := by
  simp only [Stream.get, h.ahead, h.stop, List.getElem?_map]
  cases T.ahead[i]? <;> rfl

theorem drop (h : T.Relocated f T') (n : Nat) : (T.drop n).Relocated f (T'.drop n) where
  ahead := by rw [ahead_drop, ahead_drop, h.ahead, List.map_drop]
  stop := h.stop

end Relocated

end Stream

end Token

end PrattFrontend

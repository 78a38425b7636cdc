import Mathlib.Data.List.Basic
import Mathlib.Tactic.Common
import PrattFrontend.Text.Basic

/-!
# Texts as bytes

* **`bytes`**, `length_bytes`: the bytes of a text in UTF-8;
* `slice`: the bytes between two offsets;
* `bytes_prefix_iff`: a text starts with another exactly if its bytes start with those of the other;
* `charAt?`: the character that starts at an offset;
* **`IsBoundary`**, `IsInside`: an offset at which a character starts or the text ends, and one
  inside a character;
* **`not_isBoundary_iff`**: any offset but a boundary is behind the text or inside a character.
-/

namespace PrattFrontend.Text

variable {cs ds : List Char}

/-- The bytes of a text in UTF-8. -/
def bytes (cs : List Char) : List UInt8 :=
  cs.flatMap String.utf8EncodeChar

@[simp] theorem bytes_nil : bytes [] = [] := rfl

@[simp] theorem bytes_append (cs ds : List Char) : bytes (cs ++ ds) = bytes cs ++ bytes ds :=
  List.flatMap_append

@[simp] theorem length_bytes (cs : List Char) : (bytes cs).length = byteLength cs := by
  induction cs with
  | nil => rfl
  | cons c cs ih =>
    rw [bytes, List.flatMap_cons, List.length_append, String.length_utf8EncodeChar]
    exact congrArg _ ih

theorem mem_bytes_of_mem {c : Char} (hc : c ∈ cs) {b : UInt8} (hb : b ∈ bytes [c]) :
    b ∈ bytes cs := by
  rw [bytes, List.flatMap_singleton] at hb
  exact List.mem_flatMap.mpr ⟨c, hc, hb⟩

/-- **The bytes of one text start with those of another exactly if the text does.** -/
theorem bytes_prefix_iff : bytes cs <+: bytes ds ↔ cs <+: ds := by
  constructor
  · rintro ⟨bs, h⟩
    refine List.isPrefix_of_utf8Encode_append_eq_utf8Encode bs.toByteArray ?_
    change (bytes cs).toByteArray ++ bs.toByteArray = (bytes ds).toByteArray
    rw [← List.toByteArray_append, h]
  · rintro ⟨es, rfl⟩
    exact ⟨bytes es, (bytes_append cs es).symm⟩

/-- The bytes of a text between two offsets. -/
def slice (cs : List Char) (start stop : Nat) : List UInt8 :=
  ((bytes cs).drop start).take (stop - start)

theorem slice_append (before cs after : List Char) :
    slice (before ++ (cs ++ after)) (byteLength before) (byteLength before + byteLength cs) =
      bytes cs := by
  rw [slice, bytes_append, bytes_append, List.drop_left' (length_bytes before),
    Nat.add_sub_cancel_left, List.take_left' (length_bytes cs)]

/-- The character of a text that starts at a byte offset, if one does. -/
def charAt? (cs : List Char) (offset : Nat) : Option Char :=
  (dropBytes? offset cs).bind List.head?

theorem charAt?_append (before cs : List Char) :
    charAt? (before ++ cs) (byteLength before) = cs.head? := by
  rw [charAt?, dropBytes?_append, Option.bind_some]

/-! ## Boundaries of characters -/

variable {n : Nat}

/-- An offset is a **boundary** of a text if it is behind the bytes of some characters that the text
starts with. -/
def IsBoundary (cs : List Char) (n : Nat) : Prop :=
  ∃ before behind, cs = before ++ behind ∧ byteLength before = n

/-- An offset is **inside** a character if it is behind the first of its bytes and not behind the
last. -/
def IsInside (cs : List Char) (n : Nat) : Prop :=
  ∃ before c behind, cs = before ++ c :: behind ∧ byteLength before < n ∧
    n < byteLength before + c.utf8Size

theorem isSome_dropBytes?_iff : (dropBytes? n cs).isSome ↔ IsBoundary cs n := by
  simp only [Option.isSome_iff_exists, dropBytes?_eq_some_iff, IsBoundary]
  exact exists_comm

instance (cs : List Char) (n : Nat) : Decidable (IsBoundary cs n) :=
  decidable_of_iff _ isSome_dropBytes?_iff

theorem IsBoundary.le (h : IsBoundary cs n) : n ≤ byteLength cs := by
  obtain ⟨before, behind, rfl, rfl⟩ := h
  rw [byteLength_append]
  exact Nat.le_add_right _ _

theorem isBoundary_byteLength (cs : List Char) : IsBoundary cs (byteLength cs) :=
  ⟨cs, [], (List.append_nil cs).symm, rfl⟩

theorem byteLength_le_of_prefix (h : cs <+: ds) : byteLength cs ≤ byteLength ds := by
  obtain ⟨rest, rfl⟩ := h
  rw [byteLength_append]
  exact Nat.le_add_right _ _

theorem IsInside.not_isBoundary (h : IsInside cs n) : ¬IsBoundary cs n := by
  obtain ⟨before, c, behind, rfl, hlt, hgt⟩ := h
  rintro ⟨first, rest, heq, rfl⟩
  have hfirst : first <+: before ++ c :: behind := ⟨rest, heq.symm⟩
  have hbefore : before ++ [c] <+: before ++ c :: behind := ⟨behind, by simp⟩
  rcases List.prefix_or_prefix_of_prefix hfirst hbefore with hp | hp
  · rcases List.prefix_concat_iff.mp hp with rfl | hp
    · rw [byteLength_append, byteLength_cons, byteLength_nil] at hgt
      omega
    · have := byteLength_le_of_prefix hp
      omega
  · have hle := byteLength_le_of_prefix hp
    rw [byteLength_append, byteLength_cons, byteLength_nil] at hle
    omega

/-- **An offset is a boundary, or it is behind the text or inside a character.** -/
theorem not_isBoundary_iff : ¬IsBoundary cs n ↔ byteLength cs < n ∨ IsInside cs n := by
  constructor
  · induction cs generalizing n with
    | nil =>
      intro h
      refine .inl (Nat.pos_of_ne_zero ?_)
      rintro rfl
      exact h ⟨[], [], rfl, rfl⟩
    | cons c cs ih =>
      intro h
      rcases Nat.lt_or_ge n c.utf8Size with hlt | hge
      · refine .inr ⟨[], c, cs, rfl, Nat.pos_of_ne_zero ?_, by simpa using hlt⟩
        rintro rfl
        exact h ⟨[], c :: cs, rfl, rfl⟩
      · -- the offset is behind the first character
        have hrest : ¬IsBoundary cs (n - c.utf8Size) := by
          rintro ⟨before, behind, rfl, hn⟩
          exact h ⟨c :: before, behind, rfl, by rw [byteLength_cons]; omega⟩
        rcases ih hrest with hlt | ⟨before, d, behind, rfl, hlt, hgt⟩
        · exact .inl (by rw [byteLength_cons]; omega)
        · refine .inr ⟨c :: before, d, behind, rfl, ?_, ?_⟩
          · rw [byteLength_cons]
            omega
          · rw [byteLength_cons]
            omega
  · rintro (hlt | hinside)
    · exact fun h => absurd h.le (Nat.not_le_of_lt hlt)
    · exact hinside.not_isBoundary

end PrattFrontend.Text

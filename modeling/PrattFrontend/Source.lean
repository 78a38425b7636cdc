/-!
# Sources and places in them

A position is a byte offset into a source, together with the name of the file that the source came
from. Offsets are kept in 32 bits: one that does not fit is held at the largest that does.

* **`Position`**, `Position.atByte`, `Position.null`;
* `Span`, `Span.between`, `Span.null`;
* **`Source`**, `Source.ofText`: a program text and the name of its file.
-/

namespace PrattFrontend

/-- **A position**: a byte offset into the source read from a file. -/
structure Position where
  offset : Nat
  file : String
deriving DecidableEq, Repr

namespace Position

/-- The largest offset a position holds. -/
def maxOffset : Nat := 4294967295

/-- The position at a byte offset, held at the largest offset. -/
def atByte (offset : Nat) (file : String) : Position :=
  ⟨min offset maxOffset, file⟩

/-- The position of what stands in no source. -/
def null : Position :=
  ⟨0, "<null>"⟩

@[simp] theorem file_atByte (offset : Nat) (file : String) : (atByte offset file).file = file := rfl

theorem offset_atByte_of_le {offset : Nat} (h : offset ≤ maxOffset) (file : String) :
    (atByte offset file).offset = offset :=
  Nat.min_eq_left h

end Position

/-- A half-open range of a source: the position of its first byte, and the position behind its
last. -/
structure Span where
  start : Position
  stop : Position
deriving DecidableEq, Repr

namespace Span

/-- The span between two byte offsets of one file. -/
def between (start stop : Nat) (file : String) : Span :=
  ⟨.atByte start file, .atByte stop file⟩

/-- The span of what stands in no source. -/
def null : Span :=
  ⟨.null, .null⟩

@[simp] theorem start_between (start stop : Nat) (file : String) :
    (between start stop file).start = .atByte start file := rfl

@[simp] theorem stop_between (start stop : Nat) (file : String) :
    (between start stop file).stop = .atByte stop file := rfl

end Span

/-- **A source**: a program text, and the name that positions in it carry. -/
structure Source where
  text : String
  file : String
deriving DecidableEq, Repr

namespace Source

/-- The name of a text that comes from no file. -/
def shell : String := "shell"

/-- The source with a given text, named for its file or, if it has none, `shell`. -/
def ofText (text : String) (file? : Option String) : Source :=
  ⟨text, file?.getD shell⟩

end Source

end PrattFrontend

/-
# Searching in text

* `afterFirst` finds a marker exactly and gives the text behind it.
* `findCaseless` looks for an ASCII marker in the UTF-8 form of a text, without
  regard to the case of ASCII letters, and gives the byte offset at which it
  begins. `dropBytes` gives the text from a byte offset on.
* `IsBoundary` holds of the byte offsets that lie between two characters.
-/

namespace PrintJob

/-! ## Exact search -/

/-- The text after the first occurrence of a marker. -/
def afterFirst (marker : List Char) : List Char → Option (List Char)
  | [] => if marker.isEmpty then some [] else none
  | c :: cs =>
    if marker.isPrefixOf (c :: cs) then some ((c :: cs).drop marker.length)
    else afterFirst marker cs

/-- The text after the first occurrence of a character. -/
def afterFirstChar (c : Char) (cs : List Char) : Option (List Char) :=
  match cs.dropWhile (· != c) with
  | [] => none
  | _ :: rest => some rest

/-! ## Bytes -/

/-- The UTF-8 form of a text. -/
def utf8 (cs : List Char) : List UInt8 := cs.flatMap String.utf8EncodeChar

@[simp]
theorem utf8_nil : utf8 [] = [] := rfl

@[simp]
theorem utf8_cons (c : Char) (cs : List Char) :
    utf8 (c :: cs) = String.utf8EncodeChar c ++ utf8 cs := rfl

theorem utf8_append (a b : List Char) : utf8 (a ++ b) = utf8 a ++ utf8 b := by
  simp [utf8]

theorem length_utf8_cons (c : Char) (cs : List Char) :
    (utf8 (c :: cs)).length = c.utf8Size + (utf8 cs).length := by
  rw [utf8_cons, List.length_append, String.length_utf8EncodeChar]

/-- The byte offset is that of a place between two characters of the text, or of one of its
ends. -/
def IsBoundary (text : List Char) (offset : Nat) : Prop :=
  String.Pos.Raw.IsValid (String.ofList text) ⟨offset⟩

theorem isBoundary_append (front back : List Char) :
    IsBoundary (front ++ back) (utf8 front).length := by
  refine String.Pos.Raw.isValid_iff_exists_append.mpr
    ⟨String.ofList front, String.ofList back, String.ofList_append, ?_⟩
  have hsize : (String.ofList front).toByteArray.size = (utf8 front).length := by
    rw [String.toByteArray_ofList]
    exact List.size_toByteArray
  exact congrArg String.Pos.Raw.mk hsize.symm

/-- An ASCII capital becomes its small letter; all other bytes stay. -/
def lowerByte (b : UInt8) : UInt8 :=
  if 0x41 ≤ b ∧ b ≤ 0x5A then b + 0x20 else b

/-- Whether a text of bytes begins with the marker, up to the case of ASCII letters. -/
def startsCaseless : List UInt8 → List UInt8 → Bool
  | [], _ => true
  | _ :: _, [] => false
  | m :: marker, b :: bytes => lowerByte m == lowerByte b && startsCaseless marker bytes

/-- The first place at or after `offset` at which the marker begins, in bytes that
stand at that offset. -/
def findBytesFrom (marker : List UInt8) (offset : Nat) : List UInt8 → Option Nat
  | [] => none
  | b :: bytes =>
    if startsCaseless marker (b :: bytes) then some offset
    else findBytesFrom marker (offset + 1) bytes

/-- The byte offset at which an ASCII marker first occurs in a text, up to the case
of ASCII letters. The empty marker occurs nowhere. -/
def findCaseless (marker text : List Char) : Option Nat :=
  if marker.isEmpty then none else findBytesFrom (utf8 marker) 0 (utf8 text)

/-- The text from a byte offset on; a character that the offset cuts is dropped. -/
def dropBytes : Nat → List Char → List Char
  | 0, cs => cs
  | _ + 1, [] => []
  | n + 1, c :: cs => dropBytes (n + 1 - c.utf8Size) cs

/-- The text after the first occurrence of an ASCII marker, up to case. -/
def afterCaseless (marker text : List Char) : Option (List Char) :=
  (findCaseless marker text).map fun offset => dropBytes (offset + (utf8 marker).length) text

end PrintJob

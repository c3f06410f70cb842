/-
# Go strings

A Go string is a sequence of bytes.  What the JSON decoder returns is always valid UTF-8, so such
strings are of Lean's own type; a path parameter may be any bytes.

The two meet where the router hands a parameter to a handler: Go converts nothing, and PostgreSQL
refuses the bytes that are no text.  So `text?` is partial, and its inverse `utf8` is injective,
which is all that the comparison of a parameter with a stored identifier needs.

Of the package `strings` only what the handlers call is here: the length in bytes, and the
trimming and lowering that normalise an email.
-/
import Mathlib.Data.List.Basic

namespace ShardLeak

namespace Go

/-- A string that need not be valid UTF-8. -/
abbrev Bytes : Type := List UInt8

/-- The bytes of a text. -/
def utf8 (s : String) : Bytes := s.toUTF8.data.toList

/-- The text of valid UTF-8. -/
def text? (b : Bytes) : Option String := String.fromUTF8? ⟨b.toArray⟩

lemma text?_utf8 (s : String) : text? (utf8 s) = some s := by
  have hbytes : (⟨(utf8 s).toArray⟩ : ByteArray) = s.toByteArray := by
    simp [utf8]
  rw [text?, hbytes, String.fromUTF8?, dif_pos s.isValidUTF8]
  rfl

lemma utf8_of_text? {b : Bytes} {s : String} (h : text? b = some s) : utf8 s = b := by
  rw [text?, String.fromUTF8?] at h
  split at h
  · rw [Option.some.injEq] at h
    rw [← h]
    simp [utf8, String.fromUTF8]
  · cases h

lemma utf8_injective : Function.Injective utf8 := by
  intro s t h
  have hsome : some s = some t := by
    rw [← text?_utf8, h, text?_utf8]
  exact Option.some.inj hsome

@[simp] lemma utf8_eq_nil {s : String} : utf8 s = [] ↔ s = "" := by
  constructor
  · intro h
    exact utf8_injective (h.trans (by rfl))
  · rintro rfl
    rfl

/-- `len`. -/
def len (s : String) : ℕ := s.utf8ByteSize

/-- `unicode.IsSpace`. -/
def isSpace (c : Char) : Bool :=
  let n := c.toNat
  (9 ≤ n && n ≤ 13) || n == 0x20 || n == 0x85 || n == 0xa0 || n == 0x1680 ||
    (0x2000 ≤ n && n ≤ 0x200a) || n == 0x2028 || n == 0x2029 || n == 0x202f || n == 0x205f ||
    n == 0x3000

/-- `strings.TrimSpace`. -/
def trimSpace (s : String) : String :=
  String.ofList ((s.toList.dropWhile isSpace).reverse.dropWhile isSpace).reverse

/-- `strings.ToLower`, for a given `unicode.ToLower`. -/
def toLower (lower : Char → Char) (s : String) : String := String.ofList (s.toList.map lower)

end Go

end ShardLeak

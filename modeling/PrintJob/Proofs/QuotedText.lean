/-
# Strings in quotes are read back

A string that was put in quotes is read back as it was, whatever characters it consists of.
The reader works on codes, because an escape may denote half of a character; the characters
of a string are never such halves.
-/
import Mathlib.Tactic.SplitIfs
import PrintJob.Json.Printer
import PrintJob.Json.Reader

namespace PrintJob

namespace Json

/-! ## Codes -/

/-- Two hexadecimal digits after two zeros are enough for the characters that need them. -/
theorem readHex_hexDigit {n : Nat} (h : n < 32) :
    readHex 0 ['0', '0', hexDigit (n / 16), hexDigit (n % 16)] = some n := by
  have hall : ∀ n < 32, readHex 0 ['0', '0', hexDigit (n / 16), hexDigit (n % 16)] = some n := by
    decide
  exact hall n h

/-- A character as it is written inside quotes is read back. -/
theorem readCodes_escapeChar (c : Char) (rest : List Char) :
    readCodes (escapeChar c ++ rest) = (readCodes rest).map (consCode c.toNat) := by
  unfold escapeChar
  split_ifs with hquote hbackslash hnewLine hreturn htab hbackspace hfeed hcontrol
  · rw [hquote]
    rfl
  · rw [hbackslash]
    rfl
  · rw [hnewLine]
    rfl
  · rw [hreturn]
    rfl
  · rw [htab]
    rfl
  · rw [hbackspace]
    rfl
  · rw [hfeed]
    rfl
  · show (readHex 0 ['0', '0', hexDigit (c.toNat / 16), hexDigit (c.toNat % 16)]).bind
      (fun code => (readCodes rest).map (consCode code)) = _
    rw [readHex_hexDigit hcontrol]
    rfl
  · simp [readCodes, hbackslash, hcontrol]

/-- The characters in front of the closing quote are read back. -/
theorem readCodes_flatMap (text rest : List Char) :
    readCodes (text.flatMap escapeChar ++ '"' :: rest) = some (text.map Char.toNat, rest) := by
  induction text with
  | nil => rfl
  | cons c text ih =>
    rw [List.flatMap_cons, List.append_assoc, readCodes_escapeChar, ih]
    rfl

/-! ## Characters -/

/-- The codes of characters lie outside the range of the surrogates. -/
theorem not_surrogate (c : Char) : isLead c.toNat = false ∧ isTrail c.toNat = false := by
  have hvalid : c.toNat < 0xD800 ∨ (0xDFFF < c.toNat ∧ c.toNat < 0x110000) := c.valid
  simp only [isLead, isTrail, decide_eq_false_iff_not]
  omega

theorem ofCodes_cons (c : Char) (codes : List Nat) :
    ofCodes (c.toNat :: codes) = (ofCodes codes).map (c :: ·) := by
  obtain ⟨hlead, htrail⟩ := not_surrogate c
  cases codes with
  | nil => simp [ofCodes, hlead, htrail]
  | cons code rest => simp [ofCodes, hlead, htrail]

theorem ofCodes_map_toNat (text : List Char) : ofCodes (text.map Char.toNat) = some text := by
  induction text with
  | nil => rfl
  | cons c text ih =>
    rw [List.map_cons, ofCodes_cons, ih]
    rfl

/-! ## Strings -/

/-- What follows the opening quote of a string is read back. -/
theorem readString_flatMap (text : String) (rest : List Char) :
    readString (text.toList.flatMap escapeChar ++ '"' :: rest) = some (text, rest) := by
  unfold readString
  rw [readCodes_flatMap, Option.bind_some, ofCodes_map_toNat, Option.map_some, String.ofList_toList]

/-- A string in quotes, with the opening quote apart, which the reader looks at first. -/
theorem quote_append (text : String) (rest : List Char) :
    quote text ++ rest = '"' :: (text.toList.flatMap escapeChar ++ '"' :: rest) := by
  simp [quote]

end Json

end PrintJob

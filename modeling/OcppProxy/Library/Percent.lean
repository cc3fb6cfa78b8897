import Mathlib.Data.List.Basic
import Mathlib.Tactic.Common

/-!
# Percent-encoding

Text is encoded over a set of characters that may not stand for themselves, and decoded to bytes. An
encoding that leaves the percent sign as it is loses nothing more than decoding the text would.
-/

namespace OcppProxy

namespace Percent

def utf8 (text : List Char) : List UInt8 := text.flatMap String.utf8EncodeChar

def hexValue (c : Char) : Option Nat :=
  if '0' ≤ c ∧ c ≤ '9' then some (c.toNat - '0'.toNat)
  else if 'a' ≤ c ∧ c ≤ 'f' then some (c.toNat - 'a'.toNat + 10)
  else if 'A' ≤ c ∧ c ≤ 'F' then some (c.toNat - 'A'.toNat + 10)
  else none

def hexDigit (n : Nat) : Char :=
  if n < 10 then Char.ofNat ('0'.toNat + n) else Char.ofNat ('A'.toNat + (n - 10))

/-- The byte that the first two characters name. -/
def hexPair : List Char → Option UInt8
  | a :: b :: _ =>
    match hexValue a, hexValue b with
    | some x, some y => some (UInt8.ofNat (16 * x + y))
    | _, _ => none
  | _ => none

def percentDecode : List Char → List UInt8
  | [] => []
  | [c] => String.utf8EncodeChar c
  | [c, d] => String.utf8EncodeChar c ++ String.utf8EncodeChar d
  | c :: a :: b :: rest =>
    match decide (c = '%'), hexPair [a, b] with
    | true, some byte => byte :: percentDecode rest
    | _, _ => String.utf8EncodeChar c ++ percentDecode (a :: b :: rest)

/-- A percent sign is followed by two hexadecimal digits somewhere. -/
def hasEscape : List Char → Bool
  | [] => false
  | c :: rest => (decide (c = '%') && (hexPair rest).isSome) || hasEscape rest

def escape (byte : UInt8) : List Char :=
  ['%', hexDigit (byte.toNat / 16), hexDigit (byte.toNat % 16)]

variable (encodes : Char → Bool)

def encodeChar (c : Char) : List Char :=
  if encodes c then (String.utf8EncodeChar c).flatMap escape else [c]

def encode (text : List Char) : List Char := text.flatMap (encodeChar encodes)

variable {encodes} {text rest : List Char} {c a b : Char} {n : Nat}

/-! ## Bytes -/

@[simp] theorem utf8_nil : utf8 [] = [] := rfl

@[simp] theorem utf8_cons : utf8 (c :: rest) = String.utf8EncodeChar c ++ utf8 rest := rfl

theorem utf8_injective : Function.Injective utf8 := by
  intro s t h
  have hbytes : s.utf8Encode = t.utf8Encode := congrArg List.toByteArray h
  have hstring : String.ofList s = String.ofList t :=
    String.toByteArray_inj.mp (by simpa using hbytes)
  exact String.ofList_inj.mp hstring

theorem length_utf8EncodeChar_pos (c : Char) : 0 < (String.utf8EncodeChar c).length :=
  List.length_pos_iff.mpr String.utf8EncodeChar_ne_nil

@[simp] theorem utf8_eq_nil : utf8 text = [] ↔ text = [] := by
  cases text with
  | nil => simp
  | cons c rest => simp [String.utf8EncodeChar_ne_nil]

/-! ## Digits -/

theorem hexValue_hexDigit (h : n < 16) : hexValue (hexDigit n) = some n := by
  have hall : ∀ n < 16, hexValue (hexDigit n) = some n := by decide
  exact hall n h

theorem hexPair_hexDigits (byte : UInt8) :
    hexPair [hexDigit (byte.toNat / 16), hexDigit (byte.toNat % 16)] = some byte := by
  have hbyte : byte.toNat < 256 := byte.toNat_lt
  have hhigh := hexValue_hexDigit (show byte.toNat / 16 < 16 by omega)
  have hlow := hexValue_hexDigit (Nat.mod_lt byte.toNat (show 0 < 16 by decide))
  simp only [hexPair, hhigh, hlow, Nat.div_add_mod, UInt8.ofNat_toNat]

theorem hexPair_cons_cons : hexPair (a :: b :: rest) = hexPair [a, b] := rfl

theorem hexPair_isSome :
    (hexPair (a :: b :: rest)).isSome ↔ (hexValue a).isSome ∧ (hexValue b).isSome := by
  cases ha : hexValue a <;> cases hb : hexValue b <;> simp [hexPair, ha, hb]

/-! ## Decoding -/

theorem percentDecode_escape {byte : UInt8} (h : hexPair [a, b] = some byte) :
    percentDecode ('%' :: a :: b :: rest) = byte :: percentDecode rest := by
  simp [percentDecode, h]

theorem percentDecode_cons (h : ¬ (c = '%' ∧ (hexPair rest).isSome)) :
    percentDecode (c :: rest) = String.utf8EncodeChar c ++ percentDecode rest := by
  match rest with
  | [] => simp [percentDecode]
  | [_] => rfl
  | a :: b :: rest =>
    rw [hexPair_cons_cons] at h
    by_cases hc : c = '%'
    · have hnone : hexPair [a, b] = none := by simpa [hc] using h
      simp [percentDecode, hnone]
    · simp [percentDecode, hc]

/-- A text is read back character by character, or it begins with an escape. -/
theorem escape_cases (c : Char) (rest : List Char) :
    (¬ (c = '%' ∧ (hexPair rest).isSome)) ∨
      ∃ a b tail byte, c = '%' ∧ rest = a :: b :: tail ∧ hexPair [a, b] = some byte := by
  by_cases h : c = '%' ∧ (hexPair rest).isSome
  · obtain ⟨hc, hpair⟩ := h
    obtain ⟨byte, hbyte⟩ := Option.isSome_iff_exists.mp hpair
    match rest, hbyte with
    | a :: b :: tail, hbyte => exact .inr ⟨a, b, tail, byte, hc, rfl, hbyte⟩
  · exact .inl h

/-- Induction over what decoding reads at once. -/
theorem decode_induction {P : List Char → Prop} (nil : P [])
    (plain : ∀ c rest, ¬ (c = '%' ∧ (hexPair rest).isSome) → P rest → P (c :: rest))
    (escaped : ∀ a b rest byte, hexPair [a, b] = some byte → P rest → P ('%' :: a :: b :: rest))
    (text : List Char) : P text := by
  induction h : text.length using Nat.strongRecOn generalizing text with
  | ind n ih =>
    subst h
    match text with
    | [] => exact nil
    | c :: rest =>
      rcases escape_cases c rest with hplain | ⟨a, b, tail, byte, rfl, rfl, hbyte⟩
      · exact plain c rest hplain (ih rest.length (by simp) rest rfl)
      · exact escaped a b tail byte hbyte (ih tail.length (by simp; omega) tail rfl)

theorem hasEscape_cons (h : ¬ (c = '%' ∧ (hexPair rest).isSome)) :
    hasEscape (c :: rest) = hasEscape rest := by
  have hnot : (decide (c = '%') && (hexPair rest).isSome) = false := by
    simpa using h
  simp [hasEscape, hnot]

theorem hasEscape_escape {byte : UInt8} (h : hexPair [a, b] = some byte) :
    hasEscape ('%' :: a :: b :: rest) = true := by
  simp [hasEscape, hexPair_cons_cons, h]

/-- Decoding never lengthens a text, and an escape shortens it. -/
theorem length_percentDecode (text : List Char) :
    (percentDecode text).length + (if hasEscape text then 1 else 0) ≤ (utf8 text).length := by
  induction text using decode_induction with
  | nil => simp [percentDecode, hasEscape]
  | plain c rest hplain ih =>
    rw [percentDecode_cons hplain, hasEscape_cons hplain, utf8_cons, List.length_append,
      List.length_append]
    omega
  | escaped a b rest byte hbyte ih =>
    have ha := length_utf8EncodeChar_pos a
    have hb := length_utf8EncodeChar_pos b
    have hpercent := length_utf8EncodeChar_pos '%'
    rw [percentDecode_escape hbyte, hasEscape_escape hbyte]
    simp only [utf8_cons, List.length_append, List.length_cons, if_true]
    omega

theorem percentDecode_of_not_hasEscape (h : hasEscape text = false) :
    percentDecode text = utf8 text := by
  induction text using decode_induction with
  | nil => rfl
  | plain c rest hplain ih =>
    rw [hasEscape_cons hplain] at h
    rw [percentDecode_cons hplain, ih h, utf8_cons]
  | escaped a b rest byte hbyte ih =>
    rw [hasEscape_escape hbyte] at h
    cases h

/-- A text that decodes to its own bytes has no escape. -/
theorem percentDecode_eq_utf8 : percentDecode text = utf8 text ↔ hasEscape text = false := by
  constructor
  · intro h
    have hlength := length_percentDecode text
    rw [h] at hlength
    by_contra hescape
    rw [if_pos (by simpa using hescape)] at hlength
    omega
  · exact percentDecode_of_not_hasEscape

/-! ## Encoding -/

def KeepsEscapes (encodes : Char → Bool) : Prop :=
  ∀ c, c = '%' ∨ (hexValue c).isSome → encodes c = false

@[simp] theorem encode_nil : encode encodes [] = [] := rfl

theorem encode_cons : encode encodes (c :: rest) = encodeChar encodes c ++ encode encodes rest :=
  rfl

theorem encodeChar_of_not (h : encodes c = false) : encodeChar encodes c = [c] := by
  simp [encodeChar, h]

theorem percentDecode_escapes (bytes : List UInt8) (rest : List Char) :
    percentDecode (bytes.flatMap escape ++ rest) = bytes ++ percentDecode rest := by
  induction bytes with
  | nil => rfl
  | cons byte bytes ih =>
    simp only [List.flatMap_cons, escape, List.cons_append, List.nil_append]
    rw [percentDecode_escape (hexPair_hexDigits byte)]
    exact congrArg _ ih

/-- What the encoded text begins with is a digit if and only if the text begins with it. -/
theorem encode_head (hkeeps : KeepsEscapes encodes) (c : Char) (rest : List Char) :
    (∃ tail, encode encodes (c :: rest) = '%' :: tail ∧ hexValue c = none) ∨
      encode encodes (c :: rest) = c :: encode encodes rest := by
  cases hc : encodes c with
  | false => exact .inr (by rw [encode_cons, encodeChar_of_not hc, List.singleton_append])
  | true =>
    have hdigit : hexValue c = none := by
      by_contra hsome
      have hnot := hkeeps c (.inr (Option.ne_none_iff_isSome.mp hsome))
      rw [hc] at hnot
      cases hnot
    obtain ⟨byte, bytes, hbytes⟩ :=
      List.exists_cons_of_ne_nil (String.utf8EncodeChar_ne_nil (c := c))
    refine .inl ⟨(escape byte).tail ++ bytes.flatMap escape ++ encode encodes rest, ?_, hdigit⟩
    rw [encode_cons, encodeChar, if_pos hc, hbytes]
    rfl

theorem hexPair_encode (hkeeps : KeepsEscapes encodes) (text : List Char) :
    (hexPair (encode encodes text)).isSome = (hexPair text).isSome := by
  have hpercent : hexValue '%' = none := by decide
  match text with
  | [] => rfl
  | [a] =>
    rcases encode_head hkeeps a [] with ⟨tail, htail, ha⟩ | hsame
    · rw [htail]
      match tail with
      | [] => rfl
      | _ :: _ => simp [hexPair, hpercent]
    · rw [hsame, encode_nil]
  | a :: b :: rest =>
    rcases encode_head hkeeps a (b :: rest) with ⟨tail, htail, ha⟩ | hsame
    · rw [htail]
      match tail with
      | [] => simp [hexPair, ha]
      | _ :: _ => simp [hexPair, hpercent, ha]
    · rw [hsame]
      rcases encode_head hkeeps b rest with ⟨tail, htail, hb⟩ | hsame
      · rw [htail]
        cases ha : hexValue a <;> simp [hexPair, hpercent, ha, hb]
      · rw [hsame, hexPair_cons_cons, ← hexPair_cons_cons]

/-- Decoding does not see an encoding that leaves escapes as they are. -/
theorem percentDecode_encode (hkeeps : KeepsEscapes encodes) (text : List Char) :
    percentDecode (encode encodes text) = percentDecode text := by
  induction text using decode_induction with
  | nil => rfl
  | plain c rest hplain ih =>
    rw [percentDecode_cons hplain, encode_cons, ← ih]
    cases hc : encodes c with
    | true => rw [encodeChar, if_pos hc, percentDecode_escapes]
    | false =>
      rw [encodeChar_of_not hc, List.singleton_append, percentDecode_cons]
      rwa [hexPair_encode hkeeps]
  | escaped a b rest byte hbyte ih =>
    have hsome : (hexPair [a, b]).isSome := by simp [hbyte]
    have hdigits := hexPair_isSome.mp hsome
    rw [encode_cons, encode_cons, encode_cons, encodeChar_of_not (hkeeps _ (.inl rfl)),
      encodeChar_of_not (hkeeps _ (.inr hdigits.1)),
      encodeChar_of_not (hkeeps _ (.inr hdigits.2))]
    simp only [List.cons_append, List.nil_append]
    rw [percentDecode_escape hbyte, percentDecode_escape hbyte, ih]

/-- What an encoded text is made of. -/
theorem mem_encode (h : c ∈ encode encodes text) :
    c = '%' ∨ (hexValue c).isSome ∨ (c ∈ text ∧ encodes c = false) := by
  obtain ⟨d, hd, hc⟩ := List.mem_flatMap.mp h
  unfold encodeChar at hc
  split at hc
  · obtain ⟨byte, -, hescape⟩ := List.mem_flatMap.mp hc
    have hbyte : byte.toNat < 256 := byte.toNat_lt
    have hhigh := hexValue_hexDigit (show byte.toNat / 16 < 16 by omega)
    have hlow := hexValue_hexDigit (Nat.mod_lt byte.toNat (show 0 < 16 by decide))
    simp only [escape, List.mem_cons, List.not_mem_nil, or_false] at hescape
    rcases hescape with rfl | rfl | rfl
    · exact .inl rfl
    · exact .inr (.inl (by rw [hhigh]; rfl))
    · exact .inr (.inl (by rw [hlow]; rfl))
  · obtain rfl := List.mem_singleton.mp hc
    exact .inr (.inr ⟨hd, by simp_all⟩)

end Percent

end OcppProxy

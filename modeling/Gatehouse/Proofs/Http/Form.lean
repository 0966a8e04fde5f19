import Gatehouse.Http.Form
import Gatehouse.Proofs.Text.Utf8

/-!
# Forms read back

A form that is written from pairs of texts is read as those pairs, in their order, whatever
characters they have: no separator stands inside a name or a value, and each byte is read back from
what is written for it.
-/

namespace Gatehouse.Http

/-! ## What is written -/

def formPiece (b : UInt8) : List UInt8 :=
  if isFormByte b then [b] else if b = 32 then [43] else percentEscape b

theorem formEncodeText_eq (s : String) :
    formEncodeText s = (Text.Utf8.encode s).flatMap formPiece := rfl

def isWrittenByte (b : UInt8) : Bool := isFormByte b || b == 43 || b == 37

theorem isFormByte_upperHexDigit {n : Nat} (h : n < 16) : isFormByte (upperHexDigit n) = true := by
  decide +revert

theorem isWrittenByte_of_mem_formPiece {b c : UInt8} (h : c ∈ formPiece b) :
    isWrittenByte c = true := by
  have hdigit {n : Nat} (hn : n < 16) : isWrittenByte (upperHexDigit n) = true := by
    rw [isWrittenByte, isFormByte_upperHexDigit hn]
    rfl
  have hb := b.toNat_lt
  rw [formPiece] at h
  split at h
  · next hform =>
      rw [List.mem_singleton.mp h, isWrittenByte, hform]
      rfl
  split at h
  · rw [List.mem_singleton.mp h]
    rfl
  · simp only [percentEscape, List.mem_cons, List.not_mem_nil, or_false] at h
    obtain rfl | rfl | rfl := h
    · rfl
    · exact hdigit (by omega)
    · exact hdigit (by omega)

/-- Such a byte is ASCII and no separator. -/
theorem written_bounds {b : UInt8} (h : isWrittenByte b = true) :
    b.toNat < 128 ∧ b ≠ 38 ∧ b ≠ 61 := by
  have hall : ∀ n : Fin 256, isWrittenByte (UInt8.ofNat n) = true →
      (UInt8.ofNat n).toNat < 128 ∧ UInt8.ofNat n ≠ 38 ∧ UInt8.ofNat n ≠ 61 := by
    decide +kernel
  have hb := hall ⟨b.toNat, b.toNat_lt⟩
  rw [UInt8.ofNat_toNat] at hb
  exact hb h

theorem isWrittenByte_of_mem {s : String} {b : UInt8} (h : b ∈ formEncodeText s) :
    isWrittenByte b = true := by
  rw [formEncodeText_eq] at h
  obtain ⟨c, -, hc⟩ := List.mem_flatMap.mp h
  exact isWrittenByte_of_mem_formPiece hc

/-! ## Names and values -/

/-- A plus stands for a blank. -/
def unplus (b : UInt8) : UInt8 := if b = 43 then 32 else b

theorem formDecodeText_eq (bytes : List UInt8) :
    formDecodeText bytes = Text.Utf8.decodeLossy (percentDecodeFrom 0 (bytes.map unplus)) := rfl

theorem unplus_upperHexDigit {n : Nat} (h : n < 16) :
    unplus (upperHexDigit n) = upperHexDigit n := by
  decide +revert

theorem value?_upperHexDigit {n : Nat} (h : n < 16) :
    Text.Hex.value? (upperHexDigit n).toNat = some n := by
  decide +revert

theorem ne_of_isFormByte {b : UInt8} (h : isFormByte b = true) : b ≠ 37 ∧ b ≠ 43 := by
  constructor
  · rintro rfl
    exact absurd h (by decide)
  · rintro rfl
    exact absurd h (by decide)

/-- The two digits of an escape are its byte. -/
theorem escapedByte?_digits (b : UInt8) (rest : List UInt8) :
    escapedByte? (upperHexDigit (b.toNat / 16) :: upperHexDigit (b.toNat % 16) :: rest) =
      some b := by
  have hb := b.toNat_lt
  have hvalue : b.toNat / 16 * 16 + b.toNat % 16 = b.toNat := Nat.div_add_mod' ..
  simp only [escapedByte?, value?_upperHexDigit (show b.toNat / 16 < 16 by omega),
    value?_upperHexDigit (show b.toNat % 16 < 16 by omega)]
  change some (UInt8.ofNat (b.toNat / 16 * 16 + b.toNat % 16)) = some b
  rw [hvalue, UInt8.ofNat_toNat]

/-- What is written for a byte is read as that byte. -/
theorem percentDecodeFrom_formPiece (b : UInt8) (rest : List UInt8) :
    percentDecodeFrom 0 ((formPiece b).map unplus ++ rest) = b :: percentDecodeFrom 0 rest := by
  have hb := b.toNat_lt
  rw [formPiece]
  split
  · next hform =>
      obtain ⟨hpercent, hplus⟩ := ne_of_isFormByte hform
      rw [List.map_singleton, unplus, if_neg hplus, List.singleton_append, percentDecodeFrom,
        if_neg hpercent]
  split
  · next hblank =>
      subst hblank
      rfl
  · have hpiece : (percentEscape b).map unplus = percentEscape b := by
      simp only [percentEscape, List.map_cons, List.map_nil,
        unplus_upperHexDigit (show b.toNat / 16 < 16 by omega),
        unplus_upperHexDigit (show b.toNat % 16 < 16 by omega)]
      rfl
    rw [hpiece, percentEscape, List.cons_append, List.cons_append, List.cons_append,
      List.nil_append, percentDecodeFrom, if_pos rfl, escapedByte?_digits]
    rfl

theorem percentDecodeFrom_flatMap (bytes : List UInt8) :
    percentDecodeFrom 0 ((bytes.flatMap formPiece).map unplus) = bytes := by
  induction bytes with
  | nil => rfl
  | cons b rest ih =>
      rw [List.flatMap_cons, List.map_append, percentDecodeFrom_formPiece, ih]

/-- A name or a value is read as it was written. -/
theorem formDecodeText_formEncodeText (s : String) : formDecodeText (formEncodeText s) = s := by
  rw [formDecodeText_eq, formEncodeText_eq, percentDecodeFrom_flatMap,
    Text.Utf8.decodeLossy_encode]

/-! ## Pairs -/

theorem splitBytes_of_not_mem {sep : UInt8} {piece : List UInt8} (h : sep ∉ piece) :
    splitBytes sep piece = [piece] := by
  induction piece with
  | nil => rfl
  | cons b rest ih =>
      rw [List.mem_cons, not_or] at h
      rw [splitBytes, if_neg (Ne.symm h.1), ih h.2]

theorem splitBytes_append {sep : UInt8} {piece : List UInt8} (h : sep ∉ piece)
    (rest : List UInt8) : splitBytes sep (piece ++ sep :: rest) = piece :: splitBytes sep rest := by
  induction piece with
  | nil => rw [List.nil_append, splitBytes, if_pos rfl]
  | cons b piece ih =>
      rw [List.mem_cons, not_or] at h
      rw [List.cons_append, splitBytes, if_neg (Ne.symm h.1), ih h.2]

theorem cutBytes_append {sep : UInt8} {before : List UInt8} (h : sep ∉ before)
    (after : List UInt8) : cutBytes sep (before ++ sep :: after) = (before, after) := by
  induction before with
  | nil => rw [List.nil_append, cutBytes, if_pos rfl]
  | cons b before ih =>
      rw [List.mem_cons, not_or] at h
      rw [List.cons_append, cutBytes, if_neg (Ne.symm h.1), ih h.2]

theorem amp_not_mem_formEncodePair (pair : String × String) : 38 ∉ formEncodePair pair := by
  have htext (s : String) : 38 ∉ formEncodeText s := fun h =>
    (written_bounds (isWrittenByte_of_mem h)).2.1 rfl
  rw [formEncodePair, List.mem_append, List.mem_cons, not_or, not_or]
  exact ⟨htext pair.1, by decide, htext pair.2⟩

/-- A form is cut into its pairs. -/
theorem splitBytes_formEncode (pair : String × String) (rest : List (String × String)) :
    splitBytes 38 (formEncode (pair :: rest)) = (pair :: rest).map formEncodePair := by
  induction rest generalizing pair with
  | nil => exact splitBytes_of_not_mem (amp_not_mem_formEncodePair pair)
  | cons next rest ih =>
      rw [formEncode, splitBytes_append (amp_not_mem_formEncodePair pair), ih]
      · rfl
      · exact List.cons_ne_nil _ _

def readPair? (piece : List UInt8) : Option (String × String) :=
  if piece.isEmpty then none
  else
    let (name, value) := cutBytes 61 piece
    some (formDecodeText name, formDecodeText value)

theorem formDecode_eq (bytes : List UInt8) :
    formDecode bytes = (splitBytes 38 bytes).filterMap readPair? := rfl

theorem readPair?_formEncodePair (pair : String × String) :
    readPair? (formEncodePair pair) = some pair := by
  have hname : 61 ∉ formEncodeText pair.1 := fun h =>
    (written_bounds (isWrittenByte_of_mem h)).2.2 rfl
  have hfilled : (formEncodePair pair).isEmpty = false :=
    List.isEmpty_eq_false_iff.mpr (List.append_ne_nil_of_right_ne_nil _ (List.cons_ne_nil _ _))
  rw [readPair?, hfilled, formEncodePair, cutBytes_append hname]
  simp only [Bool.false_eq_true, if_false, formDecodeText_formEncodeText]

/-- A form is read as the pairs it was written from. -/
theorem formDecode_formEncode (pairs : List (String × String)) :
    formDecode (formEncode pairs) = pairs := by
  cases pairs with
  | nil => rfl
  | cons pair rest =>
      rw [formDecode_eq, splitBytes_formEncode, List.filterMap_map]
      have hread : readPair? ∘ formEncodePair = some := funext readPair?_formEncodePair
      rw [hread, List.filterMap_some]

theorem formEncode_eq_nil_iff {pairs : List (String × String)} :
    formEncode pairs = [] ↔ pairs = [] := by
  refine ⟨fun h => ?_, fun h => h ▸ rfl⟩
  rw [← formDecode_formEncode pairs, h]
  rfl

/-! ## Forms as texts -/

def formText (pairs : List (String × String)) : String :=
  String.ofList ((formEncode pairs).map fun b => Char.ofNat b.toNat)

theorem formEncode_ascii (pairs : List (String × String)) :
    ∀ b ∈ formEncode pairs, b.toNat < 128 := by
  have htext (s : String) : ∀ b ∈ formEncodeText s, b.toNat < 128 := fun b h =>
    (written_bounds (isWrittenByte_of_mem h)).1
  have hpair (pair : String × String) : ∀ b ∈ formEncodePair pair, b.toNat < 128 := by
    simp only [formEncodePair, List.forall_mem_append, List.forall_mem_cons]
    exact ⟨htext pair.1, by decide, htext pair.2⟩
  induction pairs with
  | nil => exact List.forall_mem_nil _
  | cons pair rest ih =>
      cases rest with
      | nil => exact hpair pair
      | cons next rest =>
          simp only [formEncode, List.forall_mem_append, List.forall_mem_cons]
          exact ⟨hpair pair, by decide, ih⟩

/-- The text of a form has the bytes of the form. -/
@[simp]
theorem encode_formText (pairs : List (String × String)) :
    Text.Utf8.encode (formText pairs) = formEncode pairs :=
  Text.Utf8.encode_ascii (formEncode_ascii pairs)

end Gatehouse.Http

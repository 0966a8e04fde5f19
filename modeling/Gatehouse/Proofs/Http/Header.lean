import Gatehouse.Http.Header
import Gatehouse.Proofs.Text.Utf8

/-!
# Header values as texts

A header value is a text only if all of it can be seen, and then it is the text whose bytes it has.
-/

namespace Gatehouse.Http

theorem isVisibleByte_iff {b : UInt8} :
    isVisibleByte b = true ↔ 32 ≤ b.toNat ∧ b.toNat < 127 ∨ b.toNat = 9 := by
  simp only [isVisibleByte, Bool.or_eq_true, Bool.and_eq_true, decide_eq_true_eq, beq_iff_eq,
    UInt8.le_iff_toNat_le, UInt8.lt_iff_toNat_lt, ← UInt8.toNat_inj, UInt8.reduceToNat]

theorem visibleText?_eq_some {value : List UInt8} {s : String} :
    visibleText? value = some s ↔
      value = Text.Utf8.encode s ∧ ∀ b ∈ value, isVisibleByte b = true := by
  rw [visibleText?]
  by_cases h : value.all isVisibleByte = true
  · have hvisible := List.all_eq_true.mp h
    have hbytes : Text.Utf8.encode (String.ofList (value.map fun b => Char.ofNat b.toNat)) =
        value := by
      apply Text.Utf8.encode_ascii
      intro b hb
      have hbounds := isVisibleByte_iff.mp (hvisible b hb)
      omega
    rw [if_pos h, Option.some.injEq]
    constructor
    · rintro rfl
      exact ⟨hbytes.symm, hvisible⟩
    · rintro ⟨hvalue, -⟩
      exact Text.Utf8.encode_injective (hbytes.trans hvalue)
  · rw [if_neg h]
    constructor
    · intro hnone
      cases hnone
    · rintro ⟨-, hvisible⟩
      exact absurd (List.all_eq_true.mpr hvisible) h

/-- A text that can be seen is read as it is written. -/
theorem visibleText?_encode {s : String} (h : ∀ c ∈ s.toList, 32 ≤ c.toNat ∧ c.toNat < 127) :
    visibleText? (Text.Utf8.encode s) = some s := by
  have hascii : ∀ c ∈ s.toList, c.toNat < 128 := fun c hc => by
    have hvisible := h c hc
    omega
  refine visibleText?_eq_some.mpr ⟨rfl, fun b hb => ?_⟩
  rw [Text.Utf8.encode_eq, Text.Utf8.encodeChars_of_ascii hascii] at hb
  obtain ⟨c, hc, rfl⟩ := List.mem_map.mp hb
  have hvisible := h c hc
  rw [isVisibleByte_iff, Text.Utf8.toNat_byte (by omega)]
  exact .inl hvisible

/-- The first value of a name is a text. -/
theorem Headers.text?_eq_some {headers : Headers} {name s : String} :
    headers.text? name = some s ↔ headers.get? name = some (Text.Utf8.encode s) ∧
      ∀ b ∈ Text.Utf8.encode s, isVisibleByte b = true := by
  rw [Headers.text?, Option.bind_eq_some_iff]
  constructor
  · rintro ⟨value, hvalue, htext⟩
    obtain ⟨rfl, hvisible⟩ := visibleText?_eq_some.mp htext
    exact ⟨hvalue, hvisible⟩
  · rintro ⟨hvalue, hvisible⟩
    exact ⟨_, hvalue, visibleText?_eq_some.mpr ⟨rfl, hvisible⟩⟩

/-- A value that is inserted is the only one of its name. -/
theorem Headers.getAll_insert_self (headers : Headers) (name : String) (value : List UInt8) :
    (headers.insert name value).getAll name = [value] := by
  have hothers : (headers.remove name).getAll name = [] := by
    simp [getAll, remove, List.filterMap_filter]
  calc (headers.insert name value).getAll name
      = (headers.remove name).getAll name ++ [value] := by
        simp [insert, append, getAll]
    _ = [value] := by rw [hothers, List.nil_append]

theorem Headers.text?_insert_self (headers : Headers) (name : String) {s : String}
    (h : ∀ b ∈ Text.Utf8.encode s, isVisibleByte b = true) :
    (headers.insert name (Text.Utf8.encode s)).text? name = some s := by
  apply Headers.text?_eq_some.mpr
  rw [Headers.get?, Headers.getAll_insert_self]
  exact ⟨rfl, h⟩

end Gatehouse.Http

import Gatehouse.Proofs.Json.Printed
import Gatehouse.Response.Codec

/-!
# The structured codec

An exact value that opens no more brackets than a reader allows is read back from what the codec
writes of it.  So the codec writes no two such values alike, and a stripped value, which is one of
them, arrives as it was stripped.
-/

namespace Gatehouse.Response.Codec

open Json (maxDepth)

theorem decode_renderBytes {value : Json} (h : value.isExact = true)
    (hnesting : value.nesting ≤ maxDepth) : json.decode value.renderBytes = .ok value := by
  change (Json.read value.renderBytes).mapError _ = _
  rw [Json.read_renderBytes value h hnesting]
  rfl

/-- Two exact values of which the codec writes the same are the same. -/
theorem eq_of_encode_eq {value other : Json} {bytes : List UInt8} (h : value.isExact = true)
    (hnesting : value.nesting ≤ maxDepth) (hother : other.isExact = true)
    (hotherNesting : other.nesting ≤ maxDepth) (hvalue : json.encode value = .ok bytes)
    (hsame : json.encode other = .ok bytes) : other = value := by
  cases hvalue
  have hbytes : other.renderBytes = value.renderBytes := Except.ok.inj hsame
  apply Except.ok.inj (ε := CodecError)
  calc Except.ok other
      = json.decode other.renderBytes := (decode_renderBytes hother hotherNesting).symm
    _ = json.decode value.renderBytes := by rw [hbytes]
    _ = .ok value := decode_renderBytes h hnesting

/-- What the codec writes of an exact value it reads back, and it writes the same of no other one;
what it writes of the stripped value it reads back as the stripped value. -/
theorem exact_values_return (value : Json) (h : value.isExact = true)
    (hnesting : value.nesting ≤ maxDepth) :
    (∃ bytes, json.encode value = .ok bytes ∧ json.decode bytes = .ok value ∧
      ∀ other : Json, other.isExact = true → other.nesting ≤ maxDepth →
        json.encode other = .ok bytes → other = value) ∧
    ∃ stripped, json.encode value.strip = .ok stripped ∧
      json.decode stripped = .ok value.strip := by
  constructor
  · refine ⟨value.renderBytes, rfl, decode_renderBytes h hnesting, ?_⟩
    intro other hother hotherNesting hsame
    exact eq_of_encode_eq h hnesting hother hotherNesting rfl hsame
  · refine ⟨value.strip.renderBytes, rfl, ?_⟩
    exact decode_renderBytes (Json.isExact_strip value h)
      ((Json.nesting_strip_le value).trans hnesting)

/-- Both 64-bit bounds, an escape, a character beyond the basic plane and diagnostics inside a
list. -/
def sample : Json := .obj
  [("\u0001😀", .arr [.obj [("CallStack", .str "main"), ("é", .arr [])]]),
    ("a\n\"", .arr [.int (-9223372036854775808), .int 18446744073709551615, .null, .bool true])]

theorem sample_returns : sample.isExact = true ∧ sample.nesting ≤ maxDepth ∧
    (∃ bytes, json.encode sample = .ok bytes ∧ json.decode bytes = .ok sample ∧
      ∀ other : Json, other.isExact = true → other.nesting ≤ maxDepth →
        json.encode other = .ok bytes → other = sample) ∧
    ∃ stripped, json.encode sample.strip = .ok stripped ∧
      json.decode stripped = .ok sample.strip :=
  ⟨rfl, by decide, exact_values_return sample (rfl) (by decide)⟩

end Gatehouse.Response.Codec

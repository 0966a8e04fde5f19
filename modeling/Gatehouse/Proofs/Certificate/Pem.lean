import Gatehouse.Certificate.Pem
import Gatehouse.Proofs.Base64
import Gatehouse.Proofs.Effect
import Gatehouse.Proofs.Text.Split
import Gatehouse.Proofs.Text.Utf8

/-!
# Armoured blocks

Neither a body nor what stands before a block holds the character that both marks begin with, so
that the marks are found where they were put and the bytes of a block return.
-/

namespace Gatehouse.Certificate

/-! ## Bodies -/

def symbolChars (bytes : List UInt8) : List Char :=
  (Base64.encode Base64.standard bytes).map fun b => Char.ofNat b.toNat

/-- The characters of a body are ASCII, no blanks, and none begins a mark. -/
theorem symbol_code (bytes : List UInt8) : ∀ s ∈ Base64.encode Base64.standard bytes,
    s.toNat < 128 ∧ Text.isBlank (Char.ofNat s.toNat) = false ∧ Char.ofNat s.toNat ≠ '-' := by
  have hall : ∀ n : Fin 64, (Base64.standard.symbol n).toNat < 128 ∧
      Text.isBlank (Char.ofNat (Base64.standard.symbol n).toNat) = false ∧
        Char.ofNat (Base64.standard.symbol n).toNat ≠ '-' := by decide
  exact Base64.forall_mem_encode (fun n hn => hall ⟨n, hn⟩) (fun _ => by decide) bytes

theorem dash_not_mem_symbolChars (bytes : List UInt8) : '-' ∉ symbolChars bytes := by
  intro h
  obtain ⟨s, hs, hdash⟩ := List.mem_map.mp h
  exact (symbol_code bytes s hs).2.2 hdash

theorem filter_symbolChars (bytes : List UInt8) :
    (symbolChars bytes).filter (fun c => !Text.isBlank c) = symbolChars bytes := by
  rw [List.filter_eq_self]
  intro c hc
  obtain ⟨s, hs, rfl⟩ := List.mem_map.mp hc
  rw [(symbol_code bytes s hs).2.1]
  rfl

/-- A body of some bytes: blanks stand anywhere in it. -/
def IsBody (bytes : List UInt8) (body : List Char) : Prop :=
  body.filter (fun c => !Text.isBlank c) = symbolChars bytes

theorem IsBody.dash_not_mem {bytes : List UInt8} {body : List Char} (h : IsBody bytes body) :
    '-' ∉ body := by
  intro hdash
  refine dash_not_mem_symbolChars bytes ?_
  rw [← h]
  exact List.mem_filter.mpr ⟨hdash, by decide⟩

theorem encode_symbolChars (bytes : List UInt8) :
    Text.Utf8.encode (String.ofList (symbolChars bytes)) =
      Base64.encode Base64.standard bytes :=
  Text.Utf8.encode_ascii fun s hs => (symbol_code bytes s hs).1

/-- A text is read as some bytes exactly if it is a body of them. -/
theorem decodeBody_eq_ok {bytes : List UInt8} {body : List Char} :
    decodeBody body = .ok bytes ↔ IsBody bytes body := by
  have hsymbols : (body.filter fun c => !Text.isBlank c).flatMap String.utf8EncodeChar =
      Text.Utf8.encode (String.ofList (body.filter fun c => !Text.isBlank c)) := by
    rw [Text.Utf8.encode, String.toList_ofList]
  rw [decodeBody, Effect.mapError_eq_ok, hsymbols, Base64.decode_eq_ok, ← encode_symbolChars,
    Text.Utf8.encode_injective.eq_iff, String.ofList_inj]
  rfl

/-! ## Blocks -/

/-- A block of some bytes, with a text before it in which no mark begins. -/
inductive IsBlock (bytes : List UInt8) : List Char → Prop where
  | mk {filler body : List Char} (hfiller : '-' ∉ filler) (hbody : IsBody bytes body) :
      IsBlock bytes (filler ++ beginMark ++ (body ++ endMark))

/-- A text in which both marks are found is read body after body. -/
theorem pemBlocks_of_cuts {text filler fromBody body rest : List Char}
    (hbegin : Text.cutAt? beginMark text = some (filler, fromBody))
    (hend : Text.cutAt? endMark fromBody = some (body, rest)) :
    pemBlocks text = (do
      let block ← decodeBody body
      let blocks ← pemBlocks rest
      return block :: blocks) := by
  rw [pemBlocks]
  split
  · next hnone =>
      rw [hbegin] at hnone
      cases hnone
  · next hsome =>
      rw [hbegin] at hsome
      cases hsome
      split
      · next hnone =>
          rw [hend] at hnone
          cases hnone
      · next hsome =>
          rw [hend] at hsome
          cases hsome
          rfl

/-- A text in which no mark begins holds no block. -/
theorem pemBlocks_of_dash_not_mem {text : List Char} (h : '-' ∉ text) :
    pemBlocks text = .ok [] := by
  have hbegin : Text.cutAt? beginMark text = none := Text.cutAt?_of_not_mem h
  rw [pemBlocks]
  split
  · rfl
  · next hsome =>
      rw [hbegin] at hsome
      cases hsome

/-- The first bytes of a text that begins with a block are those of the block. -/
theorem pemBlocks_append {bytes : List UInt8} {block : List Char} (h : IsBlock bytes block)
    (rest : List Char) : pemBlocks (block ++ rest) = (pemBlocks rest).map (bytes :: ·) := by
  cases h with
  | @mk filler body hfiller hbody =>
      have hbegin : Text.cutAt? beginMark (filler ++ beginMark ++ (body ++ endMark) ++ rest) =
          some (filler, body ++ endMark ++ rest) := by
        rw [List.append_assoc _ (body ++ endMark)]
        exact Text.cutAt?_append hfiller _
      have hend : Text.cutAt? endMark (body ++ endMark ++ rest) = some (body, rest) :=
        Text.cutAt?_append hbody.dash_not_mem rest
      rw [pemBlocks_of_cuts hbegin hend, decodeBody_eq_ok.mpr hbody]
      cases pemBlocks rest <;> rfl

/-- An armoured block is one, with a line end behind it. -/
theorem isBlock_armour (bytes : List UInt8) :
    ∃ block, IsBlock bytes block ∧ (armour bytes).toList = block ++ ['\n'] := by
  have hbody : IsBody bytes ('\n' :: symbolChars bytes ++ ['\n']) := by
    have hend : (!Text.isBlank '\n') = false := by decide
    simp [IsBody, hend, filter_symbolChars]
  refine ⟨_, .mk List.not_mem_nil hbody, ?_⟩
  simp [armour, symbolChars]

end Gatehouse.Certificate

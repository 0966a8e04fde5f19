import Gatehouse.Proofs.Base64
import Gatehouse.Proofs.Text.Split
import Gatehouse.Proofs.Token.Verification

/-!
# Tokens signed with a secret

A token that is made with a secret is taken apart as it was put together, and its signature is that
of the secret, whatever its payload is.
-/

namespace Gatehouse.Token

open Effect (bind_eq_ok)

/-! ## Symbols -/

/-- A symbol of a part: it can be seen, and it is no point. -/
def IsSymbol (c : Char) : Prop := 32 < c.toNat ∧ c.toNat < 127 ∧ c ≠ '.'

instance (c : Char) : Decidable (IsSymbol c) := inferInstanceAs (Decidable (_ ∧ _))

theorem isSymbol_encodePart (bytes : List UInt8) : ∀ c ∈ encodePart bytes, IsSymbol c := by
  have hall : ∀ n : Fin 64, IsSymbol (Char.ofNat (Base64.urlSafe.symbol n).toNat) := by decide
  have hencode : ∀ b ∈ Base64.encode Base64.urlSafe bytes, IsSymbol (Char.ofNat b.toNat) :=
    Base64.forall_mem_encode (fun n hn => hall ⟨n, hn⟩) (fun hpadding => by cases hpadding) bytes
  intro c hmem
  obtain ⟨b, hb, rfl⟩ := List.mem_map.mp hmem
  exact hencode b hb

/-! ## Parts -/

/-- A text is cut at its last point. -/
theorem cutAtLast?_point (before : List Char) {after : List Char} (h : '.' ∉ after) :
    Text.cutAtLast? ['.'] (before ++ '.' :: after) = some (before, after) := by
  simpa using Text.cutAtLast?_append before List.not_mem_nil h

/-- A token is taken apart as it was put together. -/
theorem ofToken?_ofList (parts : Parts) (hpayload : '.' ∉ parts.payload)
    (hsignature : '.' ∉ parts.signature) :
    Parts.ofToken?
        (String.ofList (parts.header ++ '.' :: parts.payload ++ '.' :: parts.signature)) =
      some parts := by
  rw [Parts.ofToken?, String.toList_ofList, cutAtLast?_point _ hsignature]
  change (Text.cutAtLast? ['.'] (parts.header ++ '.' :: parts.payload)).bind _ = _
  rw [cutAtLast?_point _ hpayload]
  rfl

theorem point_not_mem_encodePart (bytes : List UInt8) : '.' ∉ encodePart bytes :=
  fun hmem => (isSymbol_encodePart bytes '.' hmem).2.2 rfl

/-! ## Signed tokens -/

def signedHeader (algorithm : Algorithm) : Json :=
  .obj [("alg", .str (((Algorithm.named.find? (·.2 == algorithm)).map Prod.fst).getD "")),
    ("typ", .str "JWT")]

def signedParts (algorithm : Algorithm) (secret : List UInt8) (payload : Json) : Parts :=
  let parts : Parts :=
    ⟨encodePart (signedHeader algorithm).renderBytes, encodePart payload.renderBytes, []⟩
  { parts with signature := encodePart (hmac algorithm.hash secret parts.message) }

theorem sign_ne_empty (algorithm : Algorithm) (secret : List UInt8) (payload : Json) :
    sign algorithm secret payload ≠ "" := by
  intro hempty
  have hchars := congrArg String.toList hempty
  rw [sign, String.toList_ofList] at hchars
  exact List.append_ne_nil_of_right_ne_nil _ (List.cons_ne_nil _ _) hchars

/-- A token can be seen from end to end. -/
theorem visible_sign (algorithm : Algorithm) (secret : List UInt8) (payload : Json) :
    ∀ c ∈ (sign algorithm secret payload).toList, 32 < c.toNat ∧ c.toNat < 127 := by
  have hsymbols (bytes : List UInt8) : ∀ c ∈ encodePart bytes, 32 < c.toNat ∧ c.toNat < 127 :=
    fun c hmem => ⟨(isSymbol_encodePart bytes c hmem).1, (isSymbol_encodePart bytes c hmem).2.1⟩
  have hpoint : 32 < '.'.toNat ∧ '.'.toNat < 127 := by decide
  rw [sign, String.toList_ofList]
  simp only [List.forall_mem_append, List.forall_mem_cons]
  exact ⟨⟨hsymbols _, hpoint, hsymbols _⟩, hpoint, hsymbols _⟩

theorem ofToken?_sign (algorithm : Algorithm) (secret : List UInt8) (payload : Json) :
    Parts.ofToken? (sign algorithm secret payload) =
      some (signedParts algorithm secret payload) :=
  ofToken?_ofList (signedParts algorithm secret payload) (point_not_mem_encodePart _)
    (point_not_mem_encodePart _)

/-- The header that is written is the header that is read. -/
theorem read_signedHeader {algorithm : Algorithm} (h : algorithm.family = .hmac) :
    ∃ bytes, decodePart (encodePart (signedHeader algorithm).renderBytes) = .ok bytes ∧
      readPart readHeaderText bytes = .ok ⟨algorithm⟩ := by
  have hread : ((decodePart (encodePart (signedHeader algorithm).renderBytes)).bind
      (readPart readHeaderText)).toOption.map (·.algorithm) = some algorithm := by
    cases algorithm with
    | hs256 => decide +kernel
    | hs384 => decide +kernel
    | hs512 => decide +kernel
    | _ => cases h
  cases hbytes : decodePart (encodePart (signedHeader algorithm).renderBytes) with
  | error e =>
      rw [hbytes] at hread
      cases hread
  | ok bytes =>
      refine ⟨bytes, rfl, ?_⟩
      rw [hbytes] at hread
      change (readPart readHeaderText bytes).toOption.map (·.algorithm) = _ at hread
      cases hheader : readPart readHeaderText bytes with
      | error e =>
          rw [hheader] at hread
          cases hread
      | ok header =>
          rw [hheader] at hread
          cases header
          cases hread
          rfl

/-- A token that is signed with a secret has the signature of the secret. -/
theorem signed_sign {algorithm : Algorithm} (h : algorithm.family = .hmac) (secret : List UInt8)
    (payload : Json) :
    Signed checkSignature (sign algorithm secret payload) (signedParts algorithm secret payload)
      algorithm secret where
  header := by
    obtain ⟨bytes, hbytes, hheader⟩ := read_signedHeader h
    rw [readHeader, ofToken?_sign]
    exact bind_eq_ok.mpr ⟨bytes, hbytes, bind_eq_ok.mpr ⟨_, hheader, rfl⟩⟩
  signature := by
    have hkeyed (message : List UInt8) : checkSignature algorithm secret message
        (encodePart (hmac algorithm.hash secret message)) = .ok true := by
      cases algorithm with
      | hs256 => exact congrArg Except.ok (beq_self_eq_true _)
      | hs384 => exact congrArg Except.ok (beq_self_eq_true _)
      | hs512 => exact congrArg Except.ok (beq_self_eq_true _)
      | _ => cases h
    exact hkeyed _

end Gatehouse.Token

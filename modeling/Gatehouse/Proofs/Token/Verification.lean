import Gatehouse.Proofs.Effect
import Gatehouse.Token.Compact

/-!
# What a verified token has shown

A token that is verified has been read, its algorithm is the expected one, its signature is that of
the key, and its registered claims are in order at the time.  The converse holds too, so nothing
else is asked of a token.
-/

namespace Gatehouse.Token

open Effect (bind_eq_ok ite_throw_eq_ok)

/-! ## The registered claims -/

/-- Registered claims are in order at a time.  Issuers and audiences are compared only where the
token names some. -/
structure Claims.InOrder (claims : Claims) (v : Validation) (now : Nat) : Prop where
  expires : ∃ expires, claims.expires = some expires ∧ v.earliestEnd now ≤ expires
  issuer : ∀ issuers, claims.issuers = some issuers → ∃ issuer ∈ issuers, issuer ∈ v.issuers
  audience : ∀ audience audiences, v.audience = some audience →
    claims.audiences = some audiences → audience ∈ audiences

namespace Validation

/-- From the leeway on the clock is compared with the end of a token as it is. -/
theorem earliestEnd_le_iff {v : Validation} {now expires : Nat} (h : v.leeway ≤ now) :
    v.earliestEnd now ≤ expires ↔ now ≤ expires + v.leeway := by
  rw [earliestEnd, if_pos h, Nat.sub_le_iff_le_add]

theorem le_add_of_earliestEnd_le {v : Validation} {now expires : Nat}
    (h : v.earliestEnd now ≤ expires) : now ≤ expires + v.leeway := by
  by_cases hleeway : v.leeway ≤ now
  · exact (earliestEnd_le_iff hleeway).mp h
  · omega

variable (v : Validation) (now : Nat) (claims : Claims)

def checkExpiry : Except TokenError Unit :=
  match claims.expires with
  | none => throw (.missingClaim "exp")
  | some expires => if expires < v.earliestEnd now then throw .expired else pure ()

def checkIssuer : Except TokenError Unit :=
  match claims.issuers with
  | some issuers => if !issuers.any v.issuers.contains then throw .invalidIssuer else pure ()
  | none => pure ()

def checkAudience : Except TokenError Unit :=
  match v.audience, claims.audiences with
  | some audience, some audiences =>
    if !audiences.contains audience then throw .invalidAudience else pure ()
  | _, _ => pure ()

/-- The registered claims are checked one after another. -/
theorem check_eq : v.check now claims =
    (do v.checkExpiry now claims; v.checkIssuer claims; v.checkAudience claims) := by
  unfold check checkExpiry checkIssuer checkAudience
  rcases claims.expires with _ | expires
  · rfl
  · by_cases hexpired : expires < v.earliestEnd now
    · simp only [hexpired, if_true]
      rfl
    · simp only [hexpired, if_false]
      rcases claims.issuers with _ | issuers
      · rfl
      · by_cases hforeign : (!issuers.any v.issuers.contains) = true
        · simp only [hforeign, if_true]
          rfl
        · simp only [hforeign]
          rfl

variable {v now claims}

theorem checkExpiry_eq_ok : v.checkExpiry now claims = .ok () ↔
    ∃ expires, claims.expires = some expires ∧ v.earliestEnd now ≤ expires := by
  rw [checkExpiry]
  rcases claims.expires with _ | expires
  · constructor
    · intro h
      cases h
    · rintro ⟨_, h, _⟩
      cases h
  · simp only [ite_throw_eq_ok, Nat.not_lt, Option.some.injEq, exists_eq_left']
    exact ⟨And.left, fun h => ⟨h, rfl⟩⟩

theorem checkIssuer_eq_ok : v.checkIssuer claims = .ok () ↔
    ∀ issuers, claims.issuers = some issuers → ∃ issuer ∈ issuers, issuer ∈ v.issuers := by
  rw [checkIssuer]
  rcases claims.issuers with _ | issuers
  · exact ⟨fun _ _ h => (nomatch h), fun _ => rfl⟩
  · have hany : issuers.any v.issuers.contains = true ↔
        ∃ issuer ∈ issuers, issuer ∈ v.issuers := by
      simp [List.any_eq_true]
    simp only [ite_throw_eq_ok, Bool.not_eq_true', Bool.not_eq_false, hany, Option.some.injEq,
      forall_eq']
    exact ⟨And.left, fun h => ⟨h, rfl⟩⟩

theorem checkAudience_eq_ok : v.checkAudience claims = .ok () ↔
    ∀ audience audiences, v.audience = some audience → claims.audiences = some audiences →
      audience ∈ audiences := by
  rw [checkAudience]
  rcases v.audience with _ | audience
  · exact ⟨fun _ _ _ h => (nomatch h), fun _ => rfl⟩
  · rcases claims.audiences with _ | audiences
    · exact ⟨fun _ _ _ _ h => (nomatch h), fun _ => rfl⟩
    · simp only [ite_throw_eq_ok, Bool.not_eq_true', Bool.not_eq_false, List.contains_iff_mem]
      constructor
      · rintro ⟨hmem, -⟩ _ _ ⟨rfl⟩ ⟨rfl⟩
        exact hmem
      · intro h
        exact ⟨h audience audiences rfl rfl, rfl⟩

/-- A check passes exactly the claims that are in order. -/
theorem check_eq_ok : v.check now claims = .ok () ↔ claims.InOrder v now := by
  rw [check_eq]
  constructor
  · intro h
    obtain ⟨⟨⟩, hexpiry, h⟩ := bind_eq_ok.mp h
    obtain ⟨⟨⟩, hissuer, haudience⟩ := bind_eq_ok.mp h
    exact ⟨checkExpiry_eq_ok.mp hexpiry, checkIssuer_eq_ok.mp hissuer,
      checkAudience_eq_ok.mp haudience⟩
  · intro h
    rw [checkExpiry_eq_ok.mpr h.expires]
    change (v.checkIssuer claims >>= fun _ => v.checkAudience claims) = .ok ()
    rw [checkIssuer_eq_ok.mpr h.issuer]
    exact checkAudience_eq_ok.mpr h.audience

end Validation

/-! ## The whole token -/

/-- The token has a header that names the algorithm, and its signature is that of the key. -/
structure Signed (check : SignatureCheck) (token : String) (parts : Parts)
    (algorithm : Algorithm) (key : List UInt8) : Prop where
  header : readHeader token = .ok (parts, ⟨algorithm⟩)
  signature : check algorithm key parts.message parts.signature = .ok true

/-- What a token has to show to be verified, and what is read of it. -/
structure Verified (check : SignatureCheck) (v : Validation) (key : List UInt8) (now : Nat)
    (token : String) (parts : Parts) (payload : Json) (claims : Claims) : Prop
    extends Signed check token parts v.algorithm key where
  read : parts.claims = .ok (payload, claims)
  inOrder : claims.InOrder v now

/-- Of a signed token that is read, only the registered claims are left to check. -/
theorem verifyWith_of_signed {check : SignatureCheck} {v : Validation} {key : List UInt8}
    {now : Nat} {token : String} {parts : Parts} {payload : Json} {claims : Claims}
    (h : Signed check token parts v.algorithm key) (hread : parts.claims = .ok (payload, claims)) :
    verifyWith check v key now token = (v.check now claims).map fun _ => payload := by
  rw [verifyWith, h.header]
  change (if v.algorithm ≠ v.algorithm then _ else _) = _
  rw [if_neg (Decidable.not_not.mpr rfl)]
  change (check v.algorithm key parts.message parts.signature >>= _) = _
  rw [h.signature]
  change (parts.claims >>= _) = _
  rw [hread]
  change (v.check now claims >>= _) = _
  cases v.check now claims with
  | error e => rfl
  | ok _ => rfl

theorem verifyWith_eq_ok {check : SignatureCheck} {v : Validation} {key : List UInt8} {now : Nat}
    {token : String} {payload : Json} :
    verifyWith check v key now token = .ok payload ↔
      ∃ parts claims, Verified check v key now token parts payload claims := by
  constructor
  · intro h
    rw [verifyWith] at h
    obtain ⟨⟨parts, ⟨algorithm⟩⟩, hheader, h⟩ := bind_eq_ok.mp h
    obtain ⟨halgorithm, h⟩ := ite_throw_eq_ok.mp h
    obtain ⟨genuine, hsignature, h⟩ := bind_eq_ok.mp h
    obtain ⟨hgenuine, h⟩ := ite_throw_eq_ok.mp h
    obtain ⟨⟨read, claims⟩, hread, h⟩ := bind_eq_ok.mp h
    obtain ⟨⟨⟩, hcheck, ⟨rfl⟩⟩ := bind_eq_ok.mp h
    obtain rfl : algorithm = v.algorithm := Decidable.not_not.mp halgorithm
    obtain rfl : genuine = true := by simpa using hgenuine
    exact ⟨parts, claims, ⟨⟨hheader, hsignature⟩, hread, Validation.check_eq_ok.mp hcheck⟩⟩
  · rintro ⟨parts, claims, h⟩
    rw [verifyWith_of_signed h.toSigned h.read, Validation.check_eq_ok.mpr h.inOrder]
    rfl

end Gatehouse.Token

import Gatehouse.Proofs.Identity.Audience

/-!
# When a token is honoured

A token may say from when on it is valid and says until when it is.  A provider compares the end
with its clock and leaves the beginning alone: a token that is accepted at some time has been
accepted ever before, as far back as the leeway can be taken off the clock, and no time is too early
for it.
-/

namespace Gatehouse.Identity

open Token

/-! ## The clock -/

section

variable {check : SignatureCheck} {v : Validation} {key : List UInt8} {now : Nat} {token : String}
  {parts : Parts} {payload : Json} {claims : Claims}

/-- Of the claims the clock only touches the expiry. -/
theorem inOrder_iff_of_any_time (hnow : v.leeway ≤ now) : claims.InOrder v now ↔
    claims.InOrder v v.leeway ∧
      ∃ expires, claims.expires = some expires ∧ now ≤ expires + v.leeway := by
  simp only [← Validation.earliestEnd_le_iff hnow]
  constructor
  · intro h
    obtain ⟨expires, hexpires, -⟩ := h.expires
    have hfirst : v.earliestEnd v.leeway ≤ expires :=
      (Validation.earliestEnd_le_iff le_rfl).mpr (Nat.le_add_left v.leeway expires)
    exact ⟨⟨⟨expires, hexpires, hfirst⟩, h.issuer, h.audience⟩, h.expires⟩
  · rintro ⟨h, hexpires⟩
    exact ⟨hexpires, h.issuer, h.audience⟩

theorem verified_iff_of_any_time (hnow : v.leeway ≤ now) :
    Verified check v key now token parts payload claims ↔
      Verified check v key v.leeway token parts payload claims ∧
        ∃ expires, claims.expires = some expires ∧ now ≤ expires + v.leeway := by
  constructor
  · intro h
    obtain ⟨hinOrder, hexpires⟩ := (inOrder_iff_of_any_time hnow).mp h.inOrder
    exact ⟨⟨h.toSigned, h.read, hinOrder⟩, hexpires⟩
  · rintro ⟨h, hexpires⟩
    exact ⟨h.toSigned, h.read, (inOrder_iff_of_any_time hnow).mpr ⟨h.inOrder, hexpires⟩⟩

variable {name : String} {config : ProviderConfig} {p : Provider}

/-- A token is accepted until it has expired, from the first time on that the leeway can be taken
off. -/
theorem Provider.verifyWith_iff_of_any_time (made : Provider.ofConfig name config = .ok p)
    (hnow : 300 ≤ now) :
    p.verifyWith check now token = .ok payload ↔ p.verifyWith check 300 token = .ok payload ∧
      ∃ expires, (Claims.ofPayload payload).expires = some expires ∧ now ≤ expires + 300 := by
  rw [verifyWith_eq_ok, verifyWith_eq_ok]
  rw [← (configured_of_ofConfig made).2.leeway] at hnow ⊢
  constructor
  · rintro ⟨parts, claims, h⟩
    obtain rfl := claims_eq_ofPayload h.read
    obtain ⟨hfirst, hexpires⟩ := (verified_iff_of_any_time hnow).mp h
    exact ⟨⟨parts, _, hfirst⟩, hexpires⟩
  · rintro ⟨⟨parts, claims, h⟩, hexpires⟩
    obtain rfl := claims_eq_ofPayload h.read
    exact ⟨parts, _, (verified_iff_of_any_time hnow).mpr ⟨h, hexpires⟩⟩

/-- No token is accepted more than the leeway behind its end, whatever the clock reads. -/
theorem Provider.unexpired_of_verifyWith (made : Provider.ofConfig name config = .ok p)
    (h : p.verifyWith check now token = .ok payload) :
    ∃ expires, (Claims.ofPayload payload).expires = some expires ∧ now ≤ expires + 300 := by
  obtain ⟨parts, claims, hverified⟩ := verifyWith_eq_ok.mp h
  obtain rfl := claims_eq_ofPayload hverified.read
  obtain ⟨expires, hexpires, hend⟩ := hverified.inOrder.expires
  have hleeway := Validation.le_add_of_earliestEnd_le hend
  rw [(configured_of_ofConfig made).2.leeway] at hleeway
  exact ⟨expires, hexpires, hleeway⟩

end

/-! ## The window of a token -/

/-- The time lies between the two that claims give, in whole seconds, or outside of them by no more
than clocks may differ by. -/
structure InWindow (claims : Claims) (now : Nat) : Prop where
  begun : ∀ start, claims.notBefore = some start → start ≤ now + 300
  unexpired : ∃ expires, claims.expires = some expires ∧ now ≤ expires + 300

/-- A payload that is valid for less than a quarter of an hour, in 2099. -/
def earlyPayload : Json :=
  .obj [("exp", .int 4102444800), ("iss", .str "https://idp.example.org"),
    ("nbf", .int 4102444000), ("sub", .str "0001")]

def earlyClaims : Claims where
  expires := some 4102444800
  notBefore := some 4102444000
  subject := some "0001"
  issuers := some ["https://idp.example.org"]

def earlyToken : String := sign .hs256 (Text.Utf8.encode "secret") earlyPayload

def earlyParts : Parts := signedParts .hs256 (Text.Utf8.encode "secret") earlyPayload

theorem earlyParts_read : ∃ payload, earlyParts.claims = .ok (payload, earlyClaims) := by
  have hread : earlyParts.claims.toOption.map Prod.snd = some earlyClaims := by decide +kernel
  cases hclaims : earlyParts.claims with
  | error e =>
      rw [hclaims] at hread
      cases hread
  | ok read =>
      obtain ⟨payload, claims⟩ := read
      rw [hclaims] at hread
      obtain rfl : claims = earlyClaims := Option.some.inj hread
      exact ⟨payload, rfl⟩

/-- It is accepted long before that. -/
theorem earlyToken_accepted : ∃ payload, Claims.ofPayload payload = earlyClaims ∧
    (sharedProvider none).verify 300 earlyToken = .ok payload := by
  obtain ⟨payload, hread⟩ := earlyParts_read
  refine ⟨payload, (claims_eq_ofPayload hread).symm, Provider.verifyWith_eq_ok.mpr ?_⟩
  refine ⟨earlyParts, earlyClaims, signed_sign rfl _ _, hread, ?_⟩
  refine ⟨⟨_, rfl, Nat.zero_le _⟩, ?_, fun _ _ _ hnone => ?_⟩
  · rintro _ ⟨rfl⟩
    exact ⟨_, List.mem_singleton_self _, List.mem_cons_self⟩
  · cases hnone

/-! ## What is accepted -/

/-- A provider honours a token until five minutes after its end and asks for nothing else of the
clock, on which five minutes have passed since it was zero.  So it keeps to the window of a token
that it ever accepts exactly if the window is open as soon as it may look. -/
theorem tokens_are_honoured_until_they_expire {check : SignatureCheck} {token : String}
    {payload : Json} {name : String} {config : ProviderConfig} {p : Provider}
    (made : Provider.ofConfig name config = .ok p) :
    (∀ now, p.verifyWith check now token = .ok payload →
      ∃ expires, (Claims.ofPayload payload).expires = some expires ∧ now ≤ expires + 300) ∧
    (∀ now, 300 ≤ now → (p.verifyWith check now token = .ok payload ↔
      p.verifyWith check 300 token = .ok payload ∧
        ∃ expires, (Claims.ofPayload payload).expires = some expires ∧ now ≤ expires + 300)) ∧
    ((∀ now, 300 ≤ now → p.verifyWith check now token = .ok payload →
        InWindow (Claims.ofPayload payload) now) ↔
      (p.verifyWith check 300 token = .ok payload →
        ∀ start, (Claims.ofPayload payload).notBefore = some start → start ≤ 600)) := by
  refine ⟨fun now h => Provider.unexpired_of_verifyWith made h,
    fun now hnow => Provider.verifyWith_iff_of_any_time made hnow, ?_, ?_⟩
  · intro hwindow haccepted start hstart
    exact (hwindow 300 le_rfl haccepted).begun start hstart
  · intro hearly now hnow haccepted
    obtain ⟨hfirst, hexpires⟩ := (Provider.verifyWith_iff_of_any_time made hnow).mp haccepted
    refine ⟨fun start hstart => ?_, hexpires⟩
    calc start ≤ 600 := hearly hfirst start hstart
      _ ≤ now + 300 := Nat.add_le_add_right hnow 300

/-- A token is honoured until five minutes after its end. -/
theorem earlyToken_is_honoured_to_its_end : ∃ payload,
    Provider.ofConfig "P" (sharedSettings none) = .ok (sharedProvider none) ∧
      (sharedProvider none).verify 4102445100 earlyToken = .ok payload ∧
      (sharedProvider none).verify 4102445101 earlyToken ≠ .ok payload := by
  obtain ⟨payload, hclaims, hfirst⟩ := earlyToken_accepted
  obtain ⟨hunexpired, haccepted, -⟩ := @tokens_are_honoured_until_they_expire checkSignature
    earlyToken payload _ _ _ (sharedProvider_made none)
  refine ⟨payload, sharedProvider_made none, ?_, fun hlate => ?_⟩
  · exact (haccepted _ (by decide)).mpr ⟨hfirst, 4102444800, by rw [hclaims]; rfl, by decide⟩
  · obtain ⟨expires, hexpires, hlate⟩ := hunexpired _ hlate
    rw [hclaims] at hexpires
    obtain rfl := Option.some.inj hexpires
    exact absurd hlate (by decide)

/-- A token is honoured in 2027 that is valid from the end of 2099 on. -/
theorem earlyToken_is_honoured_before_its_time : ∃ p payload,
    Provider.ofConfig "P" (sharedSettings none) = .ok p ∧
      p.verify 1800000000 earlyToken = .ok payload ∧
      (Claims.ofPayload payload).notBefore = some 4102444000 ∧
      ¬ InWindow (Claims.ofPayload payload) 1800000000 := by
  obtain ⟨payload, hclaims, hfirst⟩ := earlyToken_accepted
  have hmade := sharedProvider_made none
  refine ⟨_, payload, hmade, ?_, by rw [hclaims]; rfl, fun hwindow => ?_⟩
  · exact (Provider.verifyWith_iff_of_any_time hmade (by decide)).mpr
      ⟨hfirst, 4102444800, by rw [hclaims]; rfl, by decide⟩
  · rw [hclaims] at hwindow
    exact absurd (hwindow.begun 4102444000 rfl) (by decide)

end Gatehouse.Identity

import Gatehouse.Proofs.Certificate.Subject

/-!
# Blocks in a text

The blocks of a chain return whatever stands around them, as long as no mark can begin there.  Of
any text at all the marks are met from left to right, and it is refused exactly if one that is met
begins no block.
-/

namespace Gatehouse.Certificate

open Text (FirstCut)

/-! ## Chains -/

/-- Blocks of some byte strings, one behind the other.  Between them, in front and behind there is
text in which no mark begins. -/
inductive IsChain : List (List UInt8) → List Char → Prop where
  | filler {text : List Char} (h : '-' ∉ text) : IsChain [] text
  | block {bytes : List UInt8} {block rest : List Char} {chain : List (List UInt8)}
      (hblock : IsBlock bytes block) (h : IsChain chain rest) :
      IsChain (bytes :: chain) (block ++ rest)

theorem IsChain.pemBlocks_eq {chain : List (List UInt8)} {text : List Char}
    (h : IsChain chain text) : pemBlocks text = .ok chain := by
  induction h with
  | filler h => exact pemBlocks_of_dash_not_mem h
  | block hblock _ ih =>
      rw [pemBlocks_append hblock, ih]
      rfl

section

variable {front : List Char}

theorem IsBlock.behind (hfront : '-' ∉ front) {bytes : List UInt8} {block : List Char}
    (h : IsBlock bytes block) : IsBlock bytes (front ++ block) := by
  cases h with
  | @mk filler body hfiller hbody =>
      have hfillers : '-' ∉ front ++ filler := by
        rw [List.mem_append, not_or]
        exact ⟨hfront, hfiller⟩
      simpa only [List.append_assoc] using IsBlock.mk hfillers hbody

/-- Text in which no mark begins may stand in front of a chain. -/
theorem IsChain.behind (hfront : '-' ∉ front) {chain : List (List UInt8)} {text : List Char}
    (h : IsChain chain text) : IsChain chain (front ++ text) := by
  cases h with
  | filler h =>
      apply IsChain.filler
      rw [List.mem_append, not_or]
      exact ⟨hfront, h⟩
  | block hblock h =>
      rw [← List.append_assoc]
      exact .block (hblock.behind hfront) h

end

theorem isChain_join_armour (chain : List (List UInt8)) :
    IsChain chain (String.join (chain.map armour)).toList := by
  induction chain with
  | nil => exact .filler List.not_mem_nil
  | cons bytes chain ih =>
      obtain ⟨block, hblock, htext⟩ := isBlock_armour bytes
      rw [List.map_cons, String.join_cons, String.toList_append, htext, List.append_assoc]
      exact .block hblock (ih.behind (by decide))

/-! ## Marks -/

/-- A begin mark is met in a text, with `behind` behind it: the first one there is, or one that is
met behind the first end mark after it. -/
inductive Meets : List Char → List Char → Prop where
  | first {text front behind : List Char} (h : FirstCut beginMark text front behind) :
      Meets text behind
  | later {text front inside body rest behind : List Char}
      (hbegin : FirstCut beginMark text front inside) (hend : FirstCut endMark inside body rest)
      (h : Meets rest behind) : Meets text behind

/-- What stands behind a begin mark is no block: it has no end, or no byte string has the body. -/
inductive Broken (behind : List Char) : Prop where
  | unterminated (h : ¬ endMark <:+: behind)
  | garbled {body rest : List Char} (h : FirstCut endMark behind body rest)
      (hbody : ∀ bytes, ¬ IsBody bytes body)

theorem not_meets {text : List Char} (h : ¬ beginMark <:+: text) (behind : List Char) :
    ¬ Meets text behind := by
  intro hmeets
  cases hmeets with
  | first hcut => exact h ⟨_, _, hcut.whole.symm⟩
  | later hbegin _ _ => exact h ⟨_, _, hbegin.whole.symm⟩

section

variable {text front inside body rest : List Char}

/-- The marks that are met are the first one and those that are met behind its block. -/
theorem meets_iff_of_terminated (hbegin : FirstCut beginMark text front inside)
    (hend : FirstCut endMark inside body rest) {behind : List Char} :
    Meets text behind ↔ behind = inside ∨ Meets rest behind := by
  constructor
  · intro h
    cases h with
    | first hcut => exact .inl (hcut.unique hbegin).2
    | later hcut hend' hrest =>
        obtain ⟨-, rfl⟩ := hcut.unique hbegin
        obtain ⟨-, rfl⟩ := hend'.unique hend
        exact .inr hrest
  · rintro (rfl | hrest)
    · exact .first hbegin
    · exact .later hbegin hend hrest

theorem broken_iff_of_terminated (hend : FirstCut endMark inside body rest) :
    Broken inside ↔ ∀ bytes, ¬ IsBody bytes body := by
  constructor
  · intro h
    cases h with
    | unterminated h => exact absurd ⟨_, _, hend.whole.symm⟩ h
    | garbled hcut hbody =>
        obtain ⟨rfl, -⟩ := hcut.unique hend
        exact hbody
  · exact .garbled hend

end

/-! ## Refused texts -/

theorem decodeBody_fails_iff {body : List Char} :
    (∃ error, decodeBody body = .error error) ↔ ∀ bytes, ¬ IsBody bytes body := by
  simp only [← decodeBody_eq_ok]
  cases decodeBody body <;> simp

/-- A text whose first block is terminated fails with its body or with what stands behind it. -/
theorem pemBlocks_fails_iff_of_cuts {text front inside body rest : List Char}
    (hbegin : Text.cutAt? beginMark text = some (front, inside))
    (hend : Text.cutAt? endMark inside = some (body, rest)) :
    (∃ error, pemBlocks text = .error error) ↔
      (∃ error, decodeBody body = .error error) ∨ ∃ error, pemBlocks rest = .error error := by
  rw [pemBlocks_of_cuts hbegin hend]
  cases decodeBody body with
  | error error => exact iff_of_true ⟨error, rfl⟩ (.inl ⟨error, rfl⟩)
  | ok block =>
      cases pemBlocks rest with
      | error error => exact iff_of_true ⟨error, rfl⟩ (.inr ⟨error, rfl⟩)
      | ok blocks =>
          refine iff_of_false ?_ ?_
          · rintro ⟨_, ⟨⟩⟩
          · rintro (⟨_, ⟨⟩⟩ | ⟨_, ⟨⟩⟩)

/-- A text fails exactly if a mark that is met in it begins no block. -/
theorem pemBlocks_fails_iff (text : List Char) :
    (∃ error, pemBlocks text = .error error) ↔ ∃ behind, Meets text behind ∧ Broken behind := by
  fun_induction pemBlocks text with
  | case1 text hbegin =>
      have hnone := not_meets (Text.cutAt?_eq_none_iff.mp hbegin)
      refine iff_of_false ?_ ?_
      · rintro ⟨_, ⟨⟩⟩
      · rintro ⟨behind, hmeets, -⟩
        exact hnone behind hmeets
  | case2 text front inside hbegin hend =>
      have hopen := Text.cutAt?_eq_none_iff.mp hend
      exact iff_of_true ⟨_, rfl⟩
        ⟨inside, .first (Text.cutAt?_eq_some_iff.mp hbegin), .unterminated hopen⟩
  | case3 text front inside hbegin body rest hend ih =>
      have hbeginCut := Text.cutAt?_eq_some_iff.mp hbegin
      have hendCut := Text.cutAt?_eq_some_iff.mp hend
      rw [← pemBlocks_of_cuts hbegin hend, pemBlocks_fails_iff_of_cuts hbegin hend,
        decodeBody_fails_iff, ← broken_iff_of_terminated hendCut, ih]
      simp only [meets_iff_of_terminated hbeginCut hendCut, or_and_right, exists_or,
        exists_eq_left]

/-- A chain that cannot be taken apart is no valid certificate. -/
theorem certificate_refuses_of_pemBlocks {pem : String} {error : PemError}
    (h : pemBlocks pem.toList = .error error) {c : GrantContext}
    (htext : Grant.chainText c = .ok pem) :
    (Grant.certificate readChain).authenticate c =
      .error (.certificateInvalid error.message) := by
  have hread : readChain pem = .error (.pem error) := by
    rw [readChain, h]
    rfl
  exact certificate_refuses hread htext

/-- Byte strings in armour return in their order, whatever stands around the blocks as long as no
mark can begin in it, and wherever their bodies hold blanks; in particular where the blocks of a
chain stand one behind the other.  Any text fails exactly if a begin mark that is met in it, from
left to right, has no end mark behind it or a body that no byte string has, and the grant then
answers that the certificate is invalid. -/
theorem armoured_chains_are_split :
    (∀ {chain : List (List UInt8)} {text : List Char}, IsChain chain text →
      pemBlocks text = .ok chain) ∧
    (∀ chain : List (List UInt8),
      pemBlocks (String.join (chain.map armour)).toList = .ok chain) ∧
    ∀ pem : String,
      ((∃ error, pemBlocks pem.toList = .error error) ↔
        ∃ behind, Meets pem.toList behind ∧ Broken behind) ∧
      ∀ error, pemBlocks pem.toList = .error error → ∀ c, Grant.chainText c = .ok pem →
        (Grant.certificate readChain).authenticate c =
          .error (.certificateInvalid error.message) := by
  refine ⟨IsChain.pemBlocks_eq, fun chain => (isChain_join_armour chain).pemBlocks_eq, ?_⟩
  intro pem
  exact ⟨pemBlocks_fails_iff _, fun error h c htext => certificate_refuses_of_pemBlocks h htext⟩

/-- Two blocks without anything between them; in the body of the first there are blanks. -/
def blockPair : List Char :=
  "Jané\n".toList ++ beginMark ++ (" AQ\tID\n".toList ++ endMark) ++
    ([] ++ beginMark ++ ("/w==".toList ++ endMark) ++ ['\n'])

def openBlock : String := "-----BEGIN CERTIFICATE-----\nAQID"

def openContext : GrantContext where
  headers := ⟨[]⟩
  peerCertificates := some [openBlock]
  arguments := []
  issuers := []
  now := 0

theorem blockPair_is_split :
    IsChain [[1, 2, 3], [255]] blockPair ∧ pemBlocks blockPair = .ok [[1, 2, 3], [255]] ∧
      ∃ error, pemBlocks openBlock.toList = .error error ∧
        Grant.chainText openContext = .ok openBlock ∧
        (Grant.certificate readChain).authenticate openContext =
          .error (.certificateInvalid error.message) := by
  have hfirst : IsBody [1, 2, 3] " AQ\tID\n".toList := by
    rw [IsBody]
    decide
  have hsecond : IsBody [255] "/w==".toList := by
    rw [IsBody]
    decide
  have hchain : IsChain [[1, 2, 3], [255]] blockPair :=
    .block (.mk (by decide) hfirst) (.block (.mk List.not_mem_nil hsecond) (.filler (by decide)))
  obtain ⟨hsplit, -, hrefused⟩ := armoured_chains_are_split
  obtain ⟨hfails, hinvalid⟩ := hrefused openBlock
  have hbegin : FirstCut beginMark openBlock.toList [] "\nAQID".toList :=
    Text.firstCut_of_cutAt? (Text.cutAt?_append List.not_mem_nil _)
  obtain ⟨error, herror⟩ := hfails.mpr ⟨_, .first hbegin, .unterminated (by decide)⟩
  have htext : Grant.chainText openContext = .ok openBlock := by decide
  exact ⟨hchain, hsplit hchain, error, herror, htext, hinvalid error herror _ htext⟩

end Gatehouse.Certificate

import Gatehouse.Json.Read
import Gatehouse.Json.Skip
import Gatehouse.Proofs.Json.Reading

/-!
# Passing over values without parts

A number, a string or a word that can be read is passed over as far as it is read.  The converse
fails, since passing is laxer; so what is passed over is compared with what a reading of the same
bytes has found there.
-/

namespace Gatehouse.Json.Reader

variable {α β γ δ : Type}

/-- Wherever the first reader succeeds, the second goes as far. -/
def PassesLike (r : Reader α) (r' : Reader β) : Prop :=
  ∀ c a c', r c = .ok a c' → ∃ n b, c' = c.advanceBy n ∧ Spans r' c.rest n b

namespace PassesLike

theorem of_looksAtBytes {r : Reader α} (h : LooksAtBytes r) : PassesLike r r := by
  intro c a c' hrun
  obtain ⟨n, hc, hspans⟩ := h c a c' hrun
  exact ⟨n, a, hc, hspans⟩

theorem of_never {r : Reader α} {r' : Reader β} (h : ∀ c a c', r c ≠ .ok a c') :
    PassesLike r r' :=
  fun c a c' hrun => absurd hrun (h c a c')

theorem fail (cause : Cause) (r' : Reader β) : PassesLike (fail cause : Reader α) r' :=
  of_never fun _ _ _ h => nomatch h

theorem bind {r : Reader α} {r' : Reader β} {f : α → Reader γ} {g : β → Reader δ}
    (hr : PassesLike r r') (hf : ∀ a b, PassesLike (f a) (g b)) :
    PassesLike (r >>= f) (r' >>= g) := by
  intro c a c' h
  obtain ⟨value, between, hfirst, hnext⟩ := bind_eq_ok.mp h
  obtain ⟨n, b, rfl, hspans⟩ := hr c value between hfirst
  obtain ⟨m, d, rfl, hspans'⟩ := hf value b _ a c' hnext
  rw [Cursor.rest_advanceBy] at hspans'
  exact ⟨n + m, d, (Cursor.advanceBy_add n m c).symm, hspans.bind hspans'⟩

/-- Two readers that begin alike go on with what they have found. -/
theorem after {r : Reader α} {f : α → Reader γ} {g : α → Reader δ} (hr : LooksAtBytes r)
    (hf : ∀ a, PassesLike (f a) (g a)) : PassesLike (r >>= f) (r >>= g) := by
  intro c a c' h
  obtain ⟨value, between, hfirst, hnext⟩ := bind_eq_ok.mp h
  obtain ⟨n, rfl, hspans⟩ := hr c value between hfirst
  obtain ⟨m, d, rfl, hspans'⟩ := hf value _ a c' hnext
  rw [Cursor.rest_advanceBy] at hspans'
  exact ⟨n + m, d, (Cursor.advanceBy_add n m c).symm, hspans.bind hspans'⟩

/-- What is done behind a value and takes no bytes makes no difference. -/
theorem before {r : Reader α} {r' : Reader β} (hr : PassesLike r r') {f : α → Reader γ}
    (hf : ∀ a c b c', f a c = .ok b c' → c' = c) : PassesLike (r >>= f) r' := by
  intro c b c' h
  obtain ⟨value, between, hfirst, hnext⟩ := bind_eq_ok.mp h
  obtain rfl := hf value between b c' hnext
  exact hr c value c' hfirst

end PassesLike

/-- Wherever the first reader succeeds, the second goes as far, and both take at least a byte. -/
def TakesLike (r : Reader α) (r' : Reader β) : Prop :=
  ∀ c a c', r c = .ok a c' → ∃ n b, c' = c.advanceBy (1 + n) ∧ Spans r' c.rest (1 + n) b

namespace TakesLike

theorem of_never {r : Reader α} {r' : Reader β} (h : ∀ c a c', r c ≠ .ok a c') : TakesLike r r' :=
  fun c a c' hrun => absurd hrun (h c a c')

theorem fail (cause : Cause) (r' : Reader β) : TakesLike (fail cause : Reader α) r' :=
  of_never fun _ _ _ h => nomatch h

theorem skip {f : Unit → Reader γ} {g : Unit → Reader δ} (hf : PassesLike (f ()) (g ())) :
    TakesLike (skip >>= f) (skip >>= g) := by
  intro c a c' h
  obtain ⟨_, _, ⟨rfl, rfl⟩, h⟩ := bind_eq_ok.mp h
  obtain ⟨n, d, rfl, hspans⟩ := hf _ a c' h
  rw [Cursor.rest_advance, ← List.drop_one] at hspans
  exact ⟨n, d, (Cursor.advanceBy_add 1 n c).symm, (Spans.skip c.rest).bind hspans⟩

theorem peek {f : Option UInt8 → Reader γ} {g : Option UInt8 → Reader δ}
    (hf : ∀ head, TakesLike (f head) (g head)) : TakesLike (peek >>= f) (peek >>= g) := by
  intro c a c' h
  obtain ⟨_, _, ⟨rfl, rfl⟩, h⟩ := bind_eq_ok.mp h
  obtain ⟨n, d, hc, hspans⟩ := hf _ c a c' h
  exact ⟨n, d, hc, .ahead rfl hspans⟩

theorem before {r : Reader α} {r' : Reader β} (hr : TakesLike r r') {f : α → Reader γ}
    (hf : ∀ a c b c', f a c = .ok b c' → c' = c) : TakesLike (r >>= f) r' := by
  intro c b c' h
  obtain ⟨value, between, hfirst, hnext⟩ := bind_eq_ok.mp h
  obtain rfl := hf value between b c' hnext
  exact hr c value c' hfirst

theorem passesLike {r : Reader α} {r' : Reader β} (h : TakesLike r r') : PassesLike r r' := by
  intro c a c' hrun
  obtain ⟨n, b, hc, hspans⟩ := h c a c' hrun
  exact ⟨1 + n, b, hc, hspans⟩

end TakesLike

/-! ## Numbers -/

theorem finishDouble_stays {positive : Bool} {significand : Nat} {scale : Int} {c c' : Cursor}
    {d : Document} (h : finishDouble positive significand scale c = .ok d c') : c' = c := by
  rw [finishDouble] at h
  generalize applyPower _ scale = answer at h
  cases answer with
  | none => cases h
  | some x =>
      cases h
      rfl

theorem spans_passOne {b : UInt8} (h : isDigit b = true) (rest : List UInt8) :
    Spans (passOne isDigit) (b :: rest) 1 b := by
  refine .ahead List.head?_cons (Spans.bind (n := 1) (m := 0) (.skip _) ?_)
  rw [if_pos h]
  exact .pure b _

theorem length_takeWhile_digits {b : UInt8} (h : isDigit b = true) (rest : List UInt8) :
    ((b :: rest).takeWhile isDigit).length = 1 + (rest.takeWhile isDigit).length := by
  rw [List.takeWhile_cons_of_pos h, List.length_cons, Nat.add_comm]

/-- Digits, of which there has to be one, are taken as they are passed. -/
theorem exponent_passes (positive : Bool) (significand : Nat) (scale : Int) :
    PassesLike (exponent positive significand scale) passExponent := by
  refine .after .skip fun _ => ?_
  refine .after .exponentSign fun grows => ?_
  intro c d c' h
  obtain ⟨head, _, ⟨rfl, rfl⟩, h⟩ := bind_eq_ok.mp h
  cases hrest : c.rest with
  | nil =>
      rw [hrest] at h
      cases h
  | cons b rest =>
      rw [hrest] at h
      by_cases hdigit : isDigit b = true
      · simp only [List.head?_cons, hdigit, Bool.not_true, Bool.false_eq_true, if_false] at h
        obtain ⟨_, _, ⟨rfl, rfl⟩, h⟩ := bind_eq_ok.mp h
        obtain ⟨ds, between, ⟨rfl, rfl⟩, h⟩ := bind_eq_ok.mp h
        have hstay : c' = c.advanceWhile isDigit := by
          generalize takeExponent 0 0 _ = taken at h
          cases taken with
          | inl e => exact finishDouble_stays h
          | inr n =>
              dsimp only at h
              split at h
              · cases h
              · cases h
                rfl
        refine ⟨((b :: rest).takeWhile isDigit).length, (), ?_, ?_⟩
        · rw [hstay, Cursor.advanceWhile, hrest]
        · rw [length_takeWhile_digits hdigit]
          exact (spans_passOne hdigit rest).bind (.skipWhile isDigit rest)
      · simp only [List.head?_cons, hdigit, Bool.not_false, if_true] at h
        cases h

def isExponentLetter (head : Option UInt8) : Prop := head = some 101 ∨ head = some 69

theorem spans_passPower {bytes : List UInt8} {n : Nat} (h : isExponentLetter bytes.head?)
    (hspans : Spans passExponent bytes n ()) : Spans passPower bytes n () := by
  rcases h with h | h
  · exact .ahead h hspans
  · exact .ahead h hspans

theorem spans_passPower_nothing {bytes : List UInt8} (h : ¬ isExponentLetter bytes.head?) :
    Spans passPower bytes 0 () := by
  rw [isExponentLetter, not_or] at h
  refine .ahead rfl ?_
  split
  · next hhead => exact absurd hhead h.1
  · next hhead => exact absurd hhead h.2
  · exact .pure () _

theorem power_passes (positive : Bool) (significand : Nat) (scale : Int) :
    PassesLike (power positive significand scale) passPower := by
  intro c d c' h
  obtain ⟨head, _, ⟨rfl, rfl⟩, h⟩ := bind_eq_ok.mp h
  generalize hhead : c.rest.head? = head at h
  split at h
  · obtain ⟨n, ⟨⟩, hc, hspans⟩ := exponent_passes positive significand scale c d c' h
    exact ⟨n, (), hc, spans_passPower (.inl hhead) hspans⟩
  · obtain ⟨n, ⟨⟩, hc, hspans⟩ := exponent_passes positive significand scale c d c' h
    exact ⟨n, (), hc, spans_passPower (.inr hhead) hspans⟩
  · next he hE =>
      have hletter : ¬ isExponentLetter c.rest.head? := by
        rw [hhead]
        exact fun hor => hor.elim he hE
      exact ⟨0, (), finishDouble_stays h, spans_passPower_nothing hletter⟩

def passFraction : Reader Unit := do
  match ← peek with
  | some 46 =>
    skip
    if (← takeWhile isDigit).isEmpty then failAfter .invalidNumber
    passPower
  | _ => passPower

theorem fraction_passes (positive : Bool) (significand dropped : Nat) :
    PassesLike (fraction positive significand dropped) (do
      skip
      if (← takeWhile isDigit).isEmpty then failAfter .invalidNumber
      passPower) := by
  refine .after .skip fun _ => ?_
  intro c d c' h
  obtain ⟨ds, _, ⟨rfl, rfl⟩, h⟩ := bind_eq_ok.mp h
  cases hdigits : c.rest.takeWhile isDigit with
  | nil =>
      rw [hdigits] at h
      obtain ⟨head, _, ⟨rfl, rfl⟩, h⟩ := bind_eq_ok.mp h
      generalize List.head? _ = head at h
      cases head <;> cases h
  | cons b rest =>
      rw [hdigits] at h
      have hpower : ∃ s scale, power positive s scale (c.advanceWhile isDigit) = .ok d c' := by
        simp only [List.map_cons] at h
        split at h
        · exact ⟨_, _, h⟩
        · exact ⟨_, _, h⟩
      obtain ⟨s, scale, hpower⟩ := hpower
      obtain ⟨n, u, rfl, hspans⟩ := power_passes positive s scale _ _ _ hpower
      refine ⟨(c.rest.takeWhile isDigit).length + n, u, ?_, ?_⟩
      · rw [Cursor.advanceWhile, Cursor.advanceBy_add]
      · refine (Spans.takeWhile isDigit c.rest).bind ?_
        rw [hdigits]
        rw [Cursor.advanceWhile, Cursor.rest_advanceBy, hdigits] at hspans
        exact hspans

theorem spans_passFraction {bytes : List UInt8} {n : Nat} (h : bytes.head? ≠ some 46)
    (hspans : Spans passPower bytes n ()) : Spans passFraction bytes n () := by
  refine .ahead rfl ?_
  split
  · next hhead => exact absurd hhead h
  · exact hspans

theorem afterInteger_passes (positive : Bool) (significand dropped : Nat) :
    PassesLike (afterInteger positive significand dropped) passFraction := by
  intro c d c' h
  obtain ⟨head, _, ⟨rfl, rfl⟩, h⟩ := bind_eq_ok.mp h
  generalize hhead : c.rest.head? = head at h
  split at h
  · obtain ⟨n, ⟨⟩, hc, hspans⟩ := fraction_passes positive significand dropped c d c' h
    exact ⟨n, (), hc, .ahead hhead hspans⟩
  · obtain ⟨n, ⟨⟩, hc, hspans⟩ := exponent_passes positive significand dropped c d c' h
    exact ⟨n, (), hc, spans_passFraction (by simp [hhead]) (spans_passPower (.inl hhead) hspans)⟩
  · obtain ⟨n, ⟨⟩, hc, hspans⟩ := exponent_passes positive significand dropped c d c' h
    exact ⟨n, (), hc, spans_passFraction (by simp [hhead]) (spans_passPower (.inr hhead) hspans)⟩
  · next hpoint he hE =>
      have hstay : c' = c := by
        split at h
        · exact finishDouble_stays h
        · split at h
          · cases h
            rfl
          · split at h
            · cases h
              rfl
            · cases h
              rfl
      have hletter : ¬ isExponentLetter c.rest.head? := by
        rw [hhead]
        exact fun hor => hor.elim he hE
      refine ⟨0, (), hstay, spans_passFraction ?_ (spans_passPower_nothing hletter)⟩
      rw [hhead]
      exact hpoint

/-- A number is passed as far as it is read. -/
theorem number_passes (positive : Bool) : TakesLike (number positive) passNumber := by
  intro c d c' h
  obtain ⟨head, _, ⟨rfl, rfl⟩, h⟩ := bind_eq_ok.mp h
  cases hrest : c.rest with
  | nil =>
      rw [hrest] at h
      cases h
  | cons b rest =>
      rw [hrest, List.head?_cons] at h
      by_cases hzero : b = 48
      · subst hzero
        obtain ⟨_, _, ⟨rfl, rfl⟩, h⟩ := bind_eq_ok.mp h
        obtain ⟨head, _, ⟨rfl, rfl⟩, h⟩ := bind_eq_ok.mp h
        have hnext : (rest.head?).any isDigit = false ∧
            afterInteger positive 0 0 c.advance = .ok d c' := by
          rw [Cursor.rest_advance, hrest, List.tail_cons] at h
          generalize rest.head? = next at h
          cases next with
          | none => exact ⟨rfl, h⟩
          | some b =>
              dsimp only at h
              split at h
              · cases h
              · next hdigit => exact ⟨by simpa using hdigit, h⟩
        obtain ⟨hnext, h⟩ := hnext
        obtain ⟨n, ⟨⟩, rfl, hspans⟩ := afterInteger_passes positive 0 0 _ _ _ h
        rw [Cursor.rest_advance, hrest, List.tail_cons] at hspans
        refine ⟨n, (), ?_, ?_⟩
        · rw [Cursor.advanceBy_add]
          rfl
        · refine (spans_passOne (by decide) rest).bind ?_
          rw [if_pos rfl]
          refine .ahead rfl ?_
          rw [List.drop_succ_cons, List.drop_zero, hnext]
          exact hspans
      · have hinteger : isDigit b = true ∧ ∃ significand dropped,
            afterInteger positive significand dropped (c.advanceWhile isDigit) = .ok d c' := by
          generalize hhead : some b = head at h
          split at h
          · cases hhead
          · exact absurd (Option.some.inj hhead) hzero
          · obtain rfl := Option.some.inj hhead
            split at h
            · cases h
            · next hdigit =>
                obtain ⟨ds, _, ⟨rfl, rfl⟩, h⟩ := bind_eq_ok.mp h
                exact ⟨by simpa using hdigit, _, _, h⟩
        obtain ⟨hdigit, significand, dropped, h⟩ := hinteger
        obtain ⟨n, ⟨⟩, rfl, hspans⟩ := afterInteger_passes positive significand dropped _ _ _ h
        rw [Cursor.advanceWhile, hrest] at hspans ⊢
        rw [Cursor.rest_advanceBy, hrest, length_takeWhile_digits hdigit] at hspans
        rw [length_takeWhile_digits hdigit]
        refine ⟨(rest.takeWhile isDigit).length + n, (), ?_, ?_⟩
        · rw [← Nat.add_assoc]
          exact (Cursor.advanceBy_add _ n c).symm
        · refine (spans_passOne hdigit rest).bind ?_
          rw [if_neg hzero]
          refine (Spans.skipWhile isDigit rest).bind ?_
          rwa [← List.drop_drop] at hspans

/-! ## Quoted strings -/

/-- Bytes that belong to an escape already taken are passed unseen. -/
theorem quotedLength_skip {skip : Nat} {bytes : List UInt8} (h : skip ≤ bytes.length)
    (position : Nat) :
    quotedLength skip position bytes = quotedLength 0 (position + skip) (bytes.drop skip) := by
  induction skip generalizing position bytes with
  | zero => rfl
  | succ skip ih =>
      cases bytes with
      | nil => simp at h
      | cons b rest =>
          rw [quotedLength, ih (by simpa using h), List.drop_succ_cons, Nat.add_right_comm,
            Nat.add_assoc]

theorem hexEscape_length {bytes : List UInt8} {code : Nat} (h : hexEscape bytes = .ok code) :
    4 ≤ bytes.length := by
  unfold hexEscape at h
  split at h
  · simp
  · cases h

/-- Behind a backslash and the letter `u` four digits are passed. -/
theorem quotedLength_code {digits : List UInt8} {code : Nat} (h : hexEscape digits = .ok code)
    (position : Nat) :
    quotedLength 0 position (92 :: 117 :: digits) =
      quotedLength 5 (position + 1) (117 :: digits) := by
  simp [quotedLength, h]

/-- A pair of codes is passed as two. -/
theorem quotedLength_pair {digits second : List UInt8} {high low : Nat}
    (hhigh : hexEscape digits = .ok high) (hsecond : digits.drop 4 = 92 :: 117 :: second)
    (hlow : hexEscape second = .ok low) (position : Nat) :
    11 ≤ (117 :: digits).length ∧ quotedLength 0 position (92 :: 117 :: digits) =
      quotedLength 11 (position + 1) (117 :: digits) := by
  have hrest : (117 :: digits).drop 5 = 92 :: 117 :: second := hsecond
  have hlength : 4 ≤ second.length := hexEscape_length hlow
  have hlong : 11 ≤ (117 :: digits).length := by
    have hdrop := congrArg List.length hrest
    simp only [List.length_drop, List.length_cons] at hdrop ⊢
    omega
  refine ⟨hlong, ?_⟩
  have hfirst : 5 ≤ (117 :: digits).length := by omega
  have hnext : 5 ≤ (117 :: second).length := by simpa using hlength
  have hdrop : (117 :: second).drop 5 = (117 :: digits).drop 11 := by
    rw [← List.drop_drop (i := 6) (j := 5), hrest]
    rfl
  calc quotedLength 0 position (92 :: 117 :: digits)
      = quotedLength 5 (position + 1) (117 :: digits) := quotedLength_code hhigh position
    _ = quotedLength 0 (position + 1 + 5) (92 :: 117 :: second) := by
        rw [quotedLength_skip hfirst, hrest]
    _ = quotedLength 5 (position + 1 + 5 + 1) (117 :: second) := quotedLength_code hlow _
    _ = quotedLength 0 (position + 1 + 5 + 1 + 5) ((117 :: digits).drop 11) := by
        rw [quotedLength_skip hnext, hdrop]
    _ = quotedLength 11 (position + 1) (117 :: digits) := by rw [quotedLength_skip hlong]

/-- An escape is passed as far as it is read, also if it is a pair and is passed as two. -/
theorem quotedLength_escape {rest : List UInt8} {scalar n : Nat} (h : escape rest = .ok (scalar, n))
    (position : Nat) :
    n ≤ rest.length ∧
      quotedLength 0 position (92 :: rest) = quotedLength n (position + 1) rest := by
  by_cases hcode : ∃ digits, rest = 117 :: digits
  · obtain ⟨digits, rfl⟩ := hcode
    simp only [escape] at h
    cases hhigh : hexEscape digits with
    | error e =>
        rw [hhigh] at h
        cases h
    | ok high =>
        simp only [hhigh] at h
        have hlength := hexEscape_length hhigh
        split at h
        · cases h
        · split at h
          · cases h
            exact ⟨by simp; omega, quotedLength_code hhigh position⟩
          · split at h
            · cases h
            · cases h
            · next second hsecond =>
                cases hlow : hexEscape second with
                | error e =>
                    rw [hlow] at h
                    cases h
                | ok low =>
                    simp only [hlow] at h
                    split at h
                    · cases h
                    · cases h
                      exact quotedLength_pair hhigh hsecond hlow position
            · cases h
            · cases h
  · obtain ⟨b, tail, rfl, hn⟩ : ∃ b tail, rest = b :: tail ∧ n = 1 := by
      unfold escape at h
      split at h
      case h_10 => exact absurd ⟨_, rfl⟩ hcode
      all_goals
        cases h
        try exact ⟨_, _, rfl, rfl⟩
    refine ⟨by simp [hn], ?_⟩
    have hb : b ≠ 117 := by
      rintro rfl
      exact hcode ⟨tail, rfl⟩
    simp [quotedLength, hb, h]

/-- A string is passed as far as it is read. -/
theorem quotedLength_of_quotedBytes {skip position stop : Nat} {bytes text : List UInt8}
    (h : quotedBytes skip position bytes = .ok (text, stop)) :
    quotedLength skip position bytes = .ok stop := by
  induction bytes generalizing skip position text with
  | nil => cases h
  | cons b rest ih =>
      cases skip with
      | succ skip =>
          rw [quotedBytes] at h
          rw [quotedLength, ih h]
      | zero =>
          by_cases hquote : b = 34
          · subst hquote
            cases h
            rfl
          by_cases hescape : b = 92
          · subst hescape
            simp only [quotedBytes, hquote, if_false, if_true] at h
            cases hcode : escape rest with
            | error e =>
                rw [hcode] at h
                cases h
            | ok code =>
                obtain ⟨scalar, n⟩ := code
                simp only [hcode] at h
                cases hrest : quotedBytes n (position + 1) rest with
                | error e =>
                    rw [hrest] at h
                    cases h
                | ok found =>
                    rw [hrest] at h
                    cases h
                    rw [(quotedLength_escape hcode position).2]
                    exact ih hrest
          by_cases hcontrol : b < 32
          · simp only [quotedBytes, hquote, hescape, hcontrol, if_false, if_true] at h
            cases h
          · simp only [quotedBytes, hquote, hescape, hcontrol, if_false] at h
            simp only [quotedLength, hquote, hescape, hcontrol, if_false]
            cases hrest : quotedBytes 0 (position + 1) rest with
            | error e =>
                rw [hrest] at h
                cases h
            | ok found =>
                rw [hrest] at h
                cases h
                exact ih hrest

theorem quoted_passes : PassesLike quoted passQuoted := by
  intro c s c' h
  rw [quoted] at h
  cases hbytes : quotedBytes 0 0 c.rest with
  | error e =>
      rw [hbytes] at h
      cases h
  | ok found =>
      obtain ⟨bytes, n⟩ := found
      simp only [hbytes] at h
      cases htext : Text.Utf8.decode bytes with
      | error bad =>
          rw [htext] at h
          cases h
      | ok text =>
          rw [htext] at h
          cases h
          refine ⟨n, (), rfl, fun other hother => ?_⟩
          rw [passQuoted, hother, quotedLength_of_quotedBytes hbytes]

/-! ## Values without parts -/

theorem word_passes (byte : UInt8) (w : List UInt8) (d : Document) :
    TakesLike (do word (byte :: w); return d) (word (byte :: w)) := by
  refine .before ?_ ?_
  · refine .peek fun head => ?_
    cases head with
    | none => exact .fail _ _
    | some b =>
        apply TakesLike.skip
        by_cases h : b = byte
        · rw [if_pos h]
          exact .of_looksAtBytes (.word w)
        · rw [if_neg h]
          exact .fail _ _
  · rintro _ _ _ _ ⟨rfl, rfl⟩
    rfl

theorem spans_passScalar_digit {bytes : List UInt8} {n : Nat} {b : UInt8}
    (hhead : bytes.head? = some b) (hdigit : isDigit b = true)
    (hspans : Spans passNumber bytes n ()) : Spans passScalar bytes n () := by
  have hne : ∀ c : UInt8, isDigit c = false → b ≠ c := by
    rintro c hc rfl
    simp [hc] at hdigit
  refine .ahead hhead ?_
  split
  · next heq => exact absurd (Option.some.inj heq) (hne 110 (by decide))
  · next heq => exact absurd (Option.some.inj heq) (hne 116 (by decide))
  · next heq => exact absurd (Option.some.inj heq) (hne 102 (by decide))
  · next heq => exact absurd (Option.some.inj heq) (hne 45 (by decide))
  · next heq => exact absurd (Option.some.inj heq) (hne 34 (by decide))
  · next heq =>
      obtain rfl := Option.some.inj heq
      rwa [if_pos hdigit]
  · next heq => cases heq

/-- A value without parts is passed as far as it is read. -/
theorem scalar_passes : TakesLike scalar passScalar := by
  intro c d c' h
  obtain ⟨head, _, ⟨rfl, rfl⟩, h⟩ := bind_eq_ok.mp h
  generalize hhead : c.rest.head? = head at h
  split at h
  · obtain ⟨n, ⟨⟩, hc, hspans⟩ := word_passes _ _ _ c d c' h
    exact ⟨n, (), hc, .ahead hhead hspans⟩
  · obtain ⟨n, ⟨⟩, hc, hspans⟩ := word_passes _ _ _ c d c' h
    exact ⟨n, (), hc, .ahead hhead hspans⟩
  · obtain ⟨n, ⟨⟩, hc, hspans⟩ := word_passes _ _ _ c d c' h
    exact ⟨n, (), hc, .ahead hhead hspans⟩
  · have hnumber : TakesLike (do skip; number false) (do skip; passNumber) :=
      .skip (number_passes false).passesLike
    obtain ⟨n, ⟨⟩, hc, hspans⟩ := hnumber c d c' h
    exact ⟨n, (), hc, .ahead hhead hspans⟩
  · have hquoted : TakesLike (do skip; return Document.text (← quoted)) (do skip; passQuoted) := by
      refine .skip (quoted_passes.before ?_)
      rintro _ _ _ _ ⟨rfl, rfl⟩
      rfl
    obtain ⟨n, ⟨⟩, hc, hspans⟩ := hquoted c d c' h
    exact ⟨n, (), hc, .ahead hhead hspans⟩
  · split at h
    · next hdigit =>
        obtain ⟨n, ⟨⟩, hc, hspans⟩ := number_passes true c d c' h
        exact ⟨n, (), hc, spans_passScalar_digit hhead hdigit hspans⟩
    · cases h
  · cases h

end Gatehouse.Json.Reader

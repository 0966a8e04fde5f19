import Gatehouse.Proofs.Effect
import Gatehouse.Text.Utf8
import Mathlib

/-!
# Texts and their bytes

The bytes of a text decode to that text, by either decoder, and the strict one takes no others;
texts are ordered as their bytes are.  All of it rests on the bytes of one character: the first tells
how many there are, and each carries its digits of the code.
-/

namespace Gatehouse.Text.Utf8

def encodeChars (cs : List Char) : List UInt8 := cs.flatMap String.utf8EncodeChar

theorem encode_eq (s : String) : encode s = encodeChars s.toList := rfl

@[simp]
theorem encodeChars_cons (c : Char) (cs : List Char) :
    encodeChars (c :: cs) = String.utf8EncodeChar c ++ encodeChars cs := List.flatMap_cons

@[simp]
theorem encodeChars_append (cs ds : List Char) :
    encodeChars (cs ++ ds) = encodeChars cs ++ encodeChars ds := List.flatMap_append

/-! ## One character -/

/-- The bytes of a code, by how many it takes. -/
inductive Spells (v : Nat) : List UInt8 → Prop where
  | one (h : v < 0x80) : Spells v [UInt8.ofNat v]
  | two (hlow : 0x80 ≤ v) (h : v < 0x800) :
      Spells v [UInt8.ofNat (v / 64 + 192), UInt8.ofNat (v % 64 + 128)]
  | three (hlow : 0x800 ≤ v) (h : v < 0x10000) :
      Spells v [UInt8.ofNat (v / 4096 + 224), UInt8.ofNat (v / 64 % 64 + 128),
        UInt8.ofNat (v % 64 + 128)]
  | four (hlow : 0x10000 ≤ v) (h : v < 0x110000) :
      Spells v [UInt8.ofNat (v / 262144 + 240), UInt8.ofNat (v / 4096 % 64 + 128),
        UInt8.ofNat (v / 64 % 64 + 128), UInt8.ofNat (v % 64 + 128)]

/-- No character has the code of a surrogate. -/
theorem code_valid (c : Char) : c.toNat < 0xD800 ∨ 0xDFFF < c.toNat ∧ c.toNat < 0x110000 := c.valid

theorem spells_utf8EncodeChar (c : Char) : Spells c.toNat (String.utf8EncodeChar c) := by
  have hvalid := code_valid c
  have hlead {n k : Nat} (h : n < k) : n % k = n := Nat.mod_eq_of_lt h
  unfold String.utf8EncodeChar
  change Spells c.toNat (if c.toNat ≤ 127 then _ else if c.toNat ≤ 2047 then
    [UInt8.ofNat (c.toNat / 64 % 32 + 192), _] else if c.toNat ≤ 65535 then
      UInt8.ofNat (c.toNat / 4096 % 16 + 224) :: _ else
        UInt8.ofNat (c.toNat / 262144 % 8 + 240) :: _)
  split
  · exact .one (by omega)
  split
  · rw [hlead (by omega)]
    exact .two (by omega) (by omega)
  split
  · rw [hlead (by omega)]
    exact .three (by omega) (by omega)
  · rw [hlead (by omega)]
    exact .four (by omega) (by omega)

/-- A code below 128 is its own byte. -/
theorem utf8EncodeChar_of_ascii {c : Char} (h : c.toNat < 128) :
    String.utf8EncodeChar c = [UInt8.ofNat c.toNat] := by
  rw [String.utf8EncodeChar]
  exact if_pos (Nat.le_of_lt_succ h)

theorem encodeChars_of_ascii {cs : List Char} (h : ∀ c ∈ cs, c.toNat < 128) :
    encodeChars cs = cs.map fun c => UInt8.ofNat c.toNat := by
  induction cs with
  | nil => rfl
  | cons c cs ih =>
      obtain ⟨hc, hcs⟩ := List.forall_mem_cons.mp h
      rw [encodeChars_cons, utf8EncodeChar_of_ascii hc, ih hcs]
      rfl

/-- Bytes below 128 are the bytes of the text with these codes. -/
theorem encode_ascii {bytes : List UInt8} (h : ∀ b ∈ bytes, b.toNat < 128) :
    encode (String.ofList (bytes.map fun b => Char.ofNat b.toNat)) = bytes := by
  have hcode : ∀ b ∈ bytes, (Char.ofNat b.toNat).toNat = b.toNat := by
    intro b hb
    have hascii := h b hb
    rw [Char.toNat_ofNat, if_pos (Or.inl (by omega))]
  rw [encode_eq, String.toList_ofList, encodeChars_of_ascii, List.map_map]
  · refine (List.map_congr_left fun b hb => ?_).trans (List.map_id bytes)
    rw [Function.comp_apply, hcode b hb, UInt8.ofNat_toNat, id]
  · rw [List.forall_mem_map]
    exact fun b hb => (hcode b hb).symm ▸ h b hb

theorem toNat_byte {n : Nat} (h : n < 256) : (UInt8.ofNat n).toNat = n := by
  rw [UInt8.toNat_ofNat', Nat.mod_eq_of_lt h]

theorem isContinuation_ofNat {n : Nat} (h : n < 64) :
    isContinuation (UInt8.ofNat (n + 128)) = true := by
  simp only [isContinuation, UInt8.le_iff_toNat_le, toNat_byte (show n + 128 < 256 by omega),
    UInt8.reduceToNat, Bool.and_eq_true, decide_eq_true_eq]
  omega

theorem low6_ofNat {n : Nat} (h : n < 64) : low6 (UInt8.ofNat (n + 128)) = n := by
  rw [low6, toNat_byte (by omega)]
  omega

/-- The second byte tells codes in three bytes from surrogates and from those in fewer bytes. -/
theorem secondAllowed_three {v : Nat} (hlow : 0x800 ≤ v) (h : v < 0x10000)
    (hvalid : v < 0xD800 ∨ 0xDFFF < v) :
    secondAllowed (UInt8.ofNat (v / 4096 + 224)) (UInt8.ofNat (v / 64 % 64 + 128)) = true := by
  have hlead : (UInt8.ofNat (v / 4096 + 224)).toNat = v / 4096 + 224 := toNat_byte (by omega)
  have hsecond : (UInt8.ofNat (v / 64 % 64 + 128)).toNat = v / 64 % 64 + 128 :=
    toNat_byte (by omega)
  simp only [secondAllowed, beq_iff_eq, ← UInt8.toNat_inj, hlead, UInt8.reduceToNat,
    isContinuation_ofNat (Nat.mod_lt _ (by decide : 0 < 64)), UInt8.le_iff_toNat_le, hsecond]
  split
  · simp only [Bool.and_eq_true, decide_eq_true_eq]
    omega
  split
  · simp only [Bool.and_eq_true, decide_eq_true_eq]
    omega
  split
  · omega
  split
  · omega
  · rfl

/-- The second byte tells codes in four bytes from those in three and from numbers that are no
codes. -/
theorem secondAllowed_four {v : Nat} (hlow : 0x10000 ≤ v) (h : v < 0x110000) :
    secondAllowed (UInt8.ofNat (v / 262144 + 240)) (UInt8.ofNat (v / 4096 % 64 + 128)) = true := by
  have hlead : (UInt8.ofNat (v / 262144 + 240)).toNat = v / 262144 + 240 := toNat_byte (by omega)
  have hsecond : (UInt8.ofNat (v / 4096 % 64 + 128)).toNat = v / 4096 % 64 + 128 :=
    toNat_byte (by omega)
  simp only [secondAllowed, beq_iff_eq, ← UInt8.toNat_inj, hlead, UInt8.reduceToNat,
    isContinuation_ofNat (Nat.mod_lt _ (by decide : 0 < 64)), UInt8.le_iff_toNat_le, hsecond]
  split
  · omega
  split
  · omega
  split
  · simp only [Bool.and_eq_true, decide_eq_true_eq]
    omega
  split
  · simp only [Bool.and_eq_true, decide_eq_true_eq]
    omega
  · rfl

/-- The bytes of a character are read as that character, whatever follows them. -/
theorem front_utf8EncodeChar (c : Char) : ∃ lead tail, String.utf8EncodeChar c = lead :: tail ∧
    ∀ rest, front lead (tail ++ rest) = .scalar c (tail.length + 1) := by
  have hvalid := code_valid c
  have hchar {n : Nat} (h : n = c.toNat) : Char.ofNat n = c := by rw [h, Char.ofNat_toNat]
  have hspells := spells_utf8EncodeChar c
  generalize String.utf8EncodeChar c = bytes, c.toNat = v at *
  have hdigit (n : Nat) : n % 64 < 64 := Nat.mod_lt n (by decide)
  -- The first byte is too large for every test but that of its own length.
  cases hspells with
  | one h =>
      refine ⟨_, _, rfl, fun rest => ?_⟩
      unfold front
      simp only [UInt8.lt_iff_toNat_lt, toNat_byte (show v < 256 by omega), UInt8.reduceToNat]
      rw [if_pos h, hchar rfl]
      rfl
  | two hlow h =>
      refine ⟨_, _, rfl, fun rest => ?_⟩
      unfold front
      simp only [UInt8.lt_iff_toNat_lt, toNat_byte (show v / 64 + 192 < 256 by omega),
        UInt8.reduceToNat]
      rw [if_neg (by omega), if_neg (by omega), if_pos (by omega)]
      simp only [List.cons_append, isContinuation_ofNat (hdigit _), low6_ofNat (hdigit _), if_true]
      rw [hchar (by omega)]
      rfl
  | three hlow h =>
      refine ⟨_, _, rfl, fun rest => ?_⟩
      have hsecond := secondAllowed_three hlow h (by omega)
      unfold front
      simp only [UInt8.lt_iff_toNat_lt, toNat_byte (show v / 4096 + 224 < 256 by omega),
        UInt8.reduceToNat]
      rw [if_neg (by omega), if_neg (by omega), if_neg (by omega), if_pos (by omega)]
      simp only [List.cons_append, List.nil_append, hsecond, isContinuation_ofNat (hdigit _),
        low6_ofNat (hdigit _), Bool.not_true, if_true, Bool.false_eq_true, if_false]
      rw [hchar (by omega)]
      rfl
  | four hlow h =>
      refine ⟨_, _, rfl, fun rest => ?_⟩
      have hsecond := secondAllowed_four hlow h
      unfold front
      simp only [UInt8.lt_iff_toNat_lt, toNat_byte (show v / 262144 + 240 < 256 by omega),
        UInt8.reduceToNat]
      rw [if_neg (by omega), if_neg (by omega), if_neg (by omega), if_neg (by omega),
        if_pos (by omega)]
      simp only [List.cons_append, List.nil_append, hsecond, isContinuation_ofNat (hdigit _),
        low6_ofNat (hdigit _), Bool.not_true, if_true, Bool.false_eq_true, if_false]
      rw [hchar (by omega)]
      rfl

/-! ## Decoding -/

theorem decodeFrom_skip (position : Nat) (tail rest : List UInt8) :
    decodeFrom position tail.length (tail ++ rest) =
      decodeFrom (position + tail.length) 0 rest := by
  induction tail generalizing position with
  | nil => rfl
  | cons b tail ih =>
      rw [List.length_cons, List.cons_append, decodeFrom, ih, Nat.add_right_comm, Nat.add_assoc]

theorem lossyFrom_skip (tail rest : List UInt8) :
    lossyFrom tail.length (tail ++ rest) = lossyFrom 0 rest := by
  induction tail with
  | nil => rfl
  | cons b tail ih => rw [List.length_cons, List.cons_append, lossyFrom, ih]

theorem decodeFrom_encodeChars (position : Nat) (cs : List Char) :
    decodeFrom position 0 (encodeChars cs) = .ok cs := by
  induction cs generalizing position with
  | nil => rfl
  | cons c cs ih =>
      obtain ⟨lead, tail, hbytes, hfront⟩ := front_utf8EncodeChar c
      rw [encodeChars_cons, hbytes, List.cons_append, decodeFrom, hfront]
      change (decodeFrom (position + 1) tail.length (tail ++ encodeChars cs)).map (c :: ·) = _
      rw [decodeFrom_skip, ih]
      rfl

theorem lossyFrom_encodeChars (cs : List Char) : lossyFrom 0 (encodeChars cs) = cs := by
  induction cs with
  | nil => rfl
  | cons c cs ih =>
      obtain ⟨lead, tail, hbytes, hfront⟩ := front_utf8EncodeChar c
      rw [encodeChars_cons, hbytes, List.cons_append, lossyFrom, hfront]
      change c :: lossyFrom tail.length (tail ++ encodeChars cs) = _
      rw [lossyFrom_skip, ih]

/-- The bytes of a text are that text. -/
@[simp]
theorem decode_encode (s : String) : decode (encode s) = .ok s := by
  rw [decode, encode_eq, decodeFrom_encodeChars]
  exact congrArg Except.ok String.ofList_toList

/-- In the bytes of a text nothing is replaced. -/
@[simp]
theorem decodeLossy_encode (s : String) : decodeLossy (encode s) = s := by
  rw [decodeLossy, encode_eq, lossyFrom_encodeChars, String.ofList_toList]

/-! ## What decodes -/

/-- The bytes that spell a code are those of its character. -/
theorem Spells.eq_utf8EncodeChar {v : Nat} {bytes : List UInt8} (h : Spells v bytes)
    (hvalid : v < 0xD800 ∨ 0xDFFF < v) : String.utf8EncodeChar (Char.ofNat v) = bytes := by
  have hbound : v < 0x110000 := by
    cases h <;> omega
  have hcode : (Char.ofNat v).toNat = v := by
    rw [Char.toNat_ofNat, if_pos (hvalid.imp_right fun hhigh => ⟨hhigh, hbound⟩)]
  have hchar := spells_utf8EncodeChar (Char.ofNat v)
  rw [hcode] at hchar
  -- A code has bytes of one length only, and of that length only one spelling.
  cases h <;> generalize String.utf8EncodeChar (Char.ofNat v) = written at hchar <;>
    cases hchar <;> first | rfl | omega

theorem isContinuation_iff {b : UInt8} :
    isContinuation b = true ↔ 0x80 ≤ b.toNat ∧ b.toNat ≤ 0xBF := by
  simp only [isContinuation, Bool.and_eq_true, decide_eq_true_eq, UInt8.le_iff_toNat_le,
    UInt8.reduceToNat]

/-- The second byte keeps codes of three bytes out of the surrogates, and codes of more bytes than
they need out altogether. -/
theorem bounds_of_secondAllowed {lead second : UInt8} (h : secondAllowed lead second = true) :
    0x80 ≤ second.toNat ∧ second.toNat ≤ 0xBF ∧
      (lead.toNat = 0xE0 → 0xA0 ≤ second.toNat) ∧ (lead.toNat = 0xED → second.toNat ≤ 0x9F) ∧
      (lead.toNat = 0xF0 → 0x90 ≤ second.toNat) ∧ (lead.toNat = 0xF4 → second.toNat ≤ 0x8F) := by
  simp only [secondAllowed, isContinuation, beq_iff_eq, ← UInt8.toNat_inj, UInt8.le_iff_toNat_le,
    UInt8.reduceToNat] at h
  split_ifs at h <;> simp only [Bool.and_eq_true, decide_eq_true_eq] at h <;> omega

theorem ofNat_eq_byte {b : UInt8} {n : Nat} (h : n = b.toNat) : UInt8.ofNat n = b := by
  rw [h, UInt8.ofNat_toNat]

theorem spells_one {lead : UInt8} (h : lead.toNat < 0x80) : Spells lead.toNat [lead] := by
  have hspells := Spells.one h
  rwa [ofNat_eq_byte rfl] at hspells

theorem spells_two {lead b : UInt8} (hlow : 0xC2 ≤ lead.toNat) (hhigh : lead.toNat < 0xE0)
    (hb : isContinuation b = true) : Spells (lead.toNat % 32 * 64 + low6 b) [lead, b] := by
  rw [isContinuation_iff] at hb
  have hspells : Spells (lead.toNat % 32 * 64 + b.toNat % 64) _ := .two (by omega) (by omega)
  rwa [ofNat_eq_byte (b := lead) (by omega), ofNat_eq_byte (b := b) (by omega)] at hspells

theorem spells_three {lead b c : UInt8} (hlow : 0xE0 ≤ lead.toNat) (hhigh : lead.toNat < 0xF0)
    (hb : secondAllowed lead b = true) (hc : isContinuation c = true) :
    Spells (lead.toNat % 16 * 4096 + low6 b * 64 + low6 c) [lead, b, c] ∧
      (lead.toNat % 16 * 4096 + low6 b * 64 + low6 c < 0xD800 ∨
        0xDFFF < lead.toNat % 16 * 4096 + low6 b * 64 + low6 c) := by
  obtain ⟨hbLow, hbHigh, hshort, hsurrogate, -⟩ := bounds_of_secondAllowed hb
  rw [isContinuation_iff] at hc
  rw [low6, low6]
  have hspells : Spells (lead.toNat % 16 * 4096 + b.toNat % 64 * 64 + c.toNat % 64) _ :=
    .three (by omega) (by omega)
  rw [ofNat_eq_byte (b := lead) (by omega), ofNat_eq_byte (b := b) (by omega),
    ofNat_eq_byte (b := c) (by omega)] at hspells
  exact ⟨hspells, by omega⟩

theorem spells_four {lead b c d : UInt8} (hlow : 0xF0 ≤ lead.toNat) (hhigh : lead.toNat < 0xF5)
    (hb : secondAllowed lead b = true) (hc : isContinuation c = true)
    (hd : isContinuation d = true) :
    Spells (lead.toNat % 8 * 262144 + low6 b * 4096 + low6 c * 64 + low6 d) [lead, b, c, d] ∧
      0xDFFF < lead.toNat % 8 * 262144 + low6 b * 4096 + low6 c * 64 + low6 d := by
  obtain ⟨hbLow, hbHigh, -, -, hshort, hlong⟩ := bounds_of_secondAllowed hb
  rw [isContinuation_iff] at hc hd
  rw [low6, low6, low6]
  have hspells : Spells (lead.toNat % 8 * 262144 + b.toNat % 64 * 4096 + c.toNat % 64 * 64 +
      d.toNat % 64) _ := .four (by omega) (by omega)
  rw [ofNat_eq_byte (b := lead) (by omega), ofNat_eq_byte (b := b) (by omega),
    ofNat_eq_byte (b := c) (by omega), ofNat_eq_byte (b := d) (by omega)] at hspells
  exact ⟨hspells, by omega⟩

/-- What is read as a character are its bytes. -/
theorem front_eq_scalar {lead : UInt8} {rest : List UInt8} {c : Char} {n : Nat}
    (h : front lead rest = .scalar c n) :
    ∃ tail behind, rest = tail ++ behind ∧ n = tail.length + 1 ∧
      String.utf8EncodeChar c = lead :: tail := by
  unfold front at h
  simp only [UInt8.lt_iff_toNat_lt, UInt8.reduceToNat] at h
  split at h
  · next hlead =>
      cases h
      exact ⟨[], rest, rfl, rfl, (spells_one hlead).eq_utf8EncodeChar (by omega)⟩
  split at h
  · cases h
  split at h
  · next hlow hhigh =>
      rcases rest with _ | ⟨b, behind⟩
      · cases h
      simp only at h
      split at h
      · next hb =>
          cases h
          have hspells := spells_two (by omega) hhigh hb
          exact ⟨[b], behind, rfl, rfl, hspells.eq_utf8EncodeChar (by rw [low6]; omega)⟩
      · cases h
  split at h
  · next hlow hhigh =>
      rcases rest with _ | ⟨b, _ | ⟨d, behind⟩⟩
      · cases h
      · simp only at h
        split at h <;> cases h
      simp only at h
      split at h
      · cases h
      split at h
      · next hb hd =>
          cases h
          obtain ⟨hspells, hvalid⟩ := spells_three (by omega) hhigh (by simpa using hb) hd
          exact ⟨[b, d], behind, rfl, rfl, hspells.eq_utf8EncodeChar hvalid⟩
      · cases h
  split at h
  · next hlow hhigh =>
      rcases rest with _ | ⟨b, _ | ⟨d, _ | ⟨e, behind⟩⟩⟩
      · cases h
      · simp only at h
        split at h <;> cases h
      · simp only at h
        split at h
        · cases h
        split at h <;> cases h
      simp only at h
      split at h
      · cases h
      split at h
      · cases h
      split at h
      · next hb hd he =>
          cases h
          obtain ⟨hspells, hvalid⟩ :=
            spells_four (by omega) hhigh (by simpa using hb) (by simpa using hd) he
          exact ⟨[b, d, e], behind, rfl, rfl, hspells.eq_utf8EncodeChar (.inr hvalid)⟩
      · cases h
  · cases h

/-- What is decoded begins with the character in front. -/
theorem decodeFrom_cons_eq_ok {position : Nat} {lead : UInt8} {rest : List UInt8} {cs : List Char}
    (h : decodeFrom position 0 (lead :: rest) = .ok cs) :
    ∃ c n more, front lead rest = .scalar c n ∧ decodeFrom (position + 1) (n - 1) rest = .ok more ∧
      cs = c :: more := by
  rw [decodeFrom] at h
  cases hfront : front lead rest with
  | scalar c n =>
      rw [hfront] at h
      obtain ⟨more, hmore, rfl⟩ := Effect.map_eq_ok.mp h
      exact ⟨c, n, more, rfl, hmore, rfl⟩
  | illFormed _ =>
      rw [hfront] at h
      cases h
  | cutShort =>
      rw [hfront] at h
      cases h

/-- Characters that are decoded have the bytes that they are decoded from. -/
theorem encodeChars_of_decodeFrom {position : Nat} {bytes : List UInt8} {cs : List Char}
    (h : decodeFrom position 0 bytes = .ok cs) : encodeChars cs = bytes := by
  -- The induction is on the characters, since each of them takes several bytes.
  induction cs generalizing position bytes with
  | nil =>
      cases bytes with
      | nil => rfl
      | cons lead rest =>
          obtain ⟨_, _, _, -, -, hcons⟩ := decodeFrom_cons_eq_ok h
          cases hcons
  | cons c cs ih =>
      cases bytes with
      | nil => cases h
      | cons lead rest =>
          obtain ⟨_, _, _, hfront, hrest, ⟨rfl, rfl⟩⟩ := decodeFrom_cons_eq_ok h
          obtain ⟨tail, behind, rfl, rfl, hbytes⟩ := front_eq_scalar hfront
          rw [Nat.add_sub_cancel, decodeFrom_skip] at hrest
          rw [encodeChars_cons, hbytes, ih hrest, List.cons_append]

/-- Bytes decode to a text exactly if they are the bytes of that text. -/
theorem decode_eq_ok {bytes : List UInt8} {s : String} :
    decode bytes = .ok s ↔ bytes = encode s := by
  constructor
  · intro h
    obtain ⟨cs, hcs, rfl⟩ := Effect.map_eq_ok.mp h
    rw [encode_eq, String.toList_ofList, encodeChars_of_decodeFrom hcs]
  · rintro rfl
    exact decode_encode s

/-- Texts with the same bytes are the same. -/
theorem encode_injective : Function.Injective encode := by
  intro s t h
  have hdecode := decode_encode s
  rw [h, decode_encode] at hdecode
  exact (Except.ok.inj hdecode).symm

/-! ## Order -/

theorem byte_lt_byte {m n : Nat} (hm : m < 256) (hn : n < 256) :
    UInt8.ofNat m < UInt8.ofNat n ↔ m < n := by
  rw [UInt8.lt_iff_toNat_lt, toNat_byte hm, toNat_byte hn]

theorem byte_eq_byte {m n : Nat} (hm : m < 256) (hn : n < 256) :
    UInt8.ofNat m = UInt8.ofNat n ↔ m = n := by
  rw [← UInt8.toNat_inj, toNat_byte hm, toNat_byte hn]

/-- Of two codes the smaller has the smaller bytes, whatever follows them. -/
theorem Spells.lt {v w : Nat} {left right : List UInt8} (hv : Spells v left)
    (hw : Spells w right) (h : v < w) (rest rest' : List UInt8) : left ++ rest < right ++ rest' := by
  -- Codes of different lengths differ in the first byte, codes of one length in their first digit
  -- that is not the same.
  cases hv <;> cases hw <;>
    simp (disch := omega) only [List.cons_append, List.nil_append, List.cons_lt_cons_iff,
      byte_lt_byte, byte_eq_byte] <;>
    omega

theorem encodeChars_lt {cs ds : List Char} (h : cs < ds) : encodeChars cs < encodeChars ds := by
  induction cs generalizing ds with
  | nil =>
      cases ds with
      | nil => exact absurd h (List.lt_irrefl _)
      | cons d ds =>
          obtain ⟨lead, tail, hbytes, -⟩ := front_utf8EncodeChar d
          rw [encodeChars_cons, hbytes]
          exact List.nil_lt_cons _ _
  | cons c cs ih =>
      cases ds with
      | nil => cases h
      | cons d ds =>
          rw [encodeChars_cons, encodeChars_cons]
          rcases List.cons_lt_cons_iff.mp h with hlt | ⟨rfl, hrest⟩
          · exact (spells_utf8EncodeChar c).lt (spells_utf8EncodeChar d) hlt _ _
          · exact List.append_left_lt (ih hrest)

/-- Texts are ordered as their bytes are. -/
theorem encode_lt_encode_iff {s t : String} : encode s < encode t ↔ s < t := by
  refine ⟨fun h => ?_, fun h => encodeChars_lt h⟩
  rcases lt_trichotomy s t with hlt | rfl | hgt
  · exact hlt
  · exact absurd h (List.lt_irrefl _)
  · exact absurd (encodeChars_lt hgt) (List.lt_asymm h)

theorem encode_le_encode_iff {s t : String} : encode s ≤ encode t ↔ s ≤ t := by
  rw [← List.not_lt, encode_lt_encode_iff, not_lt]

end Gatehouse.Text.Utf8

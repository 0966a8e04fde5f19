import Gatehouse.Base64
import Gatehouse.Proofs.Effect

/-!
# Base64 round trip

What the standard variant writes of a byte string, it reads as that byte string, and it reads
nothing else.  Three bytes make four symbols, so that only the last group is looked at for padding
and for bits that are not used.
-/

namespace Gatehouse.Base64

/-! ## What is written -/

theorem forall_mem_padded {v : Variant} {P : UInt8 → Prop} (hpad : v.padding = .required → P pad)
    {symbols : List UInt8} (h : ∀ s ∈ symbols, P s) : ∀ s ∈ v.padded symbols, P s := by
  intro s hs
  cases hpadding : v.padding with
  | required =>
      rw [Variant.padded, hpadding] at hs
      rcases List.mem_append.mp hs with hsymbol | hpadded
      · exact h s hsymbol
      · exact List.eq_of_mem_replicate hpadded ▸ hpad hpadding
  | forbidden =>
      rw [Variant.padded, hpadding] at hs
      exact h s hs

/-- What holds of every symbol, and of the padding where there is any, holds of every byte that is
written. -/
theorem forall_mem_encode {v : Variant} {P : UInt8 → Prop} (hsymbol : ∀ n < 64, P (v.symbol n))
    (hpad : v.padding = .required → P pad) (bytes : List UInt8) :
    ∀ s ∈ encode v bytes, P s := by
  have hbyte (b : UInt8) : b.toNat < 256 := b.toNat_lt
  have hfirst (a : UInt8) : P (v.symbol (a.toNat / 4)) := hsymbol _ (by have := hbyte a; omega)
  have hsecond (a b : UInt8) : P (v.symbol (a.toNat % 4 * 16 + b.toNat / 16)) :=
    hsymbol _ (by have := hbyte b; omega)
  have hthird (b c : UInt8) : P (v.symbol (b.toNat % 16 * 4 + c.toNat / 64)) :=
    hsymbol _ (by have := hbyte c; omega)
  induction bytes using encode.induct with
  | case1 => exact List.forall_mem_nil _
  | case2 a =>
      refine forall_mem_padded hpad ?_
      simp only [List.forall_mem_cons]
      exact ⟨hfirst a, hsymbol _ (by omega), List.forall_mem_nil _⟩
  | case3 a b =>
      refine forall_mem_padded hpad ?_
      simp only [List.forall_mem_cons]
      exact ⟨hfirst a, hsecond a b, hsymbol _ (by omega), List.forall_mem_nil _⟩
  | case4 a b c rest ih =>
      simp only [encode, List.forall_mem_cons]
      exact ⟨hfirst a, hsecond a b, hthird b c, hsymbol _ (by omega), ih⟩

/-! ## Symbols -/

/-- The symbol of a number is read as the number, and it is no padding. -/
theorem value?_symbol {n : Nat} (h : n < 64) :
    standard.value? (standard.symbol n) = some n ∧ standard.symbol n ≠ pad := by
  have hall : ∀ n : Fin 64, standard.value? (standard.symbol n) = some n.val ∧
      standard.symbol n ≠ pad := by decide
  exact hall ⟨n, h⟩

theorem symbolAt_symbol {n : Nat} (h : n < 64) (position : Nat) :
    standard.symbolAt position (standard.symbol n) = .ok n := by
  rw [Variant.symbolAt, (value?_symbol h).1]

/-- The numbers of a group return, with the number of padding symbols behind them. -/
theorem readGroup_symbols (start : Nat) {symbols : Nat} (ns : List Nat) (h : ∀ n ∈ ns, n < 64)
    (htwo : 2 ≤ symbols + ns.length) (pads : Nat) :
    standard.readGroup start symbols (ns.map standard.symbol ++ List.replicate pads pad) =
      .ok (ns, pads) := by
  induction ns generalizing symbols with
  | nil =>
      cases pads with
      | zero => rfl
      | succ pads =>
          have hpads : (List.replicate pads pad).all (· == pad) = true := by simp
          have hfew : ¬ symbols < 2 := Nat.not_lt.mpr htwo
          rw [List.map_nil, List.nil_append, List.replicate_succ, Variant.readGroup, if_pos rfl,
            if_neg hfew, if_pos hpads, List.length_replicate]
  | cons n ns ih =>
      obtain ⟨hn, hrest⟩ := List.forall_mem_cons.mp h
      have hmore : 2 ≤ symbols + 1 + ns.length := by
        rw [List.length_cons] at htwo
        omega
      have hread := ih hrest hmore
      rw [List.map_cons, List.cons_append, Variant.readGroup, if_neg (value?_symbol hn).2,
        symbolAt_symbol hn, hread]
      rfl

/-! ## The last group -/

theorem ofNat_eq {n : Nat} {b : UInt8} (h : n = b.toNat) : UInt8.ofNat n = b := by
  rw [h, UInt8.ofNat_toNat]

theorem padding_standard : standard.padding = .required := rfl

section

variable (a b c : UInt8)

theorem first_byte : UInt8.ofNat (a.toNat / 4 * 4 + (a.toNat % 4 * 16 + b.toNat / 16) / 16) = a :=
  ofNat_eq (by have := b.toNat_lt; omega)

theorem second_byte : UInt8.ofNat ((a.toNat % 4 * 16 + b.toNat / 16) % 16 * 16 +
    (b.toNat % 16 * 4 + c.toNat / 64) / 4) = b :=
  ofNat_eq (by have := b.toNat_lt; have := c.toNat_lt; omega)

theorem third_byte :
    UInt8.ofNat ((b.toNat % 16 * 4 + c.toNat / 64) % 4 * 64 + c.toNat % 64) = c :=
  ofNat_eq (by have := c.toNat_lt; omega)

theorem readLast_one (start : Nat) :
    standard.readLast start (encode standard [a]) = .ok [a] := by
  have ha : a.toNat < 256 := a.toNat_lt
  have hgroup : standard.readGroup start 0 (encode standard [a]) =
      .ok ([a.toNat / 4, a.toNat % 4 * 16], 2) :=
    readGroup_symbols start [a.toNat / 4, a.toNat % 4 * 16] (by simp; omega) (by simp) 2
  have hfirst : UInt8.ofNat (a.toNat / 4 * 4 + a.toNat % 4 * 16 / 16) = a := ofNat_eq (by omega)
  have hunused : ¬ a.toNat % 4 * 16 % 16 ≠ 0 := by omega
  simp only [Variant.readLast, hgroup, padding_standard, bind, Except.bind, pure, Except.pure,
    List.length_cons, List.length_nil, if_neg hunused, hfirst]
  simp

theorem readLast_two (start : Nat) :
    standard.readLast start (encode standard [a, b]) = .ok [a, b] := by
  have ha : a.toNat < 256 := a.toNat_lt
  have hb : b.toNat < 256 := b.toNat_lt
  have hgroup : standard.readGroup start 0 (encode standard [a, b]) =
      .ok ([a.toNat / 4, a.toNat % 4 * 16 + b.toNat / 16, b.toNat % 16 * 4], 1) :=
    readGroup_symbols start [a.toNat / 4, a.toNat % 4 * 16 + b.toNat / 16, b.toNat % 16 * 4]
      (by simp; omega) (by simp) 1
  have hsecond : UInt8.ofNat ((a.toNat % 4 * 16 + b.toNat / 16) % 16 * 16 +
      b.toNat % 16 * 4 / 4) = b := ofNat_eq (by omega)
  have hunused : ¬ b.toNat % 16 * 4 % 4 ≠ 0 := by omega
  simp only [Variant.readLast, hgroup, padding_standard, bind, Except.bind, pure, Except.pure,
    List.length_cons, List.length_nil, if_neg hunused, first_byte, hsecond]
  simp

theorem readLast_three (start : Nat) :
    standard.readLast start (encode standard [a, b, c]) = .ok [a, b, c] := by
  have ha : a.toNat < 256 := a.toNat_lt
  have hb : b.toNat < 256 := b.toNat_lt
  have hc : c.toNat < 256 := c.toNat_lt
  have hgroup : standard.readGroup start 0 (encode standard [a, b, c]) =
      .ok ([a.toNat / 4, a.toNat % 4 * 16 + b.toNat / 16, b.toNat % 16 * 4 + c.toNat / 64,
        c.toNat % 64], 0) :=
    readGroup_symbols start [a.toNat / 4, a.toNat % 4 * 16 + b.toNat / 16,
      b.toNat % 16 * 4 + c.toNat / 64, c.toNat % 64] (by simp; omega) (by simp) 0
  simp only [Variant.readLast, hgroup, padding_standard, bind, Except.bind, pure, Except.pure,
    List.length_cons, List.length_nil, first_byte, second_byte, third_byte]
  simp

end

/-! ## All groups -/

theorem length_encode_mod (bytes : List UInt8) : (encode standard bytes).length % 4 = 0 := by
  induction bytes using encode.induct with
  | case1 => rfl
  | case2 a => simp [encode, Variant.padded, padding_standard]
  | case3 a b => simp [encode, Variant.padded, padding_standard]
  | case4 a b c rest ih =>
      simp only [encode, List.length_cons]
      omega

theorem encode_ne_nil {bytes : List UInt8} (h : bytes ≠ []) : encode standard bytes ≠ [] := by
  cases bytes using encode.induct with
  | case1 => exact absurd rfl h
  | case2 a => exact List.cons_ne_nil _ _
  | case3 a b => exact List.cons_ne_nil _ _
  | case4 a b c rest ih => exact List.cons_ne_nil _ _

theorem readGroups_encode (start : Nat) {bytes : List UInt8} (h : bytes ≠ []) :
    standard.readGroups start (encode standard bytes) = .ok bytes := by
  induction bytes using encode.induct generalizing start with
  | case1 => exact absurd rfl h
  | case2 a => exact readLast_one a start
  | case3 a b => exact readLast_two a b start
  | case4 a b c rest ih =>
      cases rest with
      | nil => exact readLast_three a b c start
      | cons d rest =>
          have hrest : d :: rest ≠ [] := List.cons_ne_nil d rest
          have ha := a.toNat_lt
          have hb := b.toNat_lt
          have hc := c.toNat_lt
          have hread := ih (start + 4) hrest
          obtain ⟨e, more, hmore⟩ := List.exists_cons_of_ne_nil (encode_ne_nil hrest)
          rw [hmore] at hread
          rw [encode, hmore, Variant.readGroups, symbolAt_symbol (by omega),
            symbolAt_symbol (by omega), symbolAt_symbol (by omega), symbolAt_symbol (by omega),
            hread]
          simp only [bind, Except.bind, pure, Except.pure, first_byte, second_byte, third_byte]

/-- What is written of a byte string is read as the byte string. -/
theorem decode_encode (bytes : List UInt8) :
    decode standard (encode standard bytes) = .ok bytes := by
  by_cases hbytes : bytes = []
  · rw [hbytes]
    rfl
  have hlength := length_encode_mod bytes
  rw [decode, List.getLast?_eq_some_getLast (encode_ne_nil hbytes)]
  exact (if_neg (by omega)).trans (readGroups_encode 0 hbytes)

/-! ## What is read -/

/-- A byte is read as a number only if it is the symbol of the number. -/
theorem value?_eq_some {b : UInt8} {n : Nat} (h : standard.value? b = some n) :
    n < 64 ∧ b = standard.symbol n := by
  have hall : ∀ i : Fin 256, ∀ n ∈ standard.value? (UInt8.ofNat i), n < 64 ∧
      UInt8.ofNat i = standard.symbol n := by decide +kernel
  have hbyte := hall ⟨b.toNat, b.toNat_lt⟩ n
  rw [UInt8.ofNat_toNat] at hbyte
  exact hbyte h

theorem symbolAt_eq_ok {position : Nat} {b : UInt8} {n : Nat}
    (h : standard.symbolAt position b = .ok n) : n < 64 ∧ b = standard.symbol n := by
  rw [Variant.symbolAt] at h
  split at h
  · next found hfound =>
      cases h
      exact value?_eq_some hfound
  · cases h

/-- The symbols of a group are those of its numbers, and padding is all that stands behind them. -/
theorem readGroup_eq_ok {start symbols pads : Nat} {group : List UInt8} {ns : List Nat}
    (h : standard.readGroup start symbols group = .ok (ns, pads)) :
    (∀ n ∈ ns, n < 64) ∧ group = ns.map standard.symbol ++ List.replicate pads pad := by
  induction group generalizing symbols ns with
  | nil =>
      cases h
      exact ⟨fun n hn => absurd hn List.not_mem_nil, rfl⟩
  | cons b rest ih =>
      rw [Variant.readGroup] at h
      by_cases hpad : b = pad
      · rw [if_pos hpad] at h
        split at h
        · cases h
        · split at h
          · next hrest =>
              cases h
              have hpadding : rest = List.replicate rest.length pad := by
                apply List.eq_replicate_iff.mpr
                exact ⟨rfl, fun c hc => beq_iff_eq.mp (List.all_eq_true.mp hrest c hc)⟩
              refine ⟨fun n hn => absurd hn List.not_mem_nil, ?_⟩
              rw [List.map_nil, List.nil_append, List.replicate_succ, ← hpadding, hpad]
          · cases h
      · rw [if_neg hpad] at h
        obtain ⟨n, hn, h⟩ := Effect.bind_eq_ok.mp h
        obtain ⟨⟨more, morePads⟩, hmore, h⟩ := Effect.bind_eq_ok.mp h
        cases h
        obtain ⟨hlt, rfl⟩ := symbolAt_eq_ok hn
        obtain ⟨hall, hrest⟩ := ih hmore
        refine ⟨List.forall_mem_cons.mpr ⟨hlt, hall⟩, ?_⟩
        rw [hrest]
        rfl

section

variable {a b c d : Nat}

theorem toNat_first (ha : a < 64) (hb : b < 64) :
    (UInt8.ofNat (a * 4 + b / 16)).toNat = a * 4 + b / 16 :=
  UInt8.toNat_ofNat_of_lt' (by change _ < 256; omega)

theorem toNat_second (b : Nat) (hc : c < 64) :
    (UInt8.ofNat (b % 16 * 16 + c / 4)).toNat = b % 16 * 16 + c / 4 :=
  UInt8.toNat_ofNat_of_lt' (by change _ < 256; omega)

theorem toNat_third (c : Nat) (hd : d < 64) :
    (UInt8.ofNat (c % 4 * 64 + d)).toNat = c % 4 * 64 + d :=
  UInt8.toNat_ofNat_of_lt' (by change _ < 256; omega)

theorem encode_of_two (ha : a < 64) (hb : b < 64) (hunused : b % 16 = 0) :
    encode standard [UInt8.ofNat (a * 4 + b / 16)] =
      [standard.symbol a, standard.symbol b, pad, pad] := by
  have hfirst : (a * 4 + b / 16) / 4 = a := by omega
  have hsecond : (a * 4 + b / 16) % 4 * 16 = b := by omega
  rw [encode, toNat_first ha hb, hfirst, hsecond]
  rfl

theorem encode_of_three (ha : a < 64) (hb : b < 64) (hc : c < 64) (hunused : c % 4 = 0) :
    encode standard [UInt8.ofNat (a * 4 + b / 16), UInt8.ofNat (b % 16 * 16 + c / 4)] =
      [standard.symbol a, standard.symbol b, standard.symbol c, pad] := by
  have hfirst : (a * 4 + b / 16) / 4 = a := by omega
  have hsecond : (a * 4 + b / 16) % 4 * 16 + (b % 16 * 16 + c / 4) / 16 = b := by omega
  have hthird : (b % 16 * 16 + c / 4) % 16 * 4 = c := by omega
  rw [encode, toNat_first ha hb, toNat_second b hc, hfirst, hsecond, hthird]
  rfl

theorem encode_of_four (ha : a < 64) (hb : b < 64) (hc : c < 64) (hd : d < 64)
    (rest : List UInt8) :
    encode standard (UInt8.ofNat (a * 4 + b / 16) :: UInt8.ofNat (b % 16 * 16 + c / 4) ::
        UInt8.ofNat (c % 4 * 64 + d) :: rest) =
      standard.symbol a :: standard.symbol b :: standard.symbol c :: standard.symbol d ::
        encode standard rest := by
  have hfirst : (a * 4 + b / 16) / 4 = a := by omega
  have hsecond : (a * 4 + b / 16) % 4 * 16 + (b % 16 * 16 + c / 4) / 16 = b := by omega
  have hthird : (b % 16 * 16 + c / 4) % 16 * 4 + (c % 4 * 64 + d) / 64 = c := by omega
  have hfourth : (c % 4 * 64 + d) % 64 = d := by omega
  rw [encode, toNat_first ha hb, toNat_second b hc, toNat_third c hd, hfirst, hsecond, hthird,
    hfourth]

end

/-- A last group is read as the bytes that it is written of. -/
theorem readLast_eq_ok {start : Nat} {group bytes : List UInt8}
    (h : standard.readLast start group = .ok bytes) (hlength : group.length ≤ 4) :
    group = encode standard bytes := by
  obtain ⟨⟨ns, pads⟩, hgroup, h⟩ := Effect.bind_eq_ok.mp h
  obtain ⟨hall, rfl⟩ := readGroup_eq_ok hgroup
  simp only [padding_standard] at h
  by_cases hfew : ns.length < 2
  · rw [if_pos hfew] at h
    split at h
    · next hempty =>
        cases h
        exact hempty.2
    · cases h
  · rw [if_neg hfew] at h
    split at h
    · cases h
    next hpadding =>
    rw [List.length_append, List.length_map, List.length_replicate] at hlength
    have hpads : pads = 4 - ns.length := by omega
    subst hpads
    split at h
    · next a b =>
        simp only [List.forall_mem_cons] at hall
        obtain ⟨ha, hb, -⟩ := hall
        split at h
        · cases h
        · next hunused =>
            cases h
            exact (encode_of_two ha hb (Decidable.not_not.mp hunused)).symm
    · next a b c =>
        simp only [List.forall_mem_cons] at hall
        obtain ⟨ha, hb, hc, -⟩ := hall
        split at h
        · cases h
        · next hunused =>
            cases h
            exact (encode_of_three ha hb hc (Decidable.not_not.mp hunused)).symm
    · next a b c d =>
        simp only [List.forall_mem_cons] at hall
        obtain ⟨ha, hb, hc, hd, -⟩ := hall
        cases h
        exact (encode_of_four ha hb hc hd []).symm
    · cases h

theorem readGroups_eq_ok {start : Nat} {text bytes : List UInt8}
    (h : standard.readGroups start text = .ok bytes) : text = encode standard bytes := by
  fun_induction Variant.readGroups standard start text generalizing bytes with
  | case1 start a b c d e rest ih =>
      obtain ⟨m, hm, h⟩ := Effect.bind_eq_ok.mp h
      obtain ⟨n, hn, h⟩ := Effect.bind_eq_ok.mp h
      obtain ⟨o, ho, h⟩ := Effect.bind_eq_ok.mp h
      obtain ⟨p, hp, h⟩ := Effect.bind_eq_ok.mp h
      obtain ⟨more, hmore, h⟩ := Effect.bind_eq_ok.mp h
      cases h
      obtain ⟨hlm, rfl⟩ := symbolAt_eq_ok hm
      obtain ⟨hln, rfl⟩ := symbolAt_eq_ok hn
      obtain ⟨hlo, rfl⟩ := symbolAt_eq_ok ho
      obtain ⟨hlp, rfl⟩ := symbolAt_eq_ok hp
      rw [encode_of_four hlm hln hlo hlp, ← ih hmore]
  | case2 start group hshort =>
      refine readLast_eq_ok h ?_
      match group, hshort with
      | [], _ | [_], _ | [_, _], _ | [_, _, _], _ | [_, _, _, _], _ => simp
      | a :: b :: c :: d :: e :: rest, hshort => exact absurd rfl (hshort a b c d e rest)

/-- A text is read as a byte string exactly if it is what is written of it. -/
theorem decode_eq_ok {text bytes : List UInt8} :
    decode standard text = .ok bytes ↔ text = encode standard bytes := by
  constructor
  · intro h
    rw [decode] at h
    split at h
    · split at h
      · cases h
      · exact readGroups_eq_ok h
    · next hempty =>
        cases h
        exact List.getLast?_eq_none_iff.mp hempty
  · rintro rfl
    exact decode_encode bytes

end Gatehouse.Base64

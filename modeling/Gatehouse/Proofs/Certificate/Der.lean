import Gatehouse.Certificate.Der
import Gatehouse.Proofs.Effect

/-!
# Elements and their encodings

An element has as many encodings as its length has.  Each reader is described in both directions:
it takes something from the front of a byte string exactly if an encoding of it stands there, whole,
and what is left is what follows the encoding.
-/

namespace Gatehouse.Der

/-! ## Lengths -/

/-- The encodings of a length: a byte of its own below 128, or the number of the bytes that follow
and one to four of these, with leading zeros or without. -/
inductive LengthEncoding : Nat → List UInt8 → Prop where
  | short {n : Nat} (h : n < 128) : LengthEncoding n [UInt8.ofNat n]
  | long {octets : List UInt8} (hsome : octets ≠ []) (hfew : octets.length ≤ 4) :
      LengthEncoding (ofBytes octets) (UInt8.ofNat (128 + octets.length) :: octets)

theorem readLength_short {n : Nat} (h : n < 128) (rest : List UInt8) :
    readLength (UInt8.ofNat n :: rest) = .ok (n, rest) := by
  have hbyte : (UInt8.ofNat n).toNat = n :=
    UInt8.toNat_ofNat_of_lt' (show n < 256 by omega)
  have hlow : UInt8.ofNat n < 0x80 := by
    rw [UInt8.lt_iff_toNat_lt, hbyte]
    exact h
  rw [readLength, if_pos hlow, hbyte]

theorem readLength_long {octets : List UInt8} (hsome : octets ≠ []) (hfew : octets.length ≤ 4)
    (rest : List UInt8) :
    readLength (UInt8.ofNat (128 + octets.length) :: (octets ++ rest)) =
      .ok (ofBytes octets, rest) := by
  have hpos := List.length_pos_iff.mpr hsome
  have hbyte : (UInt8.ofNat (128 + octets.length)).toNat = 128 + octets.length :=
    UInt8.toNat_ofNat_of_lt' (show 128 + octets.length < 256 by omega)
  have hhigh : ¬ UInt8.ofNat (128 + octets.length) < 0x80 := by
    rw [UInt8.lt_iff_toNat_lt, hbyte]
    exact Nat.not_lt.mpr (Nat.le_add_right 128 _)
  have hcount : (128 + octets.length) % 128 = octets.length := by omega
  simp only [readLength, if_neg hhigh, hbyte, hcount]
  rw [if_neg (by rw [List.length_append]; omega), List.take_left, List.drop_left]

/-- A length is read exactly if an encoding of it stands at the front. -/
theorem readLength_eq_ok {bytes rest : List UInt8} {n : Nat} :
    readLength bytes = .ok (n, rest) ↔ ∃ field, LengthEncoding n field ∧ bytes = field ++ rest := by
  constructor
  · intro h
    cases bytes with
    | nil => cases h
    | cons first tail =>
        have hbyte := first.toNat_lt
        rw [readLength] at h
        by_cases hlow : first < 0x80
        · rw [if_pos hlow] at h
          obtain ⟨rfl, rfl⟩ := h
          refine ⟨[UInt8.ofNat first.toNat], .short ?_, ?_⟩
          · rwa [UInt8.lt_iff_toNat_lt] at hlow
          · rw [UInt8.ofNat_toNat]
            rfl
        · rw [if_neg hlow] at h
          rw [UInt8.lt_iff_toNat_lt] at hlow
          change ¬ first.toNat < 128 at hlow
          simp only at h
          split at h
          · cases h
          next hcount =>
            obtain ⟨rfl, rfl⟩ := h
            have hlength : (tail.take (first.toNat % 128)).length = first.toNat % 128 := by
              rw [List.length_take]
              omega
            have hsome : tail.take (first.toNat % 128) ≠ [] := by
              rw [← List.length_pos_iff]
              omega
            have hfirst : UInt8.ofNat (128 + first.toNat % 128) = first := by
              rw [show 128 + first.toNat % 128 = first.toNat by omega, UInt8.ofNat_toNat]
            refine ⟨_, .long hsome (by omega), ?_⟩
            rw [hlength, hfirst, List.cons_append, List.take_append_drop]
  · rintro ⟨field, hfield, rfl⟩
    cases hfield with
    | short h => exact readLength_short h rest
    | long hsome hfew => exact readLength_long hsome hfew rest

/-! ## Elements -/

inductive Encoding (tag : UInt8) (content : List UInt8) : List UInt8 → Prop where
  | mk {field : List UInt8} (h : LengthEncoding content.length field) :
      Encoding tag content (tag :: field ++ content)

theorem Encoding.ne_nil {tag : UInt8} {content element : List UInt8}
    (h : Encoding tag content element) : element ≠ [] := by
  cases h with
  | mk h => exact List.cons_ne_nil _ _

def shortForm (tag : UInt8) (content : List UInt8) : List UInt8 :=
  tag :: UInt8.ofNat content.length :: content

theorem encoding_shortForm {content : List UInt8} (h : content.length < 128) (tag : UInt8) :
    Encoding tag content (shortForm tag content) :=
  .mk (.short h)

@[simp]
theorem length_shortForm (tag : UInt8) (content : List UInt8) :
    (shortForm tag content).length = content.length + 2 := rfl

/-- An element is read exactly if an encoding of it stands at the front, so that nothing is read
beyond the end. -/
theorem read_eq_ok {bytes : List UInt8} {e : Element} :
    read bytes = .ok e ↔
      ∃ element, Encoding e.tag e.content element ∧ bytes = element ++ e.rest := by
  constructor
  · intro h
    cases bytes with
    | nil => cases h
    | cons tag tail =>
        rw [read, Effect.bind_eq_ok] at h
        obtain ⟨⟨n, rest⟩, hlength, h⟩ := h
        obtain ⟨field, hfield, rfl⟩ := readLength_eq_ok.mp hlength
        obtain ⟨hwhole, h⟩ := Effect.ite_throw_eq_ok.mp h
        cases h
        have hcontent : LengthEncoding (rest.take n).length field := by
          rwa [List.length_take_of_le (Nat.not_lt.mp hwhole)]
        refine ⟨_, .mk hcontent, ?_⟩
        change tag :: (field ++ rest) = tag :: field ++ rest.take n ++ rest.drop n
        rw [List.append_assoc, List.take_append_drop, List.cons_append]
  · rintro ⟨_, hencoding, rfl⟩
    cases hencoding with
    | @mk field hfield =>
        have hlength : readLength (field ++ (e.content ++ e.rest)) =
            .ok (e.content.length, e.content ++ e.rest) :=
          readLength_eq_ok.mpr ⟨field, hfield, rfl⟩
        rw [List.cons_append, List.cons_append, List.append_assoc, read, Effect.bind_eq_ok]
        refine ⟨_, hlength, Effect.ite_throw_eq_ok.mpr ⟨?_, ?_⟩⟩
        · rw [List.length_append]
          omega
        · rw [List.take_left, List.drop_left]
          rfl

/-- An element of a tag is read exactly if an encoding of one stands at the front. -/
theorem expect_eq_ok {tag : UInt8} {bytes content rest : List UInt8} :
    expect tag bytes = .ok (content, rest) ↔
      ∃ element, Encoding tag content element ∧ bytes = element ++ rest := by
  rw [expect, Effect.bind_eq_ok]
  constructor
  · rintro ⟨e, hread, h⟩
    obtain ⟨htag, h⟩ := Effect.ite_throw_eq_ok.mp h
    cases h
    rw [← Decidable.not_not.mp htag]
    exact read_eq_ok.mp hread
  · intro h
    refine ⟨⟨tag, content, rest⟩, read_eq_ok.mpr h, Effect.ite_throw_eq_ok.mpr ⟨?_, rfl⟩⟩
    exact Decidable.not_not.mpr rfl

theorem Encoding.read_append {tag : UInt8} {content element : List UInt8}
    (h : Encoding tag content element) (rest : List UInt8) :
    read (element ++ rest) = .ok ⟨tag, content, rest⟩ :=
  read_eq_ok.mpr ⟨element, h, rfl⟩

theorem Encoding.expect_append {tag : UInt8} {content element : List UInt8}
    (h : Encoding tag content element) (rest : List UInt8) :
    expect tag (element ++ rest) = .ok (content, rest) :=
  expect_eq_ok.mpr ⟨element, h, rfl⟩

/-! ## Elements of one tag -/

section

variable {α : Type} {tag : UInt8} {f : List UInt8 → Except Error α}
  {Form : α → List UInt8 → Prop}

/-- Encodings of elements of one tag, one behind the other, whose contents are forms of the
items. -/
inductive Encodings (tag : UInt8) (Form : α → List UInt8 → Prop) : List α → List UInt8 → Prop where
  | nil : Encodings tag Form [] []
  | cons {a : α} {as : List α} {content element rest : List UInt8} (hform : Form a content)
      (helement : Encoding tag content element) (hrest : Encodings tag Form as rest) :
      Encodings tag Form (a :: as) (element ++ rest)

theorem each_of_ne_nil {bytes : List UInt8} (h : bytes ≠ []) :
    each tag f bytes = (do
      let (content, rest) ← expect tag bytes
      let a ← f content
      let as ← each tag f rest
      return a :: as) := by
  obtain ⟨b, tail, rfl⟩ := List.exists_cons_of_ne_nil h
  rw [each]
  split
  · next error hexpect => rw [hexpect]; rfl
  · next content rest hexpect =>
      rw [hexpect]
      change _ = (f content >>= _)
      split
      · next error hitem => rw [hitem]; rfl
      · next a hitem =>
          rw [hitem]
          change _ = (each tag f rest >>= _)
          cases each tag f rest <;> rfl

/-- Items are read exactly if the bytes are encodings of them, provided that one item is read
exactly if its contents are a form of it. -/
theorem each_eq_ok (hf : ∀ {a : α} {content : List UInt8}, f content = .ok a ↔ Form a content)
    {items : List α} {bytes : List UInt8} :
    each tag f bytes = .ok items ↔ Encodings tag Form items bytes := by
  constructor
  · intro h
    fun_induction each tag f bytes generalizing items with
    | case1 =>
        cases h
        exact .nil
    | case2 => cases h
    | case3 => cases h
    | case4 => cases h
    | case5 b tail content rest hexpect a hitem as hrest ih =>
        cases h
        obtain ⟨element, helement, hbytes⟩ := expect_eq_ok.mp hexpect
        rw [hbytes]
        exact .cons (hf.mp hitem) helement (ih hrest)
  · intro h
    induction h with
    | nil => rw [each]
    | @cons a as content element rest hform helement hrest ih =>
        rw [each_of_ne_nil (List.append_ne_nil_of_left_ne_nil helement.ne_nil rest)]
        refine Effect.bind_eq_ok.mpr ⟨_, helement.expect_append rest, ?_⟩
        refine Effect.bind_eq_ok.mpr ⟨a, hf.mpr hform, ?_⟩
        exact Effect.bind_eq_ok.mpr ⟨as, ih, rfl⟩

end

end Gatehouse.Der

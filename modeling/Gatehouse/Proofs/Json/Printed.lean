import Gatehouse.Proofs.Json.Exact
import Gatehouse.Proofs.Json.Scalars
import Gatehouse.Proofs.Json.Values

/-!
# Written values

An exact value is read from its text as its document, wherever the text stands, if enough brackets
may still be opened.
-/

namespace Gatehouse.Json

open Text.Utf8 (encodeChars)

/-! ## The bytes of a value -/

def separated : List (List UInt8) → List UInt8
  | [] => []
  | piece :: rest => piece ++ rest.flatMap (44 :: ·)

def memberBytes (member : String × Json) : List UInt8 :=
  34 :: (quotedRest member.1 ++ 58 :: member.2.renderBytes)

theorem renderBytes_eq (value : Json) : value.renderBytes = encodeChars value.renderChars := rfl

theorem encodeChars_quoteChars (s : String) :
    encodeChars (quoteChars s.toList) = 34 :: quotedRest s := by
  rw [quoteChars, Text.Utf8.encodeChars_cons, Text.Utf8.encodeChars_append]
  rfl

theorem renderBytes_str (s : String) : renderBytes (.str s) = 34 :: quotedRest s :=
  encodeChars_quoteChars s

theorem encodeChars_renderItems (items : List Json) :
    encodeChars (renderItems items) = (items.map renderBytes).flatMap (44 :: ·) ++ [93] := by
  induction items with
  | nil => rfl
  | cons item rest ih =>
      change encodeChars (',' :: (renderChars item ++ renderItems rest)) = _
      rw [Text.Utf8.encodeChars_cons, Text.Utf8.encodeChars_append, ih, List.map_cons,
        List.flatMap_cons, List.append_assoc]
      rfl

theorem renderBytes_arr (items : List Json) :
    renderBytes (.arr items) = 91 :: (separated (items.map renderBytes) ++ [93]) := by
  cases items with
  | nil => rfl
  | cons item rest =>
      change encodeChars ('[' :: (renderChars item ++ renderItems rest)) = _
      rw [Text.Utf8.encodeChars_cons, Text.Utf8.encodeChars_append, encodeChars_renderItems,
        List.map_cons, separated, List.append_assoc]
      rfl

theorem encodeChars_renderMembers (members : List (String × Json)) :
    encodeChars (renderMembers members) =
      (members.map memberBytes).flatMap (44 :: ·) ++ [125] := by
  induction members with
  | nil => rfl
  | cons member rest ih =>
      rw [renderMembers, Text.Utf8.encodeChars_cons, Text.Utf8.encodeChars_append,
        encodeChars_quoteChars, Text.Utf8.encodeChars_cons, Text.Utf8.encodeChars_append, ih,
        List.map_cons, List.flatMap_cons]
      simp only [memberBytes, List.cons_append, List.append_assoc]
      rfl

theorem renderBytes_obj (members : List (String × Json)) :
    renderBytes (.obj members) = 123 :: (separated (members.map memberBytes) ++ [125]) := by
  cases members with
  | nil => rfl
  | cons member rest =>
      change encodeChars ('\x7b' :: (quoteChars member.1.toList ++
        ':' :: (renderChars member.2 ++ renderMembers rest))) = _
      rw [Text.Utf8.encodeChars_cons, Text.Utf8.encodeChars_append,
        encodeChars_quoteChars, Text.Utf8.encodeChars_cons, Text.Utf8.encodeChars_append,
        encodeChars_renderMembers, List.map_cons, separated]
      simp only [memberBytes, List.cons_append, List.append_assoc]
      rfl

theorem renderBytes_ofNat (n : Nat) : renderBytes (.int n) = decimal n := by
  have htext : (toString (n : Int)).toList = Nat.toDigits 10 n := String.toList_ofList
  change encodeChars (toString (n : Int)).toList = _
  rw [htext]
  rfl

theorem renderBytes_negSucc (n : Nat) :
    renderBytes (.int (Int.negSucc n)) = 45 :: decimal (n + 1) := by
  have htext : (toString (Int.negSucc n)).toList = '-' :: Nat.toDigits 10 (n + 1) := by
    change ("-" ++ String.ofList (Nat.toDigits 10 (n + 1))).toList = _
    rw [String.toList_append, String.toList_ofList (l := Nat.toDigits 10 (n + 1))]
    rfl
  change encodeChars (toString (Int.negSucc n)).toList = _
  rw [htext]
  rfl

/-! ## Readers at a depth -/

namespace Reader

variable {α β : Type} {depth levels : Nat} {after : List UInt8}

/-- In front of the text, with `after` behind it, the reader takes the text and returns the value,
if at least `depth` brackets may be opened. -/
def Takes (depth : Nat) (r : Reader α) (text after : List UInt8) (a : α) : Prop :=
  ∀ c : Cursor, c.rest = text ++ after → depth ≤ c.depth → r c = .ok a (c.advanceBy text.length)

namespace Takes

variable {r : Reader α} {f : α → Reader β} {text text' : List UInt8} {a : α} {b : β}

theorem of_spans (h : Spans r (text ++ after) text.length a) : Takes depth r text after a :=
  fun c hc _ => h c hc

theorem mono {depth' : Nat} (h : Takes depth r text after a) (hle : depth ≤ depth') :
    Takes depth' r text after a :=
  fun c hc hdepth => h c hc (hle.trans hdepth)

theorem pure (a : α) (after : List UInt8) : Takes depth (pure a) [] after a :=
  of_spans (.pure a _)

theorem bind (hr : Takes depth r text (text' ++ after) a) (hf : Takes depth (f a) text' after b) :
    Takes depth (r >>= f) (text ++ text') after b := by
  intro c hc hdepth
  rw [List.append_assoc] at hc
  have hrest : (c.advanceBy text.length).rest = text' ++ after := by
    rw [Cursor.rest_advanceBy, hc, List.drop_left]
  have hdepth' : depth ≤ (c.advanceBy text.length).depth := by rwa [Cursor.depth_advanceBy]
  rw [bind_of_ok (hr c hc hdepth), hf _ hrest hdepth', List.length_append, Cursor.advanceBy_add]

/-- What is made of a value takes no bytes. -/
theorem map (hr : Takes depth r text after a) (g : α → β) :
    Takes depth (r >>= fun a => Pure.pure (g a)) text after (g a) := by
  have h : Takes depth (r >>= fun a => Pure.pure (g a)) (text ++ []) after (g a) :=
    hr.bind (pure (g a) after)
  rwa [List.append_nil] at h

/-- Bytes in front of the text are passed first. -/
theorem pass (front : List UInt8) (hr : Spans r (front ++ (text ++ after)) front.length a)
    (hf : Takes depth (f a) text after b) : Takes depth (r >>= f) (front ++ text) after b :=
  bind (of_spans hr) hf

/-- A look takes no bytes. -/
theorem look (hr : Spans r (text ++ after) 0 a) (hf : Takes depth (f a) text after b) :
    Takes depth (r >>= f) text after b :=
  pass [] hr hf

/-- What stands between brackets is taken one bracket deeper. -/
theorem bracketed {contents : Reader α} {close : Reader Unit} (opening : UInt8) {closing : UInt8}
    (hcontents : Takes depth contents text (closing :: after) a)
    (hclose : ∀ c : Cursor, c.rest = closing :: after → close c = .ok () c.advance) :
    Takes (depth + 1) (bracketed contents close) (opening :: (text ++ [closing])) after a := by
  intro c hc hdepth
  rw [List.cons_append, List.append_assoc] at hc
  obtain ⟨inner, hinner⟩ : ∃ inner, c.depth = inner + 1 := ⟨c.depth - 1, by omega⟩
  have hrest : (c.advance.atDepth inner).rest = text ++ closing :: after := by
    rw [Cursor.rest_atDepth, Cursor.rest_advance, hc]
    rfl
  have hlast : ((c.advance.atDepth inner).advanceBy text.length).atDepth
      (((c.advance.atDepth inner).advanceBy text.length).depth + 1) =
        c.advance.advanceBy text.length := by
    rw [Cursor.depth_advanceBy, Cursor.advanceBy_atDepth, Cursor.atDepth_atDepth]
    apply Cursor.atDepth_of_eq
    rw [Cursor.depth_advanceBy, Cursor.depth_advance, hinner]
    rfl
  have hbehind : (c.advance.advanceBy text.length).rest = closing :: after := by
    rw [Cursor.rest_advanceBy, Cursor.rest_advance, hc, List.tail_cons, List.drop_left]
    rfl
  have hpassed : (c.advance.advanceBy text.length).advance =
      c.advanceBy (opening :: (text ++ [closing])).length := by
    rw [List.length_cons, List.length_append, Nat.add_comm, Cursor.advanceBy_add,
      Cursor.advanceBy_add]
    rfl
  have hinside : depth ≤ inner := by omega
  apply bracketed_eq_ok.mpr
  refine ⟨inner, _, hinner, hcontents _ hrest hinside, ?_⟩
  rw [hlast, hclose _ hbehind, hpassed]

end Takes

/-! ## Between values -/

/-- In front of a byte that is no blank nothing is passed. -/
theorem pastBlanks_of_rest {c : Cursor} {b : UInt8} {rest : List UInt8} (hc : c.rest = b :: rest)
    (hb : isJsonBlank b = false) : c.pastBlanks = c ∧ (unblanked c.rest).head? = some b := by
  have hnone : blanks c.rest = 0 := by
    rw [hc, blanks, List.takeWhile_cons, hb]
    rfl
  constructor
  · change c.advanceBy (blanks c.rest) = c
    rw [hnone]
    rfl
  · rw [hc, unblanked, List.dropWhile_cons, hb]
    rfl

theorem spans_next? {b : UInt8} (rest : List UInt8) (hb : isJsonBlank b = false) :
    Spans next? (b :: rest) 0 (some b) := by
  intro c hc
  obtain ⟨hsame, hhead⟩ := pastBlanks_of_rest hc hb
  rw [next?_run, hsame, hhead]
  rfl

theorem endList_of_rest {c : Cursor} (hc : c.rest = 93 :: after) :
    endList c = .ok () c.advance := by
  obtain ⟨hsame, hhead⟩ := pastBlanks_of_rest hc rfl
  exact endList_eq_ok.mpr ⟨hhead, by rw [hsame]⟩

theorem endObject_of_rest {c : Cursor} (hc : c.rest = 125 :: after) :
    endObject c = .ok () c.advance := by
  obtain ⟨hsame, hhead⟩ := pastBlanks_of_rest hc rfl
  exact endObject_eq_ok.mpr ⟨hhead, by rw [hsame]⟩

/-- The text begins neither with a blank nor with the end of a list. -/
def BeginsItem (text : List UInt8) : Prop :=
  ∃ b rest, text = b :: rest ∧ isJsonBlank b = false ∧ b ≠ 93

theorem spans_nextItem_end (isFirst : Bool) (after : List UInt8) :
    Spans (nextItem isFirst) (93 :: after) 0 false :=
  (spans_next? after rfl).bind (m := 0) (.pure _ _)

theorem spans_nextItem_front {text : List UInt8} (h : BeginsItem text) :
    Spans (nextItem true) text 0 true := by
  obtain ⟨b, rest, rfl, hb, hend⟩ := h
  refine (spans_next? rest hb).bind (m := 0) ?_
  split
  · next hnone => cases hnone
  · next hclose => exact absurd (Option.some.inj hclose) hend
  · exact .pure _ _

theorem spans_nextItem_comma {text : List UInt8} (h : BeginsItem text) :
    Spans (nextItem false) (44 :: text) 1 true := by
  obtain ⟨b, rest, rfl, hb, hend⟩ := h
  refine (spans_next? (b :: rest) rfl).bind (m := 1) ?_
  refine (Spans.skip _).bind (m := 0) ((spans_next? rest hb).bind (m := 0) ?_)
  split
  · next hnone => cases hnone
  · next hclose => exact absurd (Option.some.inj hclose) hend
  · exact .pure _ _

theorem spans_nextName_end (isFirst : Bool) (after : List UInt8) :
    Spans (nextName isFirst) (125 :: after) 0 false :=
  (spans_next? after rfl).bind (m := 0) (.pure _ _)

theorem spans_nextName_front (rest : List UInt8) : Spans (nextName true) (34 :: rest) 1 true :=
  (spans_next? rest rfl).bind (m := 1) ((Spans.skip _).bind (m := 0) (.pure _ _))

theorem spans_nextName_comma (rest : List UInt8) :
    Spans (nextName false) (44 :: 34 :: rest) 2 true := by
  refine (spans_next? (34 :: rest) rfl).bind (m := 2) ?_
  refine (Spans.skip _).bind (m := 1) ((spans_next? rest rfl).bind (m := 1) ?_)
  exact (Spans.skip _).bind (m := 0) (.pure _ _)

theorem spans_colon (rest : List UInt8) : Spans colon (58 :: rest) 1 () :=
  (spans_next? rest rfl).bind (m := 1) (.skip _)

/-! ## Lists and objects -/

/-- The reader takes the text of the value as its document, wherever a value ends. -/
structure ReadBy (depth : Nat) (r : Reader Document) (value : Json) : Prop where
  takes : ∀ after, EndsValue after → Takes depth r value.renderBytes after value.toDocument
  begins : BeginsItem value.renderBytes

theorem BeginsItem.append {text : List UInt8} (h : BeginsItem text) (after : List UInt8) :
    BeginsItem (text ++ after) := by
  obtain ⟨b, rest, rfl, hb, hend⟩ := h
  exact ⟨b, rest ++ after, rfl, hb, hend⟩

/-- Behind a value the next one begins with a comma, or the bracket is closed. -/
theorem endsValue_separator (pieces : List (List UInt8)) {closing : UInt8}
    (hclosing : closing = 93 ∨ closing = 125) (after : List UInt8) :
    EndsValue (pieces.flatMap (44 :: ·) ++ closing :: after) := by
  intro b hb
  cases pieces with
  | nil =>
      obtain rfl := Option.some.inj hb
      exact .inr hclosing
  | cons piece rest =>
      obtain rfl := Option.some.inj hb
      exact .inl rfl

theorem length_le_length_commas (pieces : List (List UInt8)) :
    pieces.length ≤ (pieces.flatMap (44 :: ·)).length := by
  induction pieces with
  | nil => exact le_rfl
  | cons piece rest ih =>
      rw [List.flatMap_cons, List.length_append, List.length_cons, List.length_cons]
      omega

/-- The bytes of separated pieces bound how many they are. -/
theorem length_separated (pieces : List (List UInt8)) :
    pieces.length ≤ (separated pieces).length + 1 := by
  cases pieces with
  | nil => exact Nat.zero_le _
  | cons piece rest =>
      have hrest := length_le_length_commas rest
      rw [separated, List.length_append, List.length_cons]
      omega

section

variable {r : Reader Document} {fuel : Nat}

/-- An item and those behind it. -/
theorem takes_item_then {value : Json} {rest : List Json} (hvalue : ReadBy depth r value)
    (hrest : Takes depth (itemsFrom r fuel false) ((rest.map renderBytes).flatMap (44 :: ·))
      (93 :: after) (rest.map toDocument)) :
    Takes depth (do return (← r) :: (← itemsFrom r fuel false))
      (value.renderBytes ++ (rest.map renderBytes).flatMap (44 :: ·)) (93 :: after)
      ((value :: rest).map toDocument) := by
  apply Takes.bind
  · apply hvalue.takes
    exact endsValue_separator (rest.map renderBytes) (.inl rfl) after
  · exact hrest.map fun others => value.toDocument :: others

theorem takes_itemsFrom {values : List Json} (hvalues : ∀ value ∈ values, ReadBy depth r value)
    (hfuel : values.length < fuel) (after : List UInt8) :
    Takes depth (itemsFrom r fuel false) ((values.map renderBytes).flatMap (44 :: ·))
      (93 :: after) (values.map toDocument) := by
  induction values generalizing fuel with
  | nil =>
      obtain ⟨fuel, rfl⟩ := Nat.exists_eq_succ_of_ne_zero (Nat.ne_of_gt hfuel)
      exact .look (spans_nextItem_end false after) (.pure _ _)
  | cons value rest ih =>
      obtain ⟨fuel, rfl⟩ := Nat.exists_eq_succ_of_ne_zero (Nat.ne_zero_of_lt hfuel)
      obtain ⟨hvalue, hrest⟩ := List.forall_mem_cons.mp hvalues
      have hitems := takes_item_then hvalue (ih hrest (Nat.lt_of_succ_lt_succ hfuel))
      have hcomma := spans_nextItem_comma
        (hvalue.begins.append ((rest.map renderBytes).flatMap (44 :: ·) ++ 93 :: after))
      rw [← List.append_assoc] at hcomma
      exact .pass [44] hcomma hitems

theorem takes_items {values : List Json} (hvalues : ∀ value ∈ values, ReadBy depth r value)
    (after : List UInt8) :
    Takes depth (items r) (separated (values.map renderBytes)) (93 :: after)
      (values.map toDocument) := by
  intro c hc hdepth
  have hlength := length_separated (values.map renderBytes)
  have hrest := congrArg List.length hc
  rw [List.length_map] at hlength
  rw [List.length_append] at hrest
  -- The fuel comes from the bytes that are left, so it is known only here.
  suffices htakes : Takes depth (itemsFrom r (c.rest.length + 2) true)
      (separated (values.map renderBytes)) (93 :: after) (values.map toDocument) from
    htakes c hc hdepth
  cases values with
  | nil => exact .look (spans_nextItem_end true after) (.pure _ _)
  | cons value rest =>
      obtain ⟨hvalue, hrest'⟩ := List.forall_mem_cons.mp hvalues
      have hfuel : rest.length < c.rest.length + 1 := by
        rw [List.length_cons] at hlength
        omega
      have hitems := takes_item_then hvalue (takes_itemsFrom hrest' hfuel after)
      have hfront := spans_nextItem_front
        (hvalue.begins.append ((rest.map renderBytes).flatMap (44 :: ·) ++ 93 :: after))
      rw [← List.append_assoc] at hfront
      exact .look hfront hitems

/-- A member is read from behind the opening quote of its name. -/
theorem takes_entry (name : String) {value : Json} (hvalue : ReadBy depth r value)
    (before : List (String × Document)) (hafter : EndsValue after) :
    Takes depth (entry r before) (quotedRest name ++ 58 :: value.renderBytes) after
      ((name, value.toDocument) :: before) := by
  apply Takes.bind
  · exact .of_spans (spans_quoted name _)
  · apply Takes.pass [58]
    · exact spans_colon _
    · exact (hvalue.takes after hafter).map _

theorem takes_membersFrom {members : List (String × Json)}
    (hvalues : ∀ member ∈ members, ReadBy depth r member.2) (hfuel : members.length < fuel)
    (before : List (String × Document)) (after : List UInt8) :
    Takes depth (membersFrom (entry r) fuel false before)
      ((members.map memberBytes).flatMap (44 :: ·)) (125 :: after)
      ((toEntries members).reverse ++ before) := by
  induction members generalizing fuel before with
  | nil =>
      obtain ⟨fuel, rfl⟩ := Nat.exists_eq_succ_of_ne_zero (Nat.ne_of_gt hfuel)
      exact .look (spans_nextName_end false after) (.pure _ _)
  | cons member rest ih =>
      obtain ⟨name, value⟩ := member
      obtain ⟨fuel, rfl⟩ := Nat.exists_eq_succ_of_ne_zero (Nat.ne_zero_of_lt hfuel)
      obtain ⟨hvalue, hrest⟩ := List.forall_mem_cons.mp hvalues
      have hends := endsValue_separator (rest.map memberBytes) (.inr rfl) after
      have hmembers := (takes_entry name hvalue before hends).bind
        (f := membersFrom (entry r) fuel false) (ih hrest (Nat.lt_of_succ_lt_succ hfuel) _)
      rw [toEntries, List.reverse_cons, List.append_assoc]
      exact .pass [44, 34] (spans_nextName_comma _) hmembers

theorem takes_entriesOf {members : List (String × Json)}
    (hvalues : ∀ member ∈ members, ReadBy depth r member.2) (after : List UInt8) :
    Takes depth (entriesOf r) (separated (members.map memberBytes)) (125 :: after)
      (toEntries members) := by
  suffices htakes : Takes depth (Reader.members (entry r) []) (separated (members.map memberBytes))
      (125 :: after) (toEntries members).reverse by
    have hreversed := htakes.map List.reverse
    rwa [List.reverse_reverse] at hreversed
  intro c hc hdepth
  have hlength := length_separated (members.map memberBytes)
  have hrest := congrArg List.length hc
  rw [List.length_map] at hlength
  rw [List.length_append] at hrest
  suffices htakes : Takes depth (membersFrom (entry r) (c.rest.length + 2) true [])
      (separated (members.map memberBytes)) (125 :: after) (toEntries members).reverse from
    htakes c hc hdepth
  cases members with
  | nil => exact .look (spans_nextName_end true after) (.pure _ _)
  | cons member rest =>
      obtain ⟨name, value⟩ := member
      obtain ⟨hvalue, hrest'⟩ := List.forall_mem_cons.mp hvalues
      have hends := endsValue_separator (rest.map memberBytes) (.inr rfl) after
      have hfuel : rest.length < c.rest.length + 1 := by
        rw [List.length_cons] at hlength
        omega
      have hmembers := (takes_entry name hvalue [] hends).bind
        (f := membersFrom (entry r) (c.rest.length + 1) false)
        (takes_membersFrom hrest' hfuel _ after)
      rw [toEntries, List.reverse_cons]
      exact .pass [34] (spans_nextName_front _) hmembers

end

/-! ## Values -/

theorem spans_word (w after : List UInt8) : Spans (word w) (w ++ after) w.length () := by
  induction w with
  | nil => exact .pure _ _
  | cons b rest ih =>
      rw [List.length_cons, Nat.add_comm]
      refine .ahead rfl (.bind (.skip _) ?_)
      rw [if_pos rfl]
      exact ih

theorem spans_first {b : UInt8} (rest : List UInt8) (hb : isJsonBlank b = false) :
    Spans first (b :: rest) 0 b :=
  (spans_next? rest hb).bind (m := 0) (.pure _ _)

/-- A value without parts is told from a list and an object by its first byte. -/
theorem readBy_of_scalar {value : Json} {b : UInt8} {rest : List UInt8} (levels : Nat)
    (hbytes : value.renderBytes = b :: rest) (hb : b ∉ [9, 10, 13, 32, 91, 93, 123])
    (hscalar : ∀ after, EndsValue after →
      Spans scalar (value.renderBytes ++ after) value.renderBytes.length value.toDocument) :
    ReadBy 0 (documentWithin (levels + 1)) value := by
  simp only [List.mem_cons, List.not_mem_nil, or_false, not_or] at hb
  obtain ⟨htab, hfeed, hreturn, hblank, hlist, hend, hobject⟩ := hb
  have hunblank : isJsonBlank b = false := by
    simp [isJsonBlank, htab, hfeed, hreturn, hblank]
  constructor
  case begins => exact ⟨b, rest, hbytes, hunblank, hend⟩
  case takes =>
    intro after hafter
    have hfirst := spans_first (rest ++ after) hunblank
    rw [← List.cons_append, ← hbytes] at hfirst
    apply Takes.look hfirst
    split
    · next h => exact absurd rfl hlist
    · next h => exact absurd rfl hobject
    · exact .of_spans (hscalar after hafter)

theorem readBy_null (levels : Nat) : ReadBy 0 (documentWithin (levels + 1)) null := by
  apply readBy_of_scalar levels rfl (by decide)
  intro after _
  exact .ahead rfl (.bind (m := 0) (spans_word [110, 117, 108, 108] after) (.pure _ _))

theorem readBy_bool (b : Bool) (levels : Nat) :
    ReadBy 0 (documentWithin (levels + 1)) (bool b) := by
  cases b with
  | true =>
      apply readBy_of_scalar levels rfl (by decide)
      intro after _
      exact .ahead rfl (.bind (m := 0) (spans_word [116, 114, 117, 101] after) (.pure _ _))
  | false =>
      apply readBy_of_scalar levels rfl (by decide)
      intro after _
      exact .ahead rfl (.bind (m := 0) (spans_word [102, 97, 108, 115, 101] after) (.pure _ _))

theorem readBy_str (s : String) (levels : Nat) :
    ReadBy 0 (documentWithin (levels + 1)) (str s) := by
  apply readBy_of_scalar levels (renderBytes_str s) (by decide)
  intro after _
  rw [renderBytes_str, List.length_cons, Nat.add_comm]
  refine .ahead rfl (.bind (.skip _) (.bind (m := 0) (spans_quoted s after) (.pure _ _)))

/-- A number that does not begin with its sign is read as one. -/
theorem spans_scalar_decimal {n : Nat} (h : Fits true n) (hafter : EndsValue after) :
    Spans scalar (decimal n ++ after) (decimal n).length (.int n) := by
  obtain ⟨b, rest, hdecimal, hdigit⟩ := decimal_begins n
  have hhead : (decimal n ++ after).head? = some b := by
    rw [hdecimal]
    rfl
  have hnot {other : UInt8} (hother : isDigit other = false) (heq : some b = some other) :
      False := by
    rw [Option.some.inj heq, hother] at hdigit
    exact Bool.false_ne_true hdigit
  refine .ahead hhead ?_
  split
  case h_6 b' _ _ _ _ _ heq =>
    obtain rfl := Option.some.inj heq
    rw [if_pos hdigit]
    exact spans_number h hafter
  case h_7 heq => cases heq
  all_goals exact (hnot rfl ‹_›).elim

theorem readBy_int (i : Int) (h : intInRange i = true) (levels : Nat) :
    ReadBy 0 (documentWithin (levels + 1)) (int i) := by
  obtain ⟨hlow, hhigh⟩ := of_decide_eq_true h
  cases i with
  | ofNat n =>
      have hfits : Fits true n :=
        Nat.le_sub_one_of_lt (Int.ofNat_lt.mp hhigh)
      obtain ⟨b, rest, hdecimal, hdigit⟩ := decimal_begins n
      apply readBy_of_scalar levels ((renderBytes_ofNat n).trans hdecimal)
      · intro hb
        simp only [List.mem_cons, List.not_mem_nil, or_false] at hb
        obtain rfl | rfl | rfl | rfl | rfl | rfl | rfl := hb <;> cases hdigit
      · intro after hafter
        rw [renderBytes_ofNat]
        exact spans_scalar_decimal hfits hafter
  | negSucc n =>
      have hfits : Fits false (n + 1) := by
        refine ⟨Nat.succ_pos n, ?_⟩
        have hneg : -((Nat.pow 2 63 : Nat) : Int) ≤ -((n + 1 : Nat) : Int) := hlow
        omega
      apply readBy_of_scalar levels (renderBytes_negSucc n) (by decide)
      intro after hafter
      rw [renderBytes_negSucc, List.length_cons, Nat.add_comm (decimal (n + 1)).length]
      exact .ahead rfl (.bind (.skip _) (spans_number hfits hafter))

theorem ReadBy.mono {r : Reader Document} {value : Json} {depth' : Nat}
    (h : ReadBy depth r value) (hle : depth ≤ depth') : ReadBy depth' r value :=
  ⟨fun after hafter => (h.takes after hafter).mono hle, h.begins⟩

theorem readBy_arr {items : List Json}
    (hitems : ∀ item ∈ items, ReadBy depth (documentWithin levels) item) :
    ReadBy (depth + 1) (documentWithin (levels + 1)) (arr items) := by
  constructor
  case begins => exact ⟨91, _, renderBytes_arr items, rfl, by decide⟩
  case takes =>
    intro after _
    have htakes := (takes_items hitems after).bracketed 91 fun _ => endList_of_rest
    rw [renderBytes_arr, toDocument, toDocuments_eq_map]
    exact .look (spans_first _ rfl) (htakes.map Document.list)

theorem readBy_obj {members : List (String × Json)}
    (hmembers : ∀ member ∈ members, ReadBy depth (documentWithin levels) member.2) :
    ReadBy (depth + 1) (documentWithin (levels + 1)) (obj members) := by
  constructor
  case begins => exact ⟨123, _, renderBytes_obj members, rfl, by decide⟩
  case takes =>
    intro after _
    have htakes := (takes_entriesOf hmembers after).bracketed 123 fun _ => endObject_of_rest
    rw [renderBytes_obj, toDocument]
    exact .look (spans_first _ rfl) (htakes.map Document.table)

/-- An exact value is read from its text as its document, if its brackets may be opened. -/
theorem readBy_documentWithin (value : Json) (h : value.isExact = true)
    (hlevels : value.nesting ≤ levels) :
    ReadBy value.nesting (documentWithin (levels + 1)) value := by
  induction value using Json.induction generalizing levels with
  | null => exact readBy_null levels
  | bool b => exact readBy_bool b levels
  | int i => exact readBy_int i h levels
  | float x => cases h
  | str s => exact readBy_str s levels
  -- The parts have one level less, and as many brackets to open as the deepest of them needs.
  | arr items ih =>
      obtain ⟨levels, rfl⟩ := Nat.exists_eq_succ_of_ne_zero (Nat.ne_zero_of_lt hlevels)
      have hle := itemsNesting_le_iff.mp (Nat.le_of_succ_le_succ hlevels)
      apply readBy_arr
      intro item hitem
      exact (ih item hitem (isExact_arr_iff.mp h item hitem) (hle item hitem)).mono
        (itemsNesting_le_iff.mp le_rfl item hitem)
  | obj members ih =>
      obtain ⟨levels, rfl⟩ := Nat.exists_eq_succ_of_ne_zero (Nat.ne_zero_of_lt hlevels)
      have hle := membersNesting_le_iff.mp (Nat.le_of_succ_le_succ hlevels)
      apply readBy_obj
      intro member hmember
      exact (ih member hmember ((isExact_obj_iff.mp h).2 member hmember) (hle member hmember)).mono
        (membersNesting_le_iff.mp le_rfl member hmember)

end Reader

/-- The bytes of an exact value hold its document. -/
theorem document_renderBytes (value : Json) (h : value.isExact = true)
    (hnesting : value.nesting ≤ maxDepth) :
    Reader.document.run value.renderBytes = .ok value.toDocument := by
  have htakes := (Reader.readBy_documentWithin value h hnesting).takes [] (by nofun)
  have hdocument := htakes (Cursor.start value.renderBytes) (List.append_nil _).symm hnesting
  refine Reader.run_eq_ok.mpr ⟨_, hdocument, ?_⟩
  rw [Cursor.rest_advanceBy]
  change (unblanked (value.renderBytes.drop value.renderBytes.length)).head? = none
  rw [List.drop_length]
  rfl

/-- An exact value is read from its bytes. -/
theorem read_renderBytes (value : Json) (h : value.isExact = true)
    (hnesting : value.nesting ≤ maxDepth) : read value.renderBytes = .ok value := by
  obtain ⟨last, hdocument, hend⟩ := Reader.run_eq_ok.mp (document_renderBytes value h hnesting)
  refine Reader.run_eq_ok.mpr ⟨last, ?_, hend⟩
  refine Reader.bind_eq_ok.mpr ⟨value.toDocument, last, hdocument, ?_⟩
  rw [toJson_toDocument value h]
  rfl

theorem encode_render (value : Json) : Text.Utf8.encode value.render = value.renderBytes := by
  rw [render, Text.Utf8.encode_eq, String.toList_ofList, renderBytes_eq]

/-- An exact value is read from its text. -/
theorem readText_render (value : Json) (h : value.isExact = true)
    (hnesting : value.nesting ≤ maxDepth) : readText value.render = .ok value := by
  rw [readText, encode_render]
  exact read_renderBytes value h hnesting

end Gatehouse.Json

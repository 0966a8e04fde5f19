import Gatehouse.Proofs.Arguments.Parsing

/-!
# Two ways to post a call

A call may be posted as a form, its positional arguments as the text of a list, or as an object, its
positional arguments as a list.  Both are dispatched to the same method with the same arguments, and
whether a pair of the form stands in the query or in the body makes no difference.
-/

namespace Gatehouse.Arguments

open Request

/-- The texts are a table of names other than those of the method and the positional arguments. -/
structure AreKeywords (texts : List (String × String)) : Prop where
  nodup : (texts.map Prod.fst).Nodup
  method : methodName ∉ texts.map Prod.fst
  args : argsName ∉ texts.map Prod.fst

def callFields (method : String) (args : List Json) (texts : List (String × String)) :
    List (String × String) :=
  (methodName, method) :: (argsName, (Json.arr args).render) :: texts

def callPairs (method : String) (args : Json) (texts : List (String × String)) :
    List (String × Json) :=
  (methodName, .str method) :: (argsName, args) :: asTexts texts

def callObject (method : String) (args : List Json) (texts : List (String × String)) :
    Json.Object :=
  Table.ofList (callPairs method (.arr args) texts)

/-- Whether the texts ask for a body without encoding. -/
def askRaw (texts : List (String × String)) : Bool :=
  rawContent ⟨"", Table.ofList (asTexts texts)⟩

/-- The arguments are dispatched to the method, with these positional arguments and those texts as
keyword arguments that are not reserved. -/
structure Call (a : Arguments) (method : String) (args : List Json)
    (texts : List (String × String)) : Prop where
  method : a.defaultMethod = .ok method
  arguments : a.defaultArguments =
    .ok (args, Table.ofList (asTexts (texts.filter fun pair => !reserved.contains pair.1)))
  raw : a.rawContent = askRaw texts

section

variable {method : String} {args : Json} {texts : List (String × String)}

theorem names_asTexts (texts : List (String × String)) :
    (asTexts texts).map Prod.fst = texts.map Prod.fst :=
  List.map_map

theorem AreKeywords.nodup_callPairs (h : AreKeywords texts) (method : String) (args : Json) :
    ((callPairs method args texts).map Prod.fst).Nodup := by
  have hdistinct : methodName ≠ argsName := by decide
  rw [callPairs, List.map_cons, List.map_cons, names_asTexts, List.nodup_cons, List.nodup_cons,
    List.mem_cons, not_or]
  exact ⟨⟨hdistinct, h.method⟩, h.args, h.nodup⟩

/-- Other names are bound as the texts bind them. -/
theorem get?_callPairs_of_ne (h : AreKeywords texts) (method : String) (args : Json) {name : String}
    (hmethod : name ≠ methodName) (hargs : name ≠ argsName) :
    Table.get? name (Table.ofList (callPairs method args texts)) =
      Table.get? name (Table.ofList (asTexts texts)) := by
  have hnodup : ((asTexts texts).map Prod.fst).Nodup := names_asTexts texts ▸ h.nodup
  apply Option.ext
  intro value
  rw [Table.get?_ofList_of_nodup (h.nodup_callPairs method args),
    Table.get?_ofList_of_nodup hnodup, callPairs, List.mem_cons, List.mem_cons]
  simp [hmethod, hargs]

theorem keywords_callPairs (h : AreKeywords texts) (path : String) :
    keywords ⟨path, Table.ofList (callPairs method args texts)⟩ =
      Table.ofList (asTexts (texts.filter fun pair => !reserved.contains pair.1)) := by
  have hkept : (callPairs method args texts).filter (fun pair => !reserved.contains pair.1) =
      asTexts (texts.filter fun pair => !reserved.contains pair.1) := by
    rw [callPairs, List.filter_cons_of_neg (by simp [reserved]),
      List.filter_cons_of_neg (by simp [reserved]), asTexts, asTexts, List.filter_map]
    rfl
  rw [← hkept]
  exact Table.filter_ofList (h.nodup_callPairs method args) fun name => !reserved.contains name

theorem call_of_positional (h : AreKeywords texts) {path : String} {items : List Json}
    (hargs : positional ⟨path, Table.ofList (callPairs method args texts)⟩ = .ok items) :
    Call ⟨path, Table.ofList (callPairs method args texts)⟩ method items texts where
  method := by
    have hfound : get? ⟨path, Table.ofList (callPairs method args texts)⟩ methodName =
        some (.str method) :=
      (Table.get?_ofList_of_nodup (h.nodup_callPairs method args)).mpr List.mem_cons_self
    rw [defaultMethod, text?, hfound]
    rfl
  arguments := by
    rw [defaultArguments, hargs, keywords_callPairs h]
    rfl
  raw := by
    have hmethod : rawContentName ≠ methodName := by decide
    have hargs : rawContentName ≠ argsName := by decide
    rw [askRaw, rawContent, rawContent, get?, get?, get?_callPairs_of_ne h method args hmethod hargs]

end

section

variable {path target method : String} {args : List Json} {texts : List (String × String)}

theorem get?_args (h : AreKeywords texts) (path method : String) (args : Json) :
    get? ⟨path, Table.ofList (callPairs method args texts)⟩ argsName = some args :=
  (Table.get?_ofList_of_nodup (h.nodup_callPairs method args)).mpr
    (List.mem_cons_of_mem _ List.mem_cons_self)

theorem call_of_list (h : AreKeywords texts) :
    Call ⟨path, callObject method args texts⟩ method args texts := by
  apply call_of_positional h
  rw [positional, get?_args h]

theorem call_of_text (h : AreKeywords texts) (hexact : (Json.arr args).isExact = true)
    (hnesting : (Json.arr args).nesting ≤ Json.maxDepth) :
    Call ⟨path, Table.ofList (asTexts (callFields method args texts))⟩ method args texts := by
  have hargs : positional
      ⟨path, Table.ofList (callPairs method (.str (Json.arr args).render) texts)⟩ = .ok args := by
    rw [positional, get?_args h]
    dsimp only
    rw [Json.readText_render _ hexact hnesting]
  exact call_of_positional h hargs

/-- The object of a call can be sent if the list of its positional arguments is one level less
deep than what is read. -/
theorem postsObject_callObject (hexact : (Json.arr args).isExact = true)
    (hnesting : (Json.arr args).nesting < Json.maxDepth) :
    PostsObject (object target (callObject method args texts)) target
      (callObject method args texts) := by
  have hparts : ∀ member ∈ callObject method args texts,
      member.2.isExact = true ∧ member.2.nesting < Json.maxDepth := by
    intro member hmember
    have hpair := Table.mem_of_mem_ofList hmember
    rw [callPairs, List.mem_cons, List.mem_cons, asTexts, List.mem_map] at hpair
    have hpos : 0 < Json.maxDepth := by decide
    obtain rfl | rfl | ⟨text, -, rfl⟩ := hpair
    · exact ⟨rfl, hpos⟩
    · exact ⟨hexact, hnesting⟩
    · exact ⟨rfl, hpos⟩
  apply postsObject_object
  · apply Json.isExact_obj_iff.mpr
    exact ⟨Table.ordered_ofList _, fun member hmember => (hparts member hmember).1⟩
  · apply Nat.succ_le_of_lt
    apply Nat.lt_of_le_pred (by decide)
    apply Json.membersNesting_le_iff.mpr
    exact fun member hmember => Nat.le_pred_of_lt (hparts member hmember).2

/-- A call that is posted as a form is dispatched as the same call posted as an object, whichever
pairs of the form stand in the query and in whatever order. -/
theorem forms_and_objects_call_alike (path : String) (hpath : '?' ∉ path.toList) (method : String)
    (args : List Json) (hexact : (Json.arr args).isExact = true)
    (hnesting : (Json.arr args).nesting < Json.maxDepth) (texts : List (String × String))
    (htexts : AreKeywords texts) :
    (∀ (asked fields : List (String × String)) (target : String), Asks path asked target →
      (asked ++ fields).Perm (callFields method args texts) →
        ∃ a, parse (form target fields) = .ok a ∧ Call a method args texts) ∧
    (∀ (request : Request) (target : String), Asks path [] target →
      PostsObject request target (callObject method args texts) →
        ∃ a, parse request = .ok a ∧ Call a method args texts) ∧
    ∀ target, PostsObject (object target (callObject method args texts)) target
      (callObject method args texts) := by
  refine ⟨?_, ?_, fun target => postsObject_callObject hexact hnesting⟩
  · intro asked fields target htarget hperm
    -- No name occurs twice, so neither the place nor the order of a pair shows in the table.
    have hpairs : Table.ofList (asTexts (asked ++ fields)) =
        Table.ofList (asTexts (callFields method args texts)) := by
      apply Table.ofList_eq_of_perm (hperm.map _)
      apply ((hperm.map _).map Prod.fst).nodup_iff.mpr
      exact htexts.nodup_callPairs method _
    refine ⟨_, parse_form htarget hpath fields, ?_⟩
    rw [hpairs]
    exact call_of_text htexts hexact hnesting.le
  · intro request target htarget hposts
    refine ⟨_, parse_object htarget hpath hposts, ?_⟩
    have hobject : Table.ofList (asTexts [] ++ callObject method args texts) =
        callObject method args texts := (Table.ordered_ofList _).ofList_eq
    rw [hobject]
    exact call_of_list htexts

end

/-- A call with a nested list and a reserved text, its method and that text in the query. -/
theorem run_is_called_alike :
    let args := [.int 1, .arr [.str "é", .null]]
    let texts := [("rawContent", "1"), ("", "&=")]
    let asked := [("rawContent", "1"), (methodName, "run")]
    let fields := [(argsName, (Json.arr args).render), ("", "&=")]
    let target := "/" ++ "?" ++ Http.formText asked
    '?' ∉ "/".toList ∧ (Json.arr args).isExact = true ∧
      (Json.arr args).nesting < Json.maxDepth ∧ AreKeywords texts ∧ Asks "/" asked target ∧
      (asked ++ fields).Perm (callFields "run" args texts) ∧
      (∃ a, parse (form target fields) = .ok a ∧ Call a "run" args texts) ∧
      PostsObject (object "/" (callObject "run" args texts)) "/" (callObject "run" args texts) ∧
      ∃ a, parse (object "/" (callObject "run" args texts)) = .ok a ∧ Call a "run" args texts := by
  intro args texts asked fields target
  have hpath : '?' ∉ "/".toList := by decide
  have hexact : (Json.arr args).isExact = true := rfl
  have hnesting : (Json.arr args).nesting < Json.maxDepth := by decide
  have htexts : AreKeywords texts := ⟨by decide, by decide, by decide⟩
  have hperm : (asked ++ fields).Perm (callFields "run" args texts) := by
    apply List.Perm.trans (List.Perm.swap ..)
    apply List.Perm.cons
    exact List.Perm.swap ..
  obtain ⟨hforms, hobjects, hposts⟩ :=
    forms_and_objects_call_alike "/" hpath "run" args hexact hnesting texts htexts
  exact ⟨hpath, hexact, hnesting, htexts, .query asked, hperm,
    hforms asked fields target (.query asked) hperm, hposts "/", hobjects _ "/" .plain (hposts "/")⟩

end Gatehouse.Arguments

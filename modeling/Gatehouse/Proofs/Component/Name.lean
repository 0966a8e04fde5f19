import Gatehouse.Component.Name
import Gatehouse.Proofs.Text.Split
import Gatehouse.Proofs.Text.Upper

/-!
# What component names are read off

The path of a type is made of modules and the name of the type, which pairs of colons divide.  The
system is told by the innermost module that stands for one, and by nothing before or behind it; the
handler is told by the name of the type.  Whatever is written behind a `<` tells nothing.
-/

namespace Gatehouse.Component

/-! ## Paths without arguments -/

theorem basePath_append (cs arguments : List Char) :
    basePath (cs ++ '<' :: arguments) = basePath cs := by
  induction cs with
  | nil => rfl
  | cons c cs ih =>
      rw [basePath, basePath] at ih ⊢
      rw [List.cons_append, List.takeWhile_cons, List.takeWhile_cons, ih]

theorem basePath_of_not_mem {cs : List Char} (h : '<' ∉ cs) : basePath cs = cs := by
  rw [basePath, List.takeWhile_eq_self_iff]
  intro c hc
  rw [bne_iff_ne]
  rintro rfl
  exact h hc

/-- A path goes on with a `<` behind its base, if it goes on at all. -/
theorem exists_arguments (cs : List Char) :
    '<' ∉ basePath cs ∧ (cs = basePath cs ∨ ∃ arguments, cs = basePath cs ++ '<' :: arguments) := by
  constructor
  · intro hmem
    exact absurd (List.mem_takeWhile_imp hmem) (by decide)
  · have hcs : basePath cs ++ cs.dropWhile (· != '<') = cs := List.takeWhile_append_dropWhile
    have hstop := List.head?_dropWhile_not (· != '<') cs
    cases hrest : cs.dropWhile (· != '<') with
    | nil =>
        rw [hrest, List.append_nil] at hcs
        exact .inl hcs.symm
    | cons c arguments =>
        rw [hrest] at hcs hstop
        have hc : c = '<' := by simpa using hstop
        exact .inr ⟨arguments, by rw [← hc, hcs]⟩

/-! ## Segments -/

/-- A text is divided into segments: there is a pair of colons between one and the next, and none
within a segment.  Of more colons in a row the first two are the pair. -/
inductive Divides : List Char → List (List Char) → Prop where
  | last {segment : List Char} (hwhole : ¬ [':', ':'] <:+: segment) : Divides segment [segment]
  | next {segment rest : List Char} {more : List (List Char)}
      (hwhole : ¬ [':', ':'] <:+: segment) (hend : segment.getLast? ≠ some ':')
      (h : Divides rest more) : Divides (segment ++ ':' :: ':' :: rest) (segment :: more)

theorem segments_ne_nil (cs : List Char) : segments cs ≠ [] := by
  fun_cases segments cs <;> exact List.cons_ne_nil _ _

/-- A character in front of a text is part of its first segment, unless it makes a pair. -/
theorem segments_cons {c : Char} {cs : List Char} (h : c = ':' → cs.head? ≠ some ':') :
    segments (c :: cs) = (segments cs).modifyHead (c :: ·) := by
  have hpair : ∀ rest, c = ':' → cs = ':' :: rest → False := by
    rintro rest hc rfl
    exact h hc rfl
  rw [segments.eq_3 c cs hpair]
  cases hcs : segments cs with
  | nil => exact absurd hcs (segments_ne_nil cs)
  | cons segment more => rfl

/-- No pair of colons is in a text if its first character makes none and there is none behind. -/
theorem whole_cons_iff {c : Char} {segment : List Char} :
    ¬ [':', ':'] <:+: c :: segment ↔
      (c = ':' → segment.head? ≠ some ':') ∧ ¬ [':', ':'] <:+: segment := by
  have hprefix : [':', ':'] <+: c :: segment ↔ c = ':' ∧ segment.head? = some ':' := by
    rw [List.cons_prefix_cons, List.head?_eq_some_iff, eq_comm]
    exact and_congr_right fun _ => exists_congr fun _ => eq_comm
  rw [List.infix_cons_iff, not_or, hprefix, not_and]

theorem segments_of_whole {segment : List Char} (h : ¬ [':', ':'] <:+: segment) :
    segments segment = [segment] := by
  induction segment with
  | nil => rfl
  | cons c segment ih =>
      obtain ⟨hpair, hwhole⟩ := whole_cons_iff.mp h
      rw [segments_cons hpair, ih hwhole, List.modifyHead_cons]

theorem segments_append {segment : List Char} (hwhole : ¬ [':', ':'] <:+: segment)
    (hend : segment.getLast? ≠ some ':') (rest : List Char) :
    segments (segment ++ ':' :: ':' :: rest) = segment :: segments rest := by
  induction segment with
  | nil => rfl
  | cons c segment ih =>
      obtain ⟨hpair, hwhole'⟩ := whole_cons_iff.mp hwhole
      cases segment with
      | nil =>
          have hc : c ≠ ':' := by
            rintro rfl
            exact hend rfl
          have hrest := ih hwhole' (by simp)
          rw [List.cons_append, segments_cons fun h => absurd h hc, hrest, List.modifyHead_cons]
      | cons d segment =>
          rw [List.getLast?_cons_cons] at hend
          have hpair' : c = ':' → (d :: segment ++ ':' :: ':' :: rest).head? ≠ some ':' := hpair
          rw [List.cons_append, segments_cons hpair', ih hwhole' hend, List.modifyHead_cons]

theorem Divides.cons {c : Char} {cs segment : List Char} {more : List (List Char)}
    (hpair : c = ':' → cs.head? ≠ some ':') (h : Divides cs (segment :: more)) :
    Divides (c :: cs) ((c :: segment) :: more) := by
  cases h with
  | last hwhole => exact .last (whole_cons_iff.mpr ⟨hpair, hwhole⟩)
  | @next _ rest _ hwhole hend hrest =>
      cases segment with
      | nil =>
          have hc : c ≠ ':' := fun hc => hpair hc rfl
          have hwhole' := whole_cons_iff.mpr ⟨fun h => absurd h hc, hwhole⟩
          exact @Divides.next [c] rest more hwhole' (by simpa using hc) hrest
      | cons d segment =>
          have hend' : (c :: d :: segment).getLast? ≠ some ':' := by
            rwa [List.getLast?_cons_cons]
          have hpair' : c = ':' → (d :: segment).head? ≠ some ':' := hpair
          have hwhole' := whole_cons_iff.mpr ⟨hpair', hwhole⟩
          exact @Divides.next (c :: d :: segment) rest more hwhole' hend' hrest

theorem divides_segments (cs : List Char) : Divides cs (segments cs) := by
  fun_induction segments cs with
  | case1 => exact .last (by simp)
  | case2 rest ih => exact @Divides.next [] rest _ (by simp) (by simp) ih
  | case3 c rest _ hnone ih =>
      rw [hnone] at ih
      cases ih
  | case4 c rest hpair segment more hsegments ih =>
      rw [hsegments] at ih
      apply ih.cons
      intro hc hhead
      obtain ⟨behind, rfl⟩ := List.head?_eq_some_iff.mp hhead
      exact hpair behind hc rfl

/-- A text is divided in one way. -/
theorem segments_eq_iff {cs : List Char} {parts : List (List Char)} :
    segments cs = parts ↔ Divides cs parts := by
  constructor
  · rintro rfl
    exact divides_segments cs
  · intro h
    induction h with
    | last hwhole => exact segments_of_whole hwhole
    | next hwhole hend _ ih => rw [segments_append hwhole hend, ih]

/-! ## Modules and the name of the type -/

/-- A path leads through these modules, the outermost first, to a type of this name; what is
written behind a `<` is not part of the way. -/
def IsPathOf (path : String) (modules : List String) (name : String) : Prop :=
  ∃ base, Divides base ((modules ++ [name]).map String.toList) ∧ '<' ∉ base ∧
    (path.toList = base ∨ ∃ arguments, path.toList = base ++ '<' :: arguments)

theorem isPathOf_iff {path : String} {modules : List String} {name : String} :
    IsPathOf path modules name ↔
      Divides (basePath path.toList) ((modules ++ [name]).map String.toList) := by
  constructor
  · rintro ⟨base, hdivides, hplain, hpath⟩
    have hbase : basePath path.toList = base := by
      obtain hpath | ⟨arguments, hpath⟩ := hpath
      · rw [hpath, basePath_of_not_mem hplain]
      · rw [hpath, basePath_append, basePath_of_not_mem hplain]
    rwa [hbase]
  · intro hdivides
    obtain ⟨hplain, hpath⟩ := exists_arguments path.toList
    exact ⟨_, hdivides, hplain, hpath⟩

/-- Every text is a path. -/
theorem exists_isPathOf (path : String) : ∃ modules name, IsPathOf path modules name := by
  have hne := segments_ne_nil (basePath path.toList)
  obtain ⟨modules, name, hparts⟩ :
      ∃ modules name, segments (basePath path.toList) = modules ++ [name] :=
    ⟨_, _, (List.dropLast_append_getLast hne).symm⟩
  have htexts : (modules.map String.ofList ++ [String.ofList name]).map String.toList =
      modules ++ [name] := by
    rw [List.map_append, List.map_singleton, Text.map_toList_ofList, String.toList_ofList]
  refine ⟨modules.map String.ofList, String.ofList name, isPathOf_iff.mpr ?_⟩
  rw [htexts, ← hparts]
  exact divides_segments _

theorem IsPathOf.modulesOf_eq {path : String} {modules : List String} {name : String}
    (h : IsPathOf path modules name) : modulesOf path = modules.map String.toList := by
  have hsegments := segments_eq_iff.mpr (isPathOf_iff.mp h)
  rw [modulesOf, hsegments, List.map_append, List.map_singleton, List.dropLast_concat]

/-! ## Stems -/

theorem stem?_eq_some_iff {ending cs stem : List Char} :
    stem? ending cs = some stem ↔ cs = stem ++ ending ∧ stem ≠ [] := by
  rw [← Text.stripTail?_eq_some_iff, stem?]
  cases Text.stripTail? ending cs with
  | none => simp
  | some front =>
      cases front with
      | nil =>
          rw [Option.some_inj]
          exact iff_of_false (fun h => nomatch h) fun h => h.2 h.1.symm
      | cons c front =>
          rw [Option.some_inj]
          exact ⟨fun h => ⟨h, h ▸ List.cons_ne_nil c front⟩, fun h => h.1⟩

theorem stem?_toList_eq_some_iff {ending text stem : String} :
    stem? ending.toList text.toList = some stem.toList ↔ text = stem ++ ending ∧ stem ≠ "" := by
  rw [stem?_eq_some_iff, ← String.toList_append, String.toList_inj, ne_eq,
    String.toList_eq_nil_iff]

theorem stem?_toList_eq_none_iff {ending text : String} :
    stem? ending.toList text.toList = none ↔ ∀ stem, stem ≠ "" → text ≠ stem ++ ending := by
  rw [Option.eq_none_iff_forall_ne_some]
  constructor
  · intro hnone stem hstem htext
    exact hnone _ (stem?_toList_eq_some_iff.mpr ⟨htext, hstem⟩)
  · intro hnone stem hstem
    obtain ⟨stem, rfl⟩ : ∃ front : String, front.toList = stem :=
      ⟨String.ofList stem, String.toList_ofList⟩
    obtain ⟨htext, hnamed⟩ := stem?_toList_eq_some_iff.mp hstem
    exact hnone stem hnamed htext

/-! ## Systems -/

/-- A module stands for a system if it is called `…_system`, in whatever case; what is in front of
that is the stem, in small letters, and it is not empty. -/
structure StandsFor (module stem : String) : Prop where
  ending : Text.lowerAscii module = stem ++ "_system"
  named : stem ≠ ""

def IsSystem (module : String) : Prop := ∃ stem, StandsFor module stem

theorem systemStem?_toList (module : String) :
    systemStem? module.toList = stem? "_system".toList (Text.lowerAscii module).toList := by
  have hlower : (Text.lowerAscii module).toList = module.toList.map Char.toLower := by
    rw [Text.lowerAscii, String.toList_ofList]
  rw [hlower]
  rfl

theorem systemStem?_eq_some_iff {module stem : String} :
    systemStem? module.toList = some stem.toList ↔ StandsFor module stem := by
  rw [systemStem?_toList, stem?_toList_eq_some_iff]
  exact ⟨fun h => ⟨h.1, h.2⟩, fun h => ⟨h.ending, h.named⟩⟩

theorem systemStem?_eq_none_iff {module : String} :
    systemStem? module.toList = none ↔ ¬ IsSystem module := by
  rw [systemStem?_toList, stem?_toList_eq_none_iff]
  constructor
  · rintro hnone ⟨stem, hstem⟩
    exact hnone stem hstem.named hstem.ending
  · intro hnot stem hnamed hending
    exact hnot ⟨stem, hending, hnamed⟩

section

variable {path path' module stem name : String} {modules modules' outer inner : List String}

theorem findSome?_systemStem?_eq_none (h : ∀ module ∈ modules, ¬ IsSystem module) :
    (modules.map String.toList).reverse.findSome? systemStem? = none := by
  rw [List.findSome?_eq_none_iff]
  intro module hmodule
  obtain ⟨text, htext, rfl⟩ := List.mem_map.mp (List.mem_reverse.mp hmodule)
  exact systemStem?_eq_none_iff.mpr (h text htext)

/-- The innermost module that stands for a system tells the system. -/
theorem IsPathOf.systemName_eq (h : IsPathOf path (outer ++ module :: inner) name)
    (hmodule : StandsFor module stem) (hinner : ∀ other ∈ inner, ¬ IsSystem other) :
    systemName path = camelCase stem := by
  have hfound : (modulesOf path).reverse.findSome? systemStem? = some stem.toList := by
    rw [h.modulesOf_eq, List.map_append, List.map_cons, List.reverse_append, List.reverse_cons,
      List.findSome?_append, List.findSome?_append, findSome?_systemStem?_eq_none hinner,
      Option.none_or, List.findSome?_singleton, systemStem?_eq_some_iff.mpr hmodule, Option.some_or]
  rw [systemName]
  simp only [hfound]
  rfl

/-- Where no module stands for a system, the outermost one tells it, and none if there is none. -/
theorem IsPathOf.systemName_of_none (h : IsPathOf path modules name)
    (hmodules : ∀ module ∈ modules, ¬ IsSystem module) :
    systemName path = camelCase (modules.head?.getD "") := by
  have hnone : (modulesOf path).reverse.findSome? systemStem? = none := by
    rw [h.modulesOf_eq, findSome?_systemStem?_eq_none hmodules]
  rw [systemName]
  simp only [hnone]
  rw [h.modulesOf_eq]
  cases modules with
  | nil => rfl
  | cons module modules => rfl

/-! ## Handlers -/

/-- The name of a type gives this handler: what is in front of `Handler` if it ends so and there is
something in front, and else the name itself. -/
inductive GivesHandler : String → String → Prop where
  | ending {handler : String} (hsome : handler ≠ "") : GivesHandler (handler ++ "Handler") handler
  | whole {name : String} (hnone : ∀ front, front ≠ "" → name ≠ front ++ "Handler") :
      GivesHandler name name

theorem givesHandler_iff {name handler : String} :
    GivesHandler name handler ↔
      (stem? "Handler".toList name.toList).getD name.toList = handler.toList := by
  constructor
  · intro h
    cases h with
    | ending hsome => rw [stem?_toList_eq_some_iff.mpr ⟨rfl, hsome⟩, Option.getD_some]
    | whole hnone => rw [stem?_toList_eq_none_iff.mpr hnone, Option.getD_none]
  · intro h
    cases hstem : stem? "Handler".toList name.toList with
    | some front =>
        rw [hstem, Option.getD_some] at h
        rw [h] at hstem
        obtain ⟨rfl, hsome⟩ := stem?_toList_eq_some_iff.mp hstem
        exact .ending hsome
    | none =>
        rw [hstem, Option.getD_none, String.toList_inj] at h
        rw [← h]
        exact .whole (stem?_toList_eq_none_iff.mp hstem)

theorem Divides.whole {cs : List Char} {parts : List (List Char)} (h : Divides cs parts) :
    ∀ part ∈ parts, ¬ [':', ':'] <:+: part := by
  induction h with
  | last hwhole => exact List.forall_mem_singleton.mpr hwhole
  | next hwhole _ _ ih => exact List.forall_mem_cons.mpr ⟨hwhole, ih⟩

theorem Divides.eq_of_singleton {cs name : List Char} (h : Divides cs [name]) : cs = name := by
  cases h with
  | last _ => rfl
  | next _ _ hnone => cases hnone

/-- Behind modules the name of a type stands behind a pair of colons. -/
theorem Divides.exists_front {cs : List Char} {modules : List (List Char)} {name : List Char}
    (h : Divides cs (modules ++ [name])) (hmodules : modules ≠ []) :
    ∃ front, cs = front ++ ':' :: ':' :: name := by
  induction modules generalizing cs with
  | nil => exact absurd rfl hmodules
  | cons module modules ih =>
      cases modules with
      | nil =>
          cases h with
          | next _ _ hrest => exact ⟨module, by rw [hrest.eq_of_singleton]⟩
      | cons next modules =>
          cases h with
          | next _ _ hrest =>
              obtain ⟨front, rfl⟩ := ih hrest (List.cons_ne_nil _ _)
              exact ⟨module ++ ':' :: ':' :: front, by simp⟩

/-- The last pair of colons is the one in front of the name of the type or within these colons and
the name: of three colons in a row the handler is read behind the last two. -/
theorem exists_ownName (name : List Char) :
    ∃ before own, Text.cutAtLast? [':', ':'] (':' :: ':' :: name) = some (before, own) := by
  cases hcut : Text.cutAtLast? [':', ':'] (':' :: ':' :: name) with
  | some parts => exact ⟨parts.1, parts.2, rfl⟩
  | none => exact absurd ⟨[], name, rfl⟩ (Text.cutAtLast?_eq_none_iff.mp hcut)

theorem IsPathOf.handlerName_of_cut (h : IsPathOf path modules name) (hmodules : modules ≠ [])
    {before own : List Char}
    (hown : Text.cutAtLast? [':', ':'] (':' :: ':' :: name.toList) = some (before, own)) :
    handlerName path = String.ofList ((stem? handlerEnding own).getD own) := by
  have hdivides := isPathOf_iff.mp h
  rw [List.map_append, List.map_singleton] at hdivides
  obtain ⟨front, hfront⟩ := hdivides.exists_front (by simpa using hmodules)
  have hcut : Text.cutAtLast? [':', ':'] (basePath path.toList) = some (front ++ before, own) := by
    rw [hfront]
    exact Text.cutAtLast?_behind hown front
  rw [handlerName]
  simp only [hcut, Option.map_some, Option.getD_some]

/-- In whatever modules a type is, its name alone tells the handler. -/
theorem IsPathOf.handlerName_eq (h : IsPathOf path modules name) (h' : IsPathOf path' modules' name)
    (hmodules : modules ≠ []) (hmodules' : modules' ≠ []) :
    handlerName path = handlerName path' := by
  obtain ⟨before, own, hown⟩ := exists_ownName name.toList
  rw [h.handlerName_of_cut hmodules hown, h'.handlerName_of_cut hmodules' hown]

/-- The name of a type gives the handler, unless it begins with a colon: the segments take the
first two of three colons for the pair, and the handler's name the last two. -/
theorem IsPathOf.handlerName_eq_iff {handler : String} (h : IsPathOf path modules name)
    (hname : name.toList.head? ≠ some ':') :
    handlerName path = handler ↔ GivesHandler name handler := by
  have hwhole : ¬ [':', ':'] <:+: name.toList :=
    (isPathOf_iff.mp h).whole _ (by simp)
  have hhandler : handlerName path =
      String.ofList ((stem? handlerEnding name.toList).getD name.toList) := by
    by_cases hmodules : modules = []
    · subst hmodules
      have hbase : basePath path.toList = name.toList := (isPathOf_iff.mp h).eq_of_singleton
      rw [handlerName]
      simp only [hbase, Text.cutAtLast?_eq_none_iff.mpr hwhole, Option.map_none, Option.getD_none]
    · have hnone : Text.cutAtLast? [':', ':'] (':' :: name.toList) = none :=
        Text.cutAtLast?_eq_none_iff.mpr (whole_cons_iff.mpr ⟨fun _ => hname, hwhole⟩)
      have hown : Text.cutAtLast? [':', ':'] (':' :: ':' :: name.toList) =
          some ([], name.toList) := by
        rw [Text.cutAtLast?, hnone]
        rfl
      exact h.handlerName_of_cut hmodules hown
  rw [hhandler, givesHandler_iff, ← String.toList_inj, String.toList_ofList]
  exact Iff.rfl

end

/-! ## Camel case -/

theorem camelCaseChars_eq (cs : List Char) :
    camelCaseChars cs = (cs.splitOn '_').flatMap capitalize := by
  rw [camelCaseChars, Text.splitChars_eq_splitOn]

theorem camelCase_append (front behind : String) :
    camelCase (front ++ "_" ++ behind) = camelCase front ++ camelCase behind := by
  have htext : (front ++ "_" ++ behind).toList = front.toList ++ '_' :: behind.toList := by
    simp
  rw [camelCase, camelCase, camelCase, htext, camelCaseChars_eq, List.splitOn_append_cons_self,
    List.flatMap_append, ← camelCaseChars_eq, ← camelCaseChars_eq, String.ofList_append]

/-- A word is capitalized. -/
theorem camelCase_word {first : Char} {rest : List Char} (h : '_' ∉ first :: rest) :
    camelCase (String.ofList (first :: rest)) =
      Text.upper (String.singleton first) ++ String.ofList rest := by
  rw [camelCase, String.toList_ofList, camelCaseChars_eq, List.splitOn_eq_singleton h,
    List.flatMap_singleton, capitalize, String.ofList_append, Text.upper, String.toList_singleton,
    List.flatMap_singleton]

theorem underscore_not_mem_capitalize {cs : List Char} (h : '_' ∉ cs) : '_' ∉ capitalize cs := by
  cases cs with
  | nil => exact List.not_mem_nil
  | cons c cs =>
      rw [List.mem_cons, not_or] at h
      rw [capitalize, List.mem_append, not_or]
      exact ⟨Text.underscore_not_mem_upperChar (Ne.symm h.1), h.2⟩

theorem underscore_not_mem_camelCase (snake : String) : '_' ∉ (camelCase snake).toList := by
  rw [camelCase, String.toList_ofList, camelCaseChars_eq, List.mem_flatMap]
  rintro ⟨piece, hpiece, hmem⟩
  exact underscore_not_mem_capitalize (Text.not_mem_of_mem_splitOn hpiece) hmem

/-! ## Names of components -/

/-- What is written behind a `<` names nothing.  Every text is a path, and where a module stands for
a system, the innermost such module names the system: in another path with this module and this name
of the type, whatever the modules in front of it are and whatever modules without a system are
behind it, the names are the same.  Where no module stands for a system the outermost one names it,
so the name of the type never does; what that gives is the handler.  Camel case joins the words
between underscores, each of them capitalized, and leaves no underscore. -/
theorem names_are_told_by_system_and_type :
    (∀ path arguments, systemName (path ++ "<" ++ arguments) = systemName path ∧
      handlerName (path ++ "<" ++ arguments) = handlerName path) ∧
    (∀ path, ∃ modules name, IsPathOf path modules name) ∧
    (∀ path outer module inner name stem, IsPathOf path (outer ++ module :: inner) name →
      StandsFor module stem → (∀ other ∈ inner, ¬ IsSystem other) →
      systemName path = camelCase stem ∧
      ∀ path' outer' inner', IsPathOf path' (outer' ++ module :: inner') name →
        (∀ other ∈ inner', ¬ IsSystem other) →
        systemName path' = systemName path ∧ handlerName path' = handlerName path) ∧
    (∀ path modules name, IsPathOf path modules name → (∀ module ∈ modules, ¬ IsSystem module) →
      systemName path = camelCase (modules.head?.getD "")) ∧
    (∀ path modules name handler, IsPathOf path modules name → name.toList.head? ≠ some ':' →
      (handlerName path = handler ↔ GivesHandler name handler)) ∧
    (∀ front behind, camelCase (front ++ "_" ++ behind) = camelCase front ++ camelCase behind) ∧
    (∀ first rest, '_' ∉ first :: rest → camelCase (String.ofList (first :: rest)) =
      Text.upper (String.singleton first) ++ String.ofList rest) ∧
    ∀ snake, '_' ∉ (camelCase snake).toList := by
  refine ⟨?_, exists_isPathOf, ?_, ?_, ?_, camelCase_append, ?_, underscore_not_mem_camelCase⟩
  · intro path arguments
    have hbase : basePath (path ++ "<" ++ arguments).toList = basePath path.toList := by
      have htext : (path ++ "<" ++ arguments).toList = path.toList ++ '<' :: arguments.toList := by
        simp
      rw [htext, basePath_append]
    constructor
    · rw [systemName, systemName, modulesOf, modulesOf, hbase]
    · rw [handlerName, handlerName, hbase]
  · intro path outer module inner name stem hpath hmodule hinner
    have hsystem := hpath.systemName_eq hmodule hinner
    refine ⟨hsystem, fun path' outer' inner' hpath' hinner' => ⟨?_, ?_⟩⟩
    · rw [hsystem, hpath'.systemName_eq hmodule hinner']
    · exact hpath'.handlerName_eq hpath (by simp) (by simp)
  · intro path modules name hpath hmodules
    exact hpath.systemName_of_none hmodules
  · intro path modules name handler hpath hname
    exact hpath.handlerName_eq_iff hname
  · intro first rest hword
    exact camelCase_word hword

/-- A type called like a system, in a module that is called `_system` and nothing more, with a type
of another system for its argument: it is called like the same type right in the system. -/
theorem nested_type_is_named_by_its_innermost_system :
    IsPathOf "app::outer_system::Data_Management_SYSTEM::_system::x_system<a::b_system::C>"
      ["app", "outer_system", "Data_Management_SYSTEM", "_system"] "x_system" ∧
    IsPathOf "lib::Data_Management_SYSTEM::x_system" ["lib", "Data_Management_SYSTEM"] "x_system" ∧
    StandsFor "Data_Management_SYSTEM" "data_management" ∧ ¬ IsSystem "_system" ∧
    systemName "app::outer_system::Data_Management_SYSTEM::_system::x_system<a::b_system::C>" =
      "DataManagement" ∧
    handlerName "app::outer_system::Data_Management_SYSTEM::_system::x_system<a::b_system::C>" =
      handlerName "lib::Data_Management_SYSTEM::x_system" ∧
    IsPathOf "my_app::PingHandler" ["my_app"] "PingHandler" ∧ ¬ IsSystem "my_app" ∧
    systemName "my_app::PingHandler" = "MyApp" ∧ handlerName "my_app::PingHandler" = "Ping" ∧
    camelCase "ping" = "Ping" := by
  obtain ⟨-, -, hsystem, hnone, hgiven, -, hword, -⟩ := names_are_told_by_system_and_type
  have hnested : IsPathOf
      "app::outer_system::Data_Management_SYSTEM::_system::x_system<a::b_system::C>"
      ["app", "outer_system", "Data_Management_SYSTEM", "_system"] "x_system" :=
    isPathOf_iff.mpr (segments_eq_iff.mp (by decide +kernel))
  have hdirect : IsPathOf "lib::Data_Management_SYSTEM::x_system" ["lib", "Data_Management_SYSTEM"]
      "x_system" := isPathOf_iff.mpr (segments_eq_iff.mp (by decide +kernel))
  have hbare : IsPathOf "my_app::PingHandler" ["my_app"] "PingHandler" :=
    isPathOf_iff.mpr (segments_eq_iff.mp (by decide +kernel))
  have hstands : StandsFor "Data_Management_SYSTEM" "data_management" :=
    ⟨by decide +kernel, by decide +kernel⟩
  have hstemless : ¬ IsSystem "_system" := systemStem?_eq_none_iff.mp (by decide +kernel)
  have happ : ¬ IsSystem "my_app" := systemStem?_eq_none_iff.mp (by decide +kernel)
  have hinner : ∀ other ∈ ["_system"], ¬ IsSystem other := List.forall_mem_singleton.mpr hstemless
  obtain ⟨hnamed, hsame⟩ :=
    hsystem _ ["app", "outer_system"] _ ["_system"] _ _ hnested hstands hinner
  obtain ⟨-, hhandler⟩ := hsame _ ["lib"] [] hdirect (List.forall_mem_nil _)
  have hfirst := hnone _ _ _ hbare (List.forall_mem_singleton.mpr happ)
  have hping : GivesHandler "PingHandler" "Ping" := @GivesHandler.ending "Ping" (by decide)
  have hgives := (hgiven _ _ _ _ hbare (by decide +kernel)).mpr hping
  have hcapital := hword 'p' ['i', 'n', 'g'] (by decide)
  exact ⟨hnested, hdirect, hstands, hstemless, hnamed, hhandler.symm, hbare, happ, hfirst, hgives,
    hcapital⟩

end Gatehouse.Component

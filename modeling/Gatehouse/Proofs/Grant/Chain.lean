import Gatehouse.Grant.Chain
import Gatehouse.Proofs.Table
import Gatehouse.Proofs.Text.Upper

/-!
# Who is let in by a chain of grants

A name stands for the grant that was last registered under it, in whatever case.  A chain goes on
while the grants that it names decline or are not known, and ends with the first record; the grants
behind that one are not asked.  What is asked is told in any monad: asking a grant has an effect of
its own, and the effects of a chain are those of the positions that it reaches.
-/

namespace Gatehouse.GrantRegistry

open Identity (GrantError)

/-! ## What a name stands for -/

variable {registrations : List (String × Grant)} {name : String} {grant : Grant}

/-- The last registration of a name, in whatever case, is that of a grant. -/
def Registered (registrations : List (String × Grant)) (name : String) (grant : Grant) : Prop :=
  Table.LastBound (registrations.map fun (given, grant) => (Text.upper given, grant))
    (Text.upper name) grant

def Unregistered (registrations : List (String × Grant)) (name : String) : Prop :=
  ∀ registration ∈ registrations, Text.upper registration.1 ≠ Text.upper name

theorem ofRegistrations_eq (registrations : List (String × Grant)) :
    ofRegistrations registrations =
      Table.ofList (registrations.map fun (given, grant) => (Text.upper given, grant)) := by
  rw [ofRegistrations, Table.ofList, List.foldl_map]
  rfl

theorem registered_or_unregistered (registrations : List (String × Grant)) (name : String) :
    (∃ grant, Registered registrations name grant) ∨ Unregistered registrations name := by
  obtain hbound | hunbound := Table.lastBound_or_unbound
    (registrations.map fun (given, grant) => (Text.upper given, grant)) (Text.upper name)
  · exact .inl hbound
  · exact .inr fun registration hmem => hunbound _ (List.mem_map_of_mem hmem)

theorem Registered.get? (h : Registered registrations name grant) :
    (ofRegistrations registrations).get? name = some grant := by
  rw [GrantRegistry.get?, ofRegistrations_eq]
  exact Table.LastBound.get? h

theorem Unregistered.get? (h : Unregistered registrations name) :
    (ofRegistrations registrations).get? name = none := by
  rw [GrantRegistry.get?, ofRegistrations_eq]
  exact Table.get?_ofList_of_unbound (List.forall_mem_map.mpr h)

/-- A name may be put into upper case before it is looked up. -/
theorem get?_upper (registry : GrantRegistry) (name : String) :
    registry.get? (Text.upper name) = registry.get? name := by
  rw [GrantRegistry.get?, Text.upper_upper, GrantRegistry.get?]

/-! ## One position -/

variable {c : GrantContext} {record : Credential} {reason : String}

/-- The grant of a name has a record for the request. -/
def Admits (registrations : List (String × Grant)) (c : GrantContext) (name : String)
    (record : Credential) : Prop :=
  ∃ grant, Registered registrations name grant ∧ grant.authenticate c = .ok record

/-- The grant of a name has none, or there is no such grant, for a reason. -/
inductive Declines (registrations : List (String × Grant)) (c : GrantContext) (name : String) :
    String → Prop where
  | failed {grant : Grant} {e : GrantError} (registered : Registered registrations name grant)
      (fails : grant.authenticate c = .error e) :
      Declines registrations c name (Text.upper name ++ " authentication: " ++ e.message)
  | unknown (unregistered : Unregistered registrations name) :
      Declines registrations c name (Text.upper name ++ " authentication: " ++
        (Text.upper name ++ " authentication type is not supported."))

theorem admits_or_declines (registrations : List (String × Grant)) (c : GrantContext)
    (name : String) : (∃ record, Admits registrations c name record) ∨
      ∃ reason, Declines registrations c name reason := by
  obtain ⟨grant, hregistered⟩ | hunregistered := registered_or_unregistered registrations name
  · cases hanswer : grant.authenticate c with
    | ok record => exact .inl ⟨record, grant, hregistered, hanswer⟩
    | error e => exact .inr ⟨_, .failed hregistered hanswer⟩
  · exact .inr ⟨_, .unknown hunregistered⟩

/-! ## What is asked -/

def asked (registrations : List (String × Grant)) (names : List String) : List String :=
  (names.filter fun name => ∃ registration ∈ registrations,
    Text.upper registration.1 = Text.upper name).map Text.upper

theorem asked_append (registrations : List (String × Grant)) (names more : List String) :
    asked registrations (names ++ more) =
      asked registrations names ++ asked registrations more := by
  rw [asked, List.filter_append, List.map_append, asked, asked]

theorem Registered.asked (h : Registered registrations name grant) :
    asked registrations [name] = [Text.upper name] := by
  have hmem : ∃ registration ∈ registrations, Text.upper registration.1 = Text.upper name := by
    by_contra hnone
    have hunregistered : Unregistered registrations name :=
      fun registration hmem heq => hnone ⟨registration, hmem, heq⟩
    have hget := h.get?
    rw [hunregistered.get?] at hget
    cases hget
  rw [GrantRegistry.asked, List.filter_singleton, decide_eq_true hmem]
  rfl

theorem Unregistered.asked (h : Unregistered registrations name) :
    asked registrations [name] = [] := by
  have hmem : ¬ ∃ registration ∈ registrations, Text.upper registration.1 = Text.upper name :=
    fun ⟨registration, hregistration, hname⟩ => h registration hregistration hname
  rw [GrantRegistry.asked, List.filter_singleton, decide_eq_false hmem]
  rfl

section

variable {m : Type → Type} [Monad m]

/-- Asks a grant for the record of a request, and notes which one was asked. -/
def asking (note : String → m Unit) (c : GrantContext) (name : String) (grant : Grant) :
    m (Except GrantError Credential) := do
  note name
  return grant.authenticate c

variable [LawfulMonad m] (note : String → m Unit)

theorem tryAll_cons_of_admits (h : Admits registrations c name record) (rest : List String) :
    (ofRegistrations registrations).tryAll (asking note c) (name :: rest) = do
      (asked registrations [name]).forM note
      return .ok record := by
  obtain ⟨grant, hregistered, hanswer⟩ := h
  -- The chain looks up a name that is in upper case, and the registry puts it there again.
  rw [tryAll, tryGrant, get?_upper, hregistered.get?, hregistered.asked]
  simp [asking, hanswer]

theorem tryAll_cons_of_declines (h : Declines registrations c name reason) (rest : List String) :
    (ofRegistrations registrations).tryAll (asking note c) (name :: rest) = do
      (asked registrations [name]).forM note
      return (← (ofRegistrations registrations).tryAll (asking note c) rest).mapError
        (reason :: ·) := by
  have hreason : ∀ (name : String) (e : GrantError),
      grantReason name e = name ++ " authentication: " ++ e.message := fun _ _ => rfl
  have hunsupported : ∀ name : String, (GrantError.unsupported name).message =
      name ++ " authentication type is not supported." := fun _ => rfl
  rw [tryAll, tryGrant, get?_upper]
  cases h with
  | failed registered fails =>
      rw [registered.get?, registered.asked]
      simp [asking, fails, hreason]
  | unknown unregistered =>
      rw [unregistered.get?, unregistered.asked]
      simp [hreason, hunsupported]

/-- Names that decline give their reasons, and the chain goes on behind them. -/
theorem tryAll_append_of_declines {names reasons : List String}
    (h : List.Forall₂ (Declines registrations c) names reasons) (rest : List String) :
    (ofRegistrations registrations).tryAll (asking note c) (names ++ rest) = do
      (asked registrations names).forM note
      return (← (ofRegistrations registrations).tryAll (asking note c) rest).mapError
        (reasons ++ ·) := by
  induction h with
  | nil =>
      have hid : (Except.mapError (fun reasons => reasons) :
          Except (List String) Credential → Except (List String) Credential) = id := by
        funext answer
        cases answer <;> rfl
      simp [asked, hid]
  | @cons name reason names reasons hname _ ih =>
      have hasked : asked registrations (name :: names) =
          asked registrations [name] ++ asked registrations names :=
        asked_append registrations [name] names
      have hreasons : ∀ answer : Except (List String) Credential,
          (answer.mapError (reasons ++ ·)).mapError (reason :: ·) =
            answer.mapError (reason :: reasons ++ ·) := by
        intro answer
        cases answer <;> rfl
      rw [List.cons_append, tryAll_cons_of_declines note hname, ih, hasked]
      simp [List.forM_append, hreasons]

end

/-! ## Chains -/

/-- What comes of a chain, and how far it gets: to the first name that admits the caller, or to the
end. -/
inductive Resolved (registrations : List (String × Grant)) (c : GrantContext) :
    List String → List String → Except AuthenticationFailure Credential → Prop where
  | unnamed : Resolved registrations c [] [] (.ok {})
  | admitted {before : List String} {name : String} {after : List String} {record : Credential}
      (declined : ∀ earlier ∈ before, ∃ reason, Declines registrations c earlier reason)
      (admits : Admits registrations c name record) :
      Resolved registrations c (before ++ name :: after) (before ++ [name]) (.ok record)
  | declined {names reasons : List String} (nonempty : names ≠ [])
      (declined : List.Forall₂ (Declines registrations c) names reasons) :
      Resolved registrations c names names (.error ⟨reasons⟩)

theorem exists_reasons {names : List String}
    (h : ∀ name ∈ names, ∃ reason, Declines registrations c name reason) :
    ∃ reasons, List.Forall₂ (Declines registrations c) names reasons := by
  induction names with
  | nil => exact ⟨[], .nil⟩
  | cons name names ih =>
      obtain ⟨⟨reason, hreason⟩, hnames⟩ := List.forall_mem_cons.mp h
      obtain ⟨reasons, hreasons⟩ := ih hnames
      exact ⟨reason :: reasons, .cons hreason hreasons⟩

theorem exists_first_admits (registrations : List (String × Grant)) (c : GrantContext)
    (names : List String) :
    (∃ before name after record, names = before ++ name :: after ∧
      (∀ earlier ∈ before, ∃ reason, Declines registrations c earlier reason) ∧
      Admits registrations c name record) ∨
    ∀ name ∈ names, ∃ reason, Declines registrations c name reason := by
  induction names with
  | nil => exact .inr (List.forall_mem_nil _)
  | cons first rest ih =>
      obtain ⟨record, hadmits⟩ | hdeclines := admits_or_declines registrations c first
      · exact .inl ⟨[], first, rest, record, rfl, List.forall_mem_nil _, hadmits⟩
      · obtain ⟨before, name, after, record, rfl, hbefore, hadmits⟩ | hrest := ih
        · exact .inl ⟨first :: before, name, after, record, rfl,
            List.forall_mem_cons.mpr ⟨hdeclines, hbefore⟩, hadmits⟩
        · exact .inr (List.forall_mem_cons.mpr ⟨hdeclines, hrest⟩)

/-- Something comes of every chain. -/
theorem exists_resolved (registrations : List (String × Grant)) (c : GrantContext)
    (names : List String) : ∃ reached outcome, Resolved registrations c names reached outcome := by
  obtain ⟨before, name, after, record, rfl, hbefore, hadmits⟩ | hall :=
    exists_first_admits registrations c names
  · exact ⟨_, _, .admitted hbefore hadmits⟩
  · by_cases hnames : names = []
    · subst hnames
      exact ⟨_, _, .unnamed⟩
    · obtain ⟨reasons, hreasons⟩ := exists_reasons hall
      exact ⟨_, _, .declined hnames hreasons⟩

/-- The effects of a chain are those of the names that it reaches. -/
theorem resolveWith_eq {names reached : List String}
    {outcome : Except AuthenticationFailure Credential}
    (h : Resolved registrations c names reached outcome) {m : Type → Type} [Monad m]
    [LawfulMonad m] (note : String → m Unit) :
    (ofRegistrations registrations).resolveWith (asking note c) names = do
      (asked registrations reached).forM note
      return outcome := by
  cases h with
  | unnamed => simp [resolveWith, asked]
  | @admitted before name after record declined admits =>
      obtain ⟨reasons, hreasons⟩ := exists_reasons declined
      rw [resolveWith, tryAll_append_of_declines note hreasons, tryAll_cons_of_admits note admits,
        asked_append]
      simp [List.forM_append, Except.mapError]
  | @declined _ reasons nonempty declined =>
      have hend := tryAll_append_of_declines note declined []
      rw [List.append_nil] at hend
      rw [resolveWith, hend]
      simp [tryAll, nonempty, Except.mapError]

theorem resolve_eq {names reached : List String}
    {outcome : Except AuthenticationFailure Credential}
    (h : Resolved registrations c names reached outcome) :
    (ofRegistrations registrations).resolve names c = outcome :=
  congrArg Id.run (resolveWith_eq h (m := Id) fun _ => pure ())

/-- Whatever has been registered, a chain comes to one outcome: the empty record if it names no
grant, the record of the first grant that has one, or the reasons of all its names in their order.
It asks the grants that it reaches on the way there, each once and in order, and no others. -/
theorem first_admitting_grant_resolves (registrations : List (String × Grant))
    (names : List String) (c : GrantContext) :
    (∀ outcome, (ofRegistrations registrations).resolve names c = outcome ↔
      ∃ reached, Resolved registrations c names reached outcome) ∧
    ∀ reached outcome, Resolved registrations c names reached outcome →
      ∀ {m : Type → Type} [Monad m] [LawfulMonad m] (note : String → m Unit),
        (ofRegistrations registrations).resolveWith (asking note c) names = do
          (asked registrations reached).forM note
          return outcome := by
  refine ⟨fun outcome => ⟨?_, fun ⟨reached, h⟩ => resolve_eq h⟩,
    fun reached outcome h m _ _ note => resolveWith_eq h note⟩
  rintro rfl
  obtain ⟨reached, outcome, h⟩ := exists_resolved registrations c names
  rw [resolve_eq h]
  exact ⟨reached, h⟩

/-- Badges were let in without a look until a certificate was asked for. -/
def gateRegistrations : List (String × Grant) :=
  [("Badge", .visitor), ("visitor", .visitor), ("badge", .certificate Certificate.readChain)]

def emptyContext : GrantContext where
  headers := ⟨[]⟩
  arguments := []
  issuers := []
  now := 0

/-- Without a certificate one comes in as a visitor, and the badge is not asked for again. -/
theorem gateRegistrations_resolve :
    (ofRegistrations gateRegistrations).resolve ["kerberos", "BADGE"] emptyContext = .error
      ⟨["KERBEROS authentication: KERBEROS authentication type is not supported.",
        "BADGE authentication: Valid certificate not found."]⟩ ∧
    ((ofRegistrations gateRegistrations).resolveWith
      (asking (fun name => modify (· ++ [name])) emptyContext : String → Grant →
        StateM (List String) _) ["kerberos", "Badge", "Visitor", "badge"]).run [] =
      (.ok {}, ["BADGE", "VISITOR"]) := by
  have hkerberos : Declines gateRegistrations emptyContext "kerberos"
      "KERBEROS authentication: KERBEROS authentication type is not supported." := by
    have hunknown : Unregistered gateRegistrations "kerberos" := by
      rw [Unregistered]
      decide
    have hupper : Text.upper "kerberos" = "KERBEROS" := rfl
    have hdeclines := Declines.unknown (c := emptyContext) hunknown
    rwa [hupper] at hdeclines
  have hupper : gateRegistrations.map (fun (given, grant) => (Text.upper given, grant)) =
      [("BADGE", .visitor), ("VISITOR", .visitor),
        ("BADGE", .certificate Certificate.readChain)] := by
    have hbadge : Text.upper "Badge" = "BADGE" ∧ Text.upper "badge" = "BADGE" := by decide
    have hvisitor : Text.upper "visitor" = "VISITOR" := rfl
    simp only [gateRegistrations, List.map_cons, List.map_nil, hbadge.1, hbadge.2, hvisitor]
  have hbadge : ∀ name, Text.upper name = "BADGE" → Declines gateRegistrations emptyContext name
      "BADGE authentication: Valid certificate not found." := by
    intro name hname
    have hlast : Registered gateRegistrations name (.certificate Certificate.readChain) := by
      rw [Registered, hupper, hname]
      exact ⟨[_, _], [], rfl, List.forall_mem_nil _⟩
    have hdeclines := Declines.failed (c := emptyContext) (e := .certificateNotFound) hlast rfl
    rwa [hname] at hdeclines
  have hvisitor : Admits gateRegistrations emptyContext "Visitor" {} := by
    have hname : Text.upper "Visitor" = "VISITOR" := rfl
    refine ⟨.visitor, ?_, rfl⟩
    rw [Registered, hupper, hname]
    exact ⟨[_], [_], rfl, by simp⟩
  have hadmitted : Resolved gateRegistrations emptyContext
      (["kerberos", "Badge"] ++ "Visitor" :: ["badge"]) (["kerberos", "Badge"] ++ ["Visitor"])
      (.ok {}) := by
    refine .admitted ?_ hvisitor
    simp only [List.forall_mem_cons]
    exact ⟨⟨_, hkerberos⟩, ⟨_, hbadge "Badge" (rfl)⟩, List.forall_mem_nil _⟩
  have hdeclined : Resolved gateRegistrations emptyContext ["kerberos", "BADGE"]
      ["kerberos", "BADGE"] _ :=
    .declined (by simp) (.cons hkerberos (.cons (hbadge "BADGE" (rfl)) .nil))
  have hreached : asked gateRegistrations (["kerberos", "Badge"] ++ ["Visitor"]) =
      ["BADGE", "VISITOR"] := rfl
  obtain ⟨houtcome, -⟩ :=
    first_admitting_grant_resolves gateRegistrations ["kerberos", "BADGE"] emptyContext
  obtain ⟨-, hasked⟩ := first_admitting_grant_resolves gateRegistrations
    (["kerberos", "Badge"] ++ "Visitor" :: ["badge"]) emptyContext
  refine ⟨(houtcome _).mpr ⟨_, hdeclined⟩, ?_⟩
  have hrun := hasked _ _ hadmitted fun name => (modify (· ++ [name]) : StateM (List String) Unit)
  rw [hreached] at hrun
  exact congrArg (StateT.run · []) hrun

end Gatehouse.GrantRegistry

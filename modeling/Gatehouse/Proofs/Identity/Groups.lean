import Gatehouse.Proofs.Identity.Audience
import Gatehouse.Proofs.Text.Words

/-!
# The group of a record

A record takes its group from the claims, where a provider looks for a text or for a list with a
text in front, and failing that from the provider.  The rest of the record, its profile, is read of
the claims alone.
-/

namespace Gatehouse.Identity

open Token (text_of_field)

/-! ## The profile -/

/-- A record but for its group. -/
structure Profile where
  subject : String
  username : String
  properties : List String

def profileClaims : List String := ["sub", "preferred_username", "scope"]

def profile? (claims : Json) : Option Profile :=
  ((claims.field? "sub").bind Json.str?).map fun subject =>
    { subject
      username := ((claims.field? "preferred_username").bind Json.str?).getD subject
      properties := Provider.scopes claims }

def Profile.inGroup (profile : Profile) (group : String) : Credential :=
  { id := some profile.subject, username := some profile.username, group := some group,
    properties := profile.properties }

theorem Profile.inGroup_inj {a b : Profile} {group other : String} :
    a.inGroup group = b.inGroup other ↔ a = b ∧ group = other := by
  constructor
  · intro h
    cases a
    cases b
    cases h
    exact ⟨rfl, rfl⟩
  · rintro ⟨rfl, rfl⟩
    rfl

section

variable {claims claims' : Json} {profile : Profile}

theorem profile?_congr
    (h : ∀ field ∈ profileClaims, claims.field? field = claims'.field? field) :
    profile? claims = profile? claims' := by
  have hsub := h "sub" (by decide)
  have husername := h "preferred_username" (by decide)
  have hscope := h "scope" (by decide)
  simp only [profile?, Provider.scopes, hsub, husername, hscope]

theorem profile?_eq_none :
    profile? claims = none ↔ ∀ subject, claims.field? "sub" ≠ some (.str subject) := by
  rw [profile?, Option.map_eq_none_iff, Option.eq_none_iff_forall_ne_some]
  exact forall_congr' fun subject => not_congr text_of_field

theorem profile?_eq_some :
    profile? claims = some profile ↔ claims.field? "sub" = some (.str profile.subject) ∧
      profile.username =
        ((claims.field? "preferred_username").bind Json.str?).getD profile.subject ∧
      profile.properties = Provider.scopes claims := by
  rw [profile?, Option.map_eq_some_iff]
  constructor
  · rintro ⟨subject, hsubject, rfl⟩
    exact ⟨text_of_field.mp hsubject, rfl, rfl⟩
  · rintro ⟨hsubject, husername, hproperties⟩
    refine ⟨profile.subject, text_of_field.mpr hsubject, ?_⟩
    rw [← husername, ← hproperties]

/-- The words of a text of scopes are its properties, as the items of a list are. -/
theorem scopes_of_words {scope : String} {words : List (List Char)}
    (hwords : Text.HasWords scope.toList words)
    (h : claims.field? "scope" = some (.str scope) ∨
      claims.field? "scope" = some (Json.ofStrings (words.map String.ofList))) :
    Provider.scopes claims = words.map String.ofList := by
  rw [Provider.scopes]
  obtain h | h := h
  · rw [h, ← Text.wordsChars_eq_iff.mpr hwords]
    rfl
  · rw [h]
    change List.filterMap Json.str? (List.map Json.str _) = _
    rw [List.filterMap_map]
    exact List.filterMap_some

end

namespace Provider

variable {p : Provider} {claims claims' : Json} {group : String} {rest : List Json}
  {record : Credential}

/-! ## The group -/

/-- The claims name a group: by a text, which is not empty, or by the text in front of a list. -/
inductive NamesGroup (p : Provider) (claims : Json) (group : String) : Prop where
  | text (h : claims.field? p.groupClaim = some (.str group)) (hne : group ≠ "")
  | list {rest : List Json} (h : claims.field? p.groupClaim = some (.arr (.str group :: rest)))

theorem claimedGroup_of_text (h : claims.field? p.groupClaim = some (.str group)) :
    p.claimedGroup claims = if group = "" then none else some group := by
  rw [claimedGroup, h]
  by_cases hempty : group = ""
  · rw [if_pos hempty, hempty]
    rfl
  · have hnot : ¬ group.isEmpty = true := by simpa using hempty
    rw [if_neg hempty]
    exact if_neg hnot

theorem claimedGroup_of_list (h : claims.field? p.groupClaim = some (.arr (.str group :: rest))) :
    p.claimedGroup claims = some group := by
  rw [claimedGroup, h]

theorem claimedGroup_eq_some : p.claimedGroup claims = some group ↔ p.NamesGroup claims group := by
  constructor
  · intro h
    rw [claimedGroup] at h
    split at h
    next name hname =>
      split at h
      · cases h
      next hne =>
        cases h
        exact .text hname (by simpa using hne)
    next name rest hname =>
      cases h
      exact .list hname
    next => cases h
  · rintro (⟨h, hne⟩ | h)
    · rw [claimedGroup_of_text h, if_neg hne]
    · exact claimedGroup_of_list h

theorem claimedGroup_eq_none :
    p.claimedGroup claims = none ↔ ∀ group, ¬ p.NamesGroup claims group := by
  rw [Option.eq_none_iff_forall_ne_some]
  exact forall_congr' fun group => not_congr claimedGroup_eq_some

/-- The group is that of the claims, or else that of the provider. -/
inductive HasGroup (p : Provider) (claims : Json) (group : String) : Prop where
  | claimed (h : p.NamesGroup claims group)
  | default (hnone : ∀ name, ¬ p.NamesGroup claims name) (h : p.defaultGroup = some group)

theorem group_eq_some :
    (p.claimedGroup claims <|> p.defaultGroup) = some group ↔ p.HasGroup claims group := by
  rw [Option.orElse_eq_orElse, Option.orElse_eq_or, Option.or_eq_some_iff, claimedGroup_eq_some,
    claimedGroup_eq_none]
  constructor
  · rintro (h | ⟨hnone, h⟩)
    · exact .claimed h
    · exact .default hnone h
  · rintro (h | ⟨hnone, h⟩)
    · exact .inl h
    · exact .inr ⟨hnone, h⟩

/-- A text is the group that it names unless it is empty, and then the provider's may be empty
too. -/
theorem hasGroup_of_text (h : claims.field? p.groupClaim = some (.str group)) :
    p.HasGroup claims group ↔ group ≠ "" ∨ p.defaultGroup = some "" := by
  rw [← group_eq_some, claimedGroup_of_text h]
  by_cases hempty : group = ""
  · simp [hempty]
  · simp [hempty]

/-- A group is empty if a list names it so, or if the provider's is. -/
theorem HasGroup.blank_iff (h : p.HasGroup claims group) (hdefault : p.defaultGroup ≠ some "") :
    group = "" ↔ ∃ rest, claims.field? p.groupClaim = some (.arr (.str "" :: rest)) := by
  constructor
  · rintro rfl
    rcases h with ⟨⟨-, hne⟩ | hlist⟩ | ⟨-, hempty⟩
    · exact absurd rfl hne
    · exact ⟨_, hlist⟩
    · exact absurd hempty hdefault
  · rintro ⟨rest, hrest⟩
    have hclaimed := group_eq_some.mpr h
    rw [claimedGroup_of_list hrest] at hclaimed
    exact (Option.some.inj hclaimed).symm

/-! ## The record -/

theorem resolveGroup_eq : p.resolveGroup claims =
    match profile? claims with
    | none => .error (.groupResolution "Token has no subject.")
    | some profile =>
      match p.claimedGroup claims <|> p.defaultGroup with
      | none => .error (.groupResolution s!"No group found for {profile.subject}.")
      | some group => .ok (profile.inGroup group) := by
  rw [resolveGroup, profile?]
  cases (claims.field? "sub").bind Json.str? with
  | none => rfl
  | some subject => rfl

theorem resolveGroup_eq_ok : p.resolveGroup claims = .ok record ↔
    ∃ profile group, profile? claims = some profile ∧ p.HasGroup claims group ∧
      record = profile.inGroup group := by
  rw [resolveGroup_eq]
  simp only [← group_eq_some]
  cases profile? claims with
  | none => simp
  | some profile =>
      cases p.claimedGroup claims <|> p.defaultGroup with
      | none => simp
      | some group => simp [eq_comm]

theorem resolveGroup_eq_noSubject :
    p.resolveGroup claims = .error (.groupResolution "Token has no subject.") ↔
      profile? claims = none := by
  rw [resolveGroup_eq]
  cases profile? claims with
  | none => simp
  | some profile =>
      cases p.claimedGroup claims <|> p.defaultGroup with
      | none =>
          -- The two messages differ in their first letters.
          refine iff_of_false (fun h => ?_) (Option.some_ne_none profile)
          injection h with h
          injection h with h
          have hfirst := congrArg (fun message => message.toList.head?) h
          simp only [String.toList_append] at hfirst
          cases hfirst
      | some group => simp

/-- A text and a list with the text in front make one record, if they come with one profile and the
text is not empty. -/
theorem resolveGroup_eq_iff (htext : claims.field? p.groupClaim = some (.str group))
    (hlist : claims'.field? p.groupClaim = some (.arr (.str group :: rest))) :
    p.resolveGroup claims = p.resolveGroup claims' ↔ profile? claims = profile? claims' ∧
      (profile? claims = none ∨ group ≠ "" ∨ p.defaultGroup = some "") := by
  -- The list has a group whatever it is, so the two can fail alike only over the subject.
  have hgroup' : p.HasGroup claims' group := .claimed (.list hlist)
  rw [← hasGroup_of_text htext]
  constructor
  · intro heq
    cases hprofile' : profile? claims' with
    | none =>
        have hprofile := resolveGroup_eq_noSubject.mp
          (heq.trans (resolveGroup_eq_noSubject.mpr hprofile'))
        exact ⟨hprofile, .inl hprofile⟩
    | some profile' =>
        have hok' := resolveGroup_eq_ok.mpr ⟨profile', group, hprofile', hgroup', rfl⟩
        obtain ⟨profile, named, hprofile, hgroup, hrecord⟩ :=
          resolveGroup_eq_ok.mp (heq.trans hok')
        obtain ⟨rfl, rfl⟩ := Profile.inGroup_inj.mp hrecord
        exact ⟨hprofile, .inr hgroup⟩
  · rintro ⟨hsame, hnone | hgroup⟩
    · rw [resolveGroup_eq_noSubject.mpr hnone, resolveGroup_eq_noSubject.mpr (hsame ▸ hnone)]
    · rw [resolveGroup_eq, resolveGroup_eq, hsame, group_eq_some.mpr hgroup,
        group_eq_some.mpr hgroup']

/-- The record is drawn from the claims, and its group, failing them, from the provider. -/
structure Draws (p : Provider) (claims : Json) (record : Credential) : Prop where
  subject : ∃ subject, claims.field? "sub" = some (.str subject) ∧ record.id = some subject
  username : ∀ username, claims.field? "preferred_username" = some (.str username) →
    record.username = some username
  no_username : (∀ username, claims.field? "preferred_username" ≠ some (.str username)) →
    record.username = record.id
  group : ∃ group, record.group = some group ∧ p.HasGroup claims group
  /-- Only the claims can leave the group blank, if the provider has no blank group. -/
  blank : p.defaultGroup ≠ some "" → (record.group = some "" ↔
    ∃ rest, claims.field? p.groupClaim = some (.arr (.str "" :: rest)))

theorem draws_of_resolveGroup (h : p.resolveGroup claims = .ok record) : p.Draws claims record := by
  obtain ⟨profile, group, hprofile, hgroup, rfl⟩ := resolveGroup_eq_ok.mp h
  obtain ⟨hsubject, husername, -⟩ := profile?_eq_some.mp hprofile
  refine ⟨⟨_, hsubject, rfl⟩, fun username h => ?_, fun hnone => ?_, ⟨group, rfl, hgroup⟩,
    fun hdefault => ?_⟩
  · rw [text_of_field.mpr h] at husername
    exact congrArg some husername
  · have hnotext : (claims.field? "preferred_username").bind Json.str? = none :=
      Option.eq_none_iff_forall_ne_some.mpr fun username h => hnone username (text_of_field.mp h)
    rw [hnotext] at husername
    exact congrArg some husername
  · rw [← hgroup.blank_iff hdefault]
    exact Option.some_inj

/-! ## The shapes of a group and of the scopes -/

/-- A group makes one record as a text and in front of a list unless it is empty, where the text is
passed over and the list is not.  A record is drawn from its claims, its group is empty only by such
a list or by the provider, and its properties are the words of the scopes in either shape. -/
theorem group_shapes_agree_unless_blank (p : Provider) :
    (∀ (claims claims' : Json) (group : String) (rest : List Json),
      claims.field? p.groupClaim = some (.str group) →
      claims'.field? p.groupClaim = some (.arr (.str group :: rest)) →
      (∀ field, field ≠ p.groupClaim → claims.field? field = claims'.field? field) →
        (p.groupClaim ∉ profileClaims → profile? claims = profile? claims') ∧
        (p.resolveGroup claims = p.resolveGroup claims' ↔ profile? claims = profile? claims' ∧
          ((∀ subject, claims.field? "sub" ≠ some (.str subject)) ∨ group ≠ "" ∨
            p.defaultGroup = some ""))) ∧
    (∀ claims record, p.resolveGroup claims = .ok record → p.Draws claims record) ∧
    (∀ claims record scope words, Text.HasWords scope.toList words →
      claims.field? "scope" = some (.str scope) ∨
        claims.field? "scope" = some (Json.ofStrings (words.map String.ofList)) →
      p.resolveGroup claims = .ok record → record.properties = words.map String.ofList) := by
  refine ⟨fun claims claims' group rest htext hlist hothers => ⟨fun hclaim => ?_, ?_⟩,
    fun claims record => draws_of_resolveGroup,
    fun claims record scope words hwords hscope hok => ?_⟩
  · refine profile?_congr fun field hfield => hothers field ?_
    rintro rfl
    exact hclaim hfield
  · rw [← profile?_eq_none]
    exact resolveGroup_eq_iff htext hlist
  · obtain ⟨profile, group, hprofile, -, rfl⟩ := resolveGroup_eq_ok.mp hok
    rw [← scopes_of_words hwords hscope]
    exact (profile?_eq_some.mp hprofile).2.2

def claimsOfGroup (group : Json) : Json :=
  .obj [("groups", group), ("scope", .str "read write"), ("sub", .str "0001")]

/-- A group that is not empty makes one record in either shape. -/
theorem namedGroup_resolves_alike :
    (sharedProvider none).resolveGroup (claimsOfGroup (.str "lhcb_user")) =
        (sharedProvider none).resolveGroup (claimsOfGroup (Json.ofStrings ["lhcb_user"])) ∧
      ∃ record,
        (sharedProvider none).resolveGroup (claimsOfGroup (.str "lhcb_user")) = .ok record ∧
          (sharedProvider none).Draws (claimsOfGroup (.str "lhcb_user")) record ∧
          record.properties = ["read", "write"] := by
  obtain ⟨hshapes, hdraws, hscopes⟩ := group_shapes_agree_unless_blank (sharedProvider none)
  have hothers : ∀ field, field ≠ "groups" →
      (claimsOfGroup (.str "lhcb_user")).field? field =
        (claimsOfGroup (Json.ofStrings ["lhcb_user"])).field? field :=
    fun field hne => (if_neg hne.symm).trans (if_neg hne.symm).symm
  obtain ⟨hprofile, hiff⟩ := hshapes _ _ "lhcb_user" [] rfl rfl hothers
  have hsame := hiff.mpr ⟨hprofile (by decide), .inr (.inl (by decide))⟩
  have hwords : Text.HasWords "read write".toList ["read".toList, "write".toList] :=
    Text.wordsChars_eq_iff.mp rfl
  have hresolved : (sharedProvider none).resolveGroup (claimsOfGroup (.str "lhcb_user")) =
      .ok { id := some "0001", username := some "0001", group := some "lhcb_user",
            properties := ["read", "write"] } := rfl
  exact ⟨hsame, _, hresolved, hdraws _ _ hresolved,
    hscopes _ _ _ _ hwords (.inl rfl) hresolved⟩

/-- An empty text names no group, and a list with an empty text in front names the empty one. -/
theorem blankList_makes_blank_group :
    (sharedProvider none).resolveGroup (claimsOfGroup (.str "")) =
        .error (.groupResolution "No group found for 0001.") ∧
      (sharedProvider none).resolveGroup (claimsOfGroup (Json.ofStrings [""])) =
        .ok { id := some "0001", username := some "0001", group := some "",
              properties := ["read", "write"] } :=
  ⟨rfl, rfl⟩

end Provider

end Gatehouse.Identity

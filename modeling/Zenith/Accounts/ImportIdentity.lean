import Mathlib
import Zenith.Accounts.ImportItem
import Zenith.Lib.Encoding

/-!
# When two entries of an import are the same account

The key of an account is the digest of a text: what kind of account it is, and then its identity, put
together with colons. The parts of the identity may have colons themselves, so two different identities
may be put together to the same text. `Ambiguous` says when: one part of it is the other's and the
beginning of what follows there. Other entries have the same key exactly when they have the same identity
(`identityKey_eq_iff`). An account of an API key is known by its account id, or by its e-mail if it has
none.
-/

namespace Zenith.Accounts.Imports

open Zenith.Bytes Zenith.Tables Zenith.Text

/-- What an account is known by. -/
structure Identity where
  account : Option String
  email : Option String
  user : Option String
deriving DecidableEq, Repr

namespace ParsedImportItem

/-- The credential that counts is an API key. -/
def isApiKey (item : ParsedImportItem) : Bool := item.secrets.apiKey.isSome

/-- The credential that counts. -/
def fingerprint (item : ParsedImportItem) : String :=
  (item.secrets.apiKey.or <| item.secrets.agentPrivateKey.or <|
    item.secrets.refreshToken.or <| item.secrets.accessToken.or item.secrets.idToken).getD ""

/-- A part of an identity as it is compared. -/
def normal (value : Option String) : Option String := value.map fun value => asciiLower (trim value)

/-- For an API key the account or else the e-mail; for an account of tokens both, and the user if there is
no e-mail. -/
def identity (item : ParsedImportItem) : Identity :=
  if item.isApiKey then
    { account := normal item.accountId
      email := if item.accountId.isSome then none else normal item.email
      user := none }
  else
    { account := normal item.accountId
      email := normal item.email
      user := if item.email.isSome then none else normal item.chatgptUserId }

/-- The entries stand for the same account. -/
structure SameIdentity (item item' : ParsedImportItem) : Prop where
  kind : item.isApiKey = item'.isApiKey
  identity : item.identity = item'.identity
  baseUrl : item.isApiKey = true → item.baseUrl = item'.baseUrl
  credential : item.identity = ⟨none, none, none⟩ →
    item.baseUrl = item'.baseUrl ∧ item.fingerprint = item'.fingerprint

/-! ## The text of a key -/

/-- The seed of an identity, in two parts. -/
def seedParts (identity : Identity) : String × String :=
  match identity.account, identity.email, identity.user with
  | some account, some email, _ => ("account:" ++ account, ":email:" ++ email)
  | some account, none, some user => ("account:" ++ account, ":user:" ++ user)
  | some account, none, none => ("account:" ++ account, "")
  | none, some email, _ => ("", "email:" ++ email)
  | none, none, some user => ("", "user:" ++ user)
  | none, none, none => ("", "")

/-- The text of a key: its kind, and two parts that follow. -/
def keyText (item : ParsedImportItem) : String × String × String :=
  if item.identity = ⟨none, none, none⟩ then
    (if item.isApiKey then "api-key-without-identity" else "token-without-identity",
      (item.baseUrl.map fun baseUrl => "\x00" ++ baseUrl).getD "", "\x00" ++ item.fingerprint)
  else if item.isApiKey then
    ("api:", item.baseUrl.getD "default",
      ":" ++ ((seedParts item.identity).1 ++ (seedParts item.identity).2))
  else ("account:", seedParts item.identity)

/-- Different identities with the same text: one has the first part of the other, and the beginning of the
second part after it. -/
def Ambiguous (item item' : ParsedImportItem) : Prop :=
  item.keyText.1 = item'.keyText.1 ∧
    RunsTogether item.keyText.2.1 item.keyText.2.2 item'.keyText.2.1 item'.keyText.2.2

/-- What `parse_item` gives: the key of the identity, an account id without blanks around it, and a base
URL that is no placeholder. -/
structure Parsed (lib : ImportLibraries) (item : ParsedImportItem) : Prop where
  key : item.identityKey = identityKeyOf lib item.isApiKey item.accountId item.chatgptUserId item.email
    item.baseUrl item.fingerprint
  trimmed : ∀ account, item.accountId = some account → trim account = account
  baseUrl : item.baseUrl ≠ some "default"

end ParsedImportItem

/-! ## What is parsed -/

theorem trim_of_safeText {bound : Nat} {allowed : List Char} {value : Option String} {text : String}
    (h : safeText bound allowed value = some text) : trim text = text := by
  obtain ⟨hmap, -⟩ := Option.filter_eq_some_iff.mp h
  obtain ⟨raw, -, rfl⟩ := Option.map_eq_some_iff.mp hmap
  exact trim_trim raw

theorem trim_of_claims {claims : Json} {account : String}
    (h : (claimsMetadata claims).accountId = some account) : trim account = account := by
  obtain ⟨auth, -, hsafe⟩ := Option.bind_eq_some_iff.mp h
  exact trim_of_safeText hsafe

variable {lib : ImportLibraries}

theorem trim_of_jwt {idToken accessToken : Option String} {account : String}
    (h : (importedJwtMetadata lib idToken accessToken).accountId = some account) :
    trim account = account := by
  unfold importedJwtMetadata at h
  generalize idToken.toList ++ accessToken.toList = tokens at h
  have hfold : ∀ (tokens : List String) (metadata : ImportedJwtMetadata),
      (∀ account, metadata.accountId = some account → trim account = account) →
      ∀ account, (tokens.foldl (ImportedJwtMetadata.withToken lib) metadata).accountId = some account →
        trim account = account := by
    intro tokens
    induction tokens with
    | nil => exact fun _ hmetadata => hmetadata
    | cons token tokens ih =>
      intro metadata hmetadata
      refine ih _ fun account haccount => ?_
      unfold ImportedJwtMetadata.withToken at haccount
      split at haccount
      case h_1 => exact hmetadata account haccount
      case h_2 claims _ =>
        rcases Option.or_eq_some_iff.mp haccount with hfirst | ⟨-, hsecond⟩
        · exact hmetadata account hfirst
        · exact trim_of_claims hsecond
  exact hfold tokens {} nofun account h

/-- A URL starts with its scheme. -/
def UrlsStartWithScheme (lib : ImportLibraries) : Prop :=
  ∀ text url, lib.parseUrl text = some url → url.scheme.toList ++ [':'] <+: url.bare.toList

theorem safeBaseUrl_ne_default (hurls : UrlsStartWithScheme lib)
    {value : Option String} : safeBaseUrl lib value ≠ some "default" := by
  intro h
  obtain ⟨text, -, hparsed⟩ := Option.bind_eq_some_iff.mp h
  split at hparsed
  case isTrue => cases hparsed
  case isFalse =>
    obtain ⟨url, hurl, hchecked⟩ := Option.bind_eq_some_iff.mp hparsed
    split at hchecked
    case isTrue => cases hchecked
    case isFalse hweb =>
      have hbare := congrArg String.toList (Option.some.inj hchecked)
      rw [trimEndMatches, String.toList_ofList] at hbare
      have hlead : "default".toList <+: url.bare.toList := by
        rw [← hbare, ← List.reverse_suffix, List.reverse_reverse]
        exact List.dropWhile_suffix _
      have hscheme := hurls text url hurl
      simp only [Bool.or_eq_true, not_or, Bool.not_eq_true, Bool.and_eq_false_iff] at hweb
      obtain ⟨rest, hrest⟩ := hscheme
      obtain ⟨rest', hrest'⟩ := hlead
      rw [← hrest] at hrest'
      rcases hweb.1.1.1 with hhttp | hhttps
      · rw [of_decide_eq_false hhttp |> not_not.mp] at hrest'
        cases (List.cons.inj hrest').1
      · rw [of_decide_eq_false hhttps |> not_not.mp] at hrest'
        cases (List.cons.inj hrest').1

/-- Which credentials count is settled by which there are. -/
structure Settled (secrets : ImportSecretMaterial) (selection : Selection) : Prop where
  apiKey : selection.useApiKey = true → secrets.apiKey.isSome = true
  agent : selection.useAgentIdentity = true → secrets.agentPrivateKey.isSome = true
  some : selection.useApiKey = false → selection.useAgentIdentity = false → selection.useTokens = true

theorem selectCredentials_ok {secrets : ImportSecretMaterial} {explicitAuthMode : Option String}
    {selection : Selection} (h : selectCredentials secrets explicitAuthMode = .ok selection) :
    Settled secrets selection := by
  unfold selectCredentials at h
  dsimp only at h
  generalize hhas : (secrets.agentPrivateKey.isSome || secrets.agentRuntimeId.isSome ||
    secrets.agentTaskId.isSome) = hasAgentIdentity at h
  generalize (secrets.accessToken.isSome || secrets.refreshToken.isSome || secrets.idToken.isSome) =
    hasTokens at h
  split at h
  case isTrue => exact nomatch h
  case isFalse hwhole =>
    -- An agent identity has its private key.
    have hagent : hasAgentIdentity = true → secrets.agentPrivateKey.isSome = true := by
      rintro rfl
      simp only [Bool.true_and, Bool.or_eq_true, not_or, Bool.not_eq_true, Option.isNone_eq_false_iff] at hwhole
      exact hwhole.1
    split at h
    case isTrue hmixed =>
      rw [Bool.and_eq_true, Bool.or_eq_true] at hmixed
      split at h
      case isTrue =>
        obtain rfl := Except.ok.inj h
        exact ⟨fun _ => hmixed.1, nofun, nofun⟩
      case isFalse =>
        split at h
        case isTrue =>
          obtain rfl := Except.ok.inj h
          refine ⟨nofun, hagent, fun _ hnone => ?_⟩
          exact hmixed.2.resolve_right fun hsome => nomatch hnone.symm.trans hsome
        case isFalse => exact nomatch h
    case isFalse =>
      split at h
      case isTrue => exact nomatch h
      case isFalse hsome =>
        obtain rfl := Except.ok.inj h
        refine ⟨id, hagent, fun hkey hnone => ?_⟩
        simpa [show secrets.apiKey.isSome = false from hkey, show hasAgentIdentity = false from hnone]
          using hsome

theorem parseItem_parsed (hurls : UrlsStartWithScheme lib) {value : Json}
    {ordinal : Nat} {format : ImportFormat} {sourceFile : Option String} {item : ParsedImportItem}
    (h : parseItem lib value ordinal format sourceFile = .ok item) : item.Parsed lib := by
  unfold parseItem at h
  split at h
  case h_1 => exact nomatch h
  case h_2 object _ =>
    split at h
    case isTrue => exact nomatch h
    case isFalse =>
      dsimp only at h
      split at h
      case h_1 => exact nomatch h
      case h_2 selection hselection =>
        split at h
        case isTrue => exact nomatch h
        case isFalse =>
          have hsettled := selectCredentials_ok hselection
          generalize itemParts format object = parts at h hsettled
          obtain rfl := Except.ok.inj h
          refine ⟨?_, fun account haccount => ?_, safeBaseUrl_ne_default hurls⟩
          · -- The credential that counts is among the secrets of the item.
            obtain ⟨useApiKey, useTokens, useAgentIdentity⟩ := selection
            cases useApiKey with
            | true =>
              obtain ⟨key, hkey⟩ := Option.isSome_iff_exists.mp (hsettled.apiKey rfl)
              simp [ParsedImportItem.isApiKey, ParsedImportItem.fingerprint, Selection.secrets, hkey]
            | false =>
              cases useAgentIdentity with
              | true =>
                obtain ⟨key, hkey⟩ := Option.isSome_iff_exists.mp (hsettled.agent rfl)
                simp [ParsedImportItem.isApiKey, ParsedImportItem.fingerprint, Selection.secrets, hkey]
              | false =>
                obtain rfl : useTokens = true := hsettled.some rfl rfl
                simp [ParsedImportItem.isApiKey, ParsedImportItem.fingerprint, Selection.secrets]
          · rcases Option.or_eq_some_iff.mp haccount with hfirst | ⟨-, hsecond⟩
            · exact trim_of_safeText hfirst
            · exact trim_of_jwt hsecond

namespace ParsedImportItem

section
variable {lib : ImportLibraries} {item item' : ParsedImportItem}

theorem tokenIdentitySeed_eq (accountId userId email : Option String) :
    tokenIdentitySeed accountId userId email =
      if (⟨normal accountId, normal email, if email.isSome then none else normal userId⟩ : Identity) =
        ⟨none, none, none⟩ then none
      else some ((seedParts ⟨normal accountId, normal email,
        if email.isSome then none else normal userId⟩).1 ++ (seedParts ⟨normal accountId, normal email,
          if email.isSome then none else normal userId⟩).2) := by
  cases accountId <;> cases email <;> cases userId <;>
    simp [tokenIdentitySeed, seedParts, normal, String.append_assoc]

theorem apiIdentitySeed_eq {accountId : Option String} (email : Option String)
    (htrimmed : ∀ account, accountId = some account → trim account = account) :
    apiIdentitySeed accountId email =
      if (⟨normal accountId, if accountId.isSome then none else normal email, none⟩ : Identity) =
        ⟨none, none, none⟩ then none
      else some ((seedParts ⟨normal accountId, if accountId.isSome then none else normal email, none⟩).1 ++
        (seedParts ⟨normal accountId, if accountId.isSome then none else normal email, none⟩).2) := by
  cases accountId with
  | none => cases email <;> simp [apiIdentitySeed, seedParts, normal]
  | some account => simp [apiIdentitySeed, seedParts, normal, htrimmed account rfl]

/-- The digest is that of the text. -/
theorem Parsed.key_eq (h : item.Parsed lib) :
    item.identityKey = hexEncode (lib.sha256 (utf8 (item.keyText.1 ++
      (item.keyText.2.1 ++ item.keyText.2.2)))) := by
  have hzero : ∀ text : String, 0 :: utf8 text = utf8 ("\x00" ++ text) := fun text => (utf8_append "\x00" text).symm
  rw [h.key, identityKeyOf, accountSeed]
  cases hkind : item.isApiKey with
  | true =>
    have hidentity : item.identity = ⟨normal item.accountId,
        if item.accountId.isSome then none else normal item.email, none⟩ := by
      rw [identity, if_pos hkind]
    rw [if_pos rfl, apiIdentitySeed_eq item.email h.trimmed, ← hidentity, keyText]
    by_cases hnone : item.identity = ⟨none, none, none⟩
    · rw [if_pos hnone, if_pos hnone]
      cases hbase : item.baseUrl <;>
        simp [sha256Hex, hkind, hzero, ← utf8_append, String.append_assoc]
    · rw [if_neg hnone, if_neg hnone]
      simp [sha256Hex, hkind, String.append_assoc]
  | false =>
    have hidentity : item.identity = ⟨normal item.accountId, normal item.email,
        if item.email.isSome then none else normal item.chatgptUserId⟩ := by
      rw [identity, if_neg (by rw [hkind]; exact Bool.false_ne_true)]
    rw [if_neg Bool.false_ne_true, tokenIdentitySeed_eq, ← hidentity, keyText]
    by_cases hnone : item.identity = ⟨none, none, none⟩
    · rw [if_pos hnone, if_pos hnone]
      cases hbase : item.baseUrl <;>
        simp [sha256Hex, hkind, hzero, ← utf8_append, String.append_assoc]
    · rw [if_neg hnone, if_neg hnone]
      simp [sha256Hex, hkind]

/-- The kinds of keys are no beginnings of one another. -/
theorem keyText_kind {rest rest' : String} (h : item.keyText.1 ++ rest = item'.keyText.1 ++ rest') :
    item.keyText.1 = item'.keyText.1 := by
  have hkind : ∀ item : ParsedImportItem, item.keyText.1 ∈
      ["api-key-without-identity", "token-without-identity", "api:", "account:"] := by
    intro item
    unfold keyText
    split
    · split <;> simp
    · split <;> simp
  have hstart : ∀ text ∈ ["api-key-without-identity", "token-without-identity", "api:", "account:"],
      ∀ rest : String, (text ++ rest).toList.take 4 = text.toList.take 4 := by
    intro text htext rest
    rw [String.toList_append, List.take_append_of_le_length]
    simp only [List.mem_cons, List.not_mem_nil, or_false] at htext
    rcases htext with rfl | rfl | rfl | rfl <;> decide
  have htake : (item.keyText.1 ++ rest).toList.take 4 = (item'.keyText.1 ++ rest').toList.take 4 := by
    rw [h]
  rw [hstart _ (hkind item), hstart _ (hkind item')] at htake
  have hall : ∀ text ∈ ["api-key-without-identity", "token-without-identity", "api:", "account:"],
      ∀ text' ∈ ["api-key-without-identity", "token-without-identity", "api:", "account:"],
      text.toList.take 4 = text'.toList.take 4 → text = text' := by
    decide
  exact hall _ (hkind item) _ (hkind item') htake

theorem seedParts_injective {identity identity' : Identity}
    (hclean : identity.email.isSome = true → identity.user = none)
    (hclean' : identity'.email.isSome = true → identity'.user = none)
    (h : seedParts identity = seedParts identity') : identity = identity' := by
  obtain ⟨account, email, user⟩ := identity
  obtain ⟨account', email', user'⟩ := identity'
  cases account <;> cases email <;> cases user <;> cases account' <;> cases email' <;> cases user' <;>
    simp_all [seedParts, String.ext_iff]

/-- For an API key one of the two parts is empty. -/
theorem seedParts_joined_injective {identity identity' : Identity}
    (hclean : identity.account.isSome = true → identity.email = none) (huser : identity.user = none)
    (hclean' : identity'.account.isSome = true → identity'.email = none) (huser' : identity'.user = none)
    (h : (seedParts identity).1 ++ (seedParts identity).2 =
      (seedParts identity').1 ++ (seedParts identity').2) : identity = identity' := by
  obtain ⟨account, email, user⟩ := identity
  obtain ⟨account', email', user'⟩ := identity'
  obtain rfl : user = none := huser
  obtain rfl : user' = none := huser'
  cases account <;> cases email <;> cases account' <;> cases email' <;>
    simp_all [seedParts, String.ext_iff]

theorem identity_clean (item : ParsedImportItem) :
    item.identity.email.isSome = true → item.identity.user = none := by
  unfold identity
  split
  · exact fun _ => rfl
  · cases item.email <;> simp [normal]

theorem identity_api (h : item.isApiKey = true) :
    (item.identity.account.isSome = true → item.identity.email = none) ∧ item.identity.user = none := by
  rw [identity, if_pos h]
  cases item.accountId <;> simp [normal]

theorem isApiKey_of_keyText (h : item.keyText = item'.keyText) : item.isApiKey = item'.isApiKey := by
  have hstart : ∀ item : ParsedImportItem, item.isApiKey = true ↔
      item.keyText.1 = "api-key-without-identity" ∨ item.keyText.1 = "api:" := by
    intro item
    unfold keyText
    by_cases hnone : item.identity = ⟨none, none, none⟩
    · rw [if_pos hnone]
      cases item.isApiKey <;> simp
    · rw [if_neg hnone]
      cases item.isApiKey <;> simp
  rw [Bool.eq_iff_iff, hstart, hstart, h]

/-- The parts of the text say who it is. -/
theorem keyText_eq_iff (h : item.Parsed lib) (h' : item'.Parsed lib) :
    item.keyText = item'.keyText ↔ SameIdentity item item' := by
  constructor
  · intro htext
    have hkind := isApiKey_of_keyText htext
    unfold keyText at htext
    by_cases hnone : item.identity = ⟨none, none, none⟩ <;>
      by_cases hnone' : item'.identity = ⟨none, none, none⟩
    · rw [if_pos hnone, if_pos hnone', Prod.mk.injEq, Prod.mk.injEq] at htext
      obtain ⟨-, hbase, hcredential⟩ := htext
      have hurl : item.baseUrl = item'.baseUrl := by
        cases hurl : item.baseUrl <;> cases hurl' : item'.baseUrl <;>
          simp_all [String.ext_iff]
      exact ⟨hkind, hnone.trans hnone'.symm, fun _ => hurl,
        fun _ => ⟨hurl, (String.append_right_inj _).mp hcredential⟩⟩
    · rw [if_pos hnone, if_neg hnone', ← hkind] at htext
      cases hapi : item.isApiKey <;> simp [hapi] at htext
    · rw [if_neg hnone, if_pos hnone', ← hkind] at htext
      cases hapi : item.isApiKey <;> simp [hapi] at htext
    · rw [if_neg hnone, if_neg hnone', ← hkind] at htext
      cases hapi : item.isApiKey with
      | true =>
        rw [hapi, if_pos rfl, if_pos rfl, Prod.mk.injEq, Prod.mk.injEq] at htext
        obtain ⟨-, hbase, hseed⟩ := htext
        obtain ⟨hclean, huser⟩ := identity_api hapi
        obtain ⟨hclean', huser'⟩ := identity_api (hkind.symm.trans hapi)
        have hidentity := seedParts_joined_injective hclean huser hclean' huser'
          ((String.append_right_inj _).mp hseed)
        refine ⟨hkind, hidentity, fun _ => ?_, fun hempty => absurd hempty hnone⟩
        have hurl := h.baseUrl
        have hurl' := h'.baseUrl
        cases hbase' : item.baseUrl <;> cases hbase'' : item'.baseUrl <;> simp_all
      | false =>
        rw [hapi, if_neg Bool.false_ne_true, if_neg Bool.false_ne_true, Prod.mk.injEq] at htext
        have hidentity := seedParts_injective (identity_clean item) (identity_clean item') htext.2
        exact ⟨hkind, hidentity, fun hkey => (nomatch hapi.symm.trans hkey), fun hempty => absurd hempty hnone⟩
  · intro hsame
    unfold keyText
    rw [← hsame.identity, ← hsame.kind]
    by_cases hnone : item.identity = ⟨none, none, none⟩
    · obtain ⟨hurl, hcredential⟩ := hsame.credential hnone
      rw [if_pos hnone, if_pos hnone, hurl, hcredential]
    · rw [if_neg hnone, if_neg hnone]
      cases hapi : item.isApiKey with
      | true => rw [hsame.baseUrl hapi]
      | false => rfl

/-- Entries have the same key when they are the same account, or when their identities run together. -/
theorem identityKey_eq_iff (hsha : Function.Injective lib.sha256) (h : item.Parsed lib)
    (h' : item'.Parsed lib) :
    item.identityKey = item'.identityKey ↔ SameIdentity item item' ∨ Ambiguous item item' := by
  rw [h.key_eq, h'.key_eq, ← keyText_eq_iff h h']
  constructor
  · intro hkeys
    have htexts := utf8_injective (hsha (hexEncode_injective hkeys))
    have hstart := keyText_kind htexts
    rw [hstart, String.append_right_inj, append_eq_append_iff] at htexts
    rcases htexts with ⟨hhead, htail⟩ | hrun
    · exact .inl (Prod.ext hstart (Prod.ext hhead htail))
    · exact .inr ⟨hstart, hrun⟩
  · rintro (heq | ⟨hstart, hrun⟩)
    · rw [heq]
    · rw [hstart, (append_eq_append_iff _ _ _ _).mpr (.inr hrun)]

end

/-- Nobody is taken for the same account by accident. -/
theorem not_ambiguous_self (item : ParsedImportItem) {item' : ParsedImportItem}
    (h : item.keyText = item'.keyText) : ¬ Ambiguous item item' := by
  rintro ⟨-, x, hx, ⟨hhead, -⟩ | ⟨hhead, -⟩⟩
  · rw [h] at hhead
    exact hx ((String.append_right_inj _).mp (hhead.symm.trans (String.append_empty).symm))
  · rw [h] at hhead
    exact hx ((String.append_right_inj _).mp (hhead.symm.trans (String.append_empty).symm))

end ParsedImportItem

/-! ## Duplicates -/

section
variable {lib : ImportLibraries} {format : ImportFormat} {sourceFile : Option String}
  {existing : List String}

/-- An account with a key that was not seen is taken. -/
theorem importEntries_new {seen : List String} {entries : List InputEntry} {i : Nat} {entry : InputEntry}
    {item : ParsedImportItem} (hentry : entries[i]? = some entry)
    (hitem : parseEntry lib format sourceFile entry = .ok item)
    (hseen : asciiLower item.identityKey ∉ seen)
    (hnew : ∀ j < i, ∀ entry' item', entries[j]? = some entry' →
      parseEntry lib format sourceFile entry' = .ok item' →
      asciiLower item'.identityKey ≠ asciiLower item.identityKey) :
    (importEntries lib format sourceFile existing seen entries).1[i]? =
        some (newRow existing (asciiLower item.identityKey)) ∧
      item ∈ (importEntries lib format sourceFile existing seen entries).2 := by
  induction entries generalizing seen i with
  | nil => exact nomatch hentry
  | cons first entries ih =>
    cases i with
    | zero =>
      obtain rfl := Option.some.inj hentry
      simp only [importEntries, hitem, if_neg hseen]
      exact ⟨rfl, List.mem_cons_self⟩
    | succ i =>
      have hrest : ∀ j < i, ∀ entry' item', entries[j]? = some entry' →
          parseEntry lib format sourceFile entry' = .ok item' →
          asciiLower item'.identityKey ≠ asciiLower item.identityKey :=
        fun j hj => hnew (j + 1) (Nat.succ_lt_succ hj)
      rw [importEntries]
      cases hfirst : parseEntry lib format sourceFile first with
      | error issue => exact ih hentry hseen hrest
      | ok item' =>
        dsimp only
        split
        case isTrue => exact ih hentry hseen hrest
        case isFalse =>
          have hother := hnew 0 (Nat.zero_lt_succ i) first item' rfl hfirst
          obtain ⟨hrow, hmem⟩ := @ih (asciiLower item'.identityKey :: seen) i hentry
            (fun hmem => (List.mem_cons.mp hmem).elim (fun heq => hother heq.symm) hseen) hrest
          exact ⟨hrow, List.mem_cons_of_mem _ hmem⟩

end

open ParsedImportItem in
/-- Entries have the same key exactly when they are the same account, if their identities do not run
together; and an account like none before it is not dropped. -/
theorem import_separates_accounts (lib : ImportLibraries) (hsha : Function.Injective lib.sha256)
    (hurls : UrlsStartWithScheme lib) :
    (∀ value value' ordinal ordinal' format format' sourceFile sourceFile' item item',
      parseItem lib value ordinal format sourceFile = .ok item →
      parseItem lib value' ordinal' format' sourceFile' = .ok item' → ¬ Ambiguous item item' →
      (item.identityKey = item'.identityKey ↔ SameIdentity item item')) ∧
    ∀ format sourceFile existing entries (i : Nat) entry item, entries[i]? = some entry →
      parseEntry lib format sourceFile entry = .ok item →
      (∀ j < i, ∀ entry' item', entries[j]? = some entry' →
        parseEntry lib format sourceFile entry' = .ok item' →
        ¬ SameIdentity item' item ∧ ¬ Ambiguous item' item) →
      (importEntries lib format sourceFile existing [] entries).1[i]? =
          some (newRow existing item.identityKey) ∧
        item ∈ (importEntries lib format sourceFile existing [] entries).2 := by
  refine ⟨fun value value' ordinal ordinal' format format' sourceFile sourceFile' item item' h h' hclear => ?_,
    fun format sourceFile existing entries i entry item hentry hitem hnew => ?_⟩
  · rw [identityKey_eq_iff hsha (parseItem_parsed hurls h) (parseItem_parsed hurls h')]
    exact or_iff_left hclear
  · have parsed : ∀ {entry : InputEntry} {item : ParsedImportItem},
        parseEntry lib format sourceFile entry = .ok item → item.Parsed lib := by
      intro entry item h
      unfold parseEntry at h
      split at h
      case h_1 => exact parseItem_parsed hurls h
      case h_2 => exact nomatch h
    have lowered : ∀ {item : ParsedImportItem}, item.Parsed lib →
        asciiLower item.identityKey = item.identityKey := by
      intro item h
      rw [h.key_eq, asciiLower_hexEncode]
    have hkept := @importEntries_new lib format sourceFile existing [] entries i entry item hentry hitem
      List.not_mem_nil fun j hj entry' item' hentry' hitem' hkeys => by
        rw [lowered (parsed hitem'), lowered (parsed hitem),
          identityKey_eq_iff hsha (parsed hitem') (parsed hitem)] at hkeys
        obtain ⟨hother, hclear⟩ := hnew j hj entry' item' hentry' hitem'
        exact hkeys.elim hother hclear
    rwa [lowered (parsed hitem)] at hkept

/-! ## Samples -/

/-- The SHA-256 digest of `account:account:team:email:one@example.test`. -/
def teamDigest : List UInt8 := [0x17, 0xde, 0xf2, 0x0c, 0x9e, 0xcb, 0x8c, 0xab, 0xc5, 0xab, 0xb8, 0x28, 0x5e,
  0xa6, 0x70, 0xf5, 0xb3, 0xd4, 0x37, 0xa9, 0x04, 0x61, 0x7a, 0x5f, 0x9d, 0x8d, 0x6e, 0x47, 0x4c, 0x69, 0x43, 0xa2]

/-- The SHA-256 digest of `api:default:account:team`. -/
def teamKeyDigest : List UInt8 := [0xf5, 0xa6, 0x20, 0x6e, 0x5c, 0xfc, 0xcc, 0x5b, 0x64, 0x32, 0x1d, 0x27, 0x58,
  0x94, 0x97, 0x43, 0x1f, 0xe1, 0x34, 0x09, 0x20, 0x13, 0xaf, 0xff, 0x15, 0x79, 0x20, 0xe3, 0x73, 0x31, 0xa3, 0x96]

/-- Digests for examples: two of them are known, and no other text has them. -/
def knownDigests (text text' : String) (digest digest' : List UInt8) (bytes : List UInt8) : List UInt8 :=
  if bytes = utf8 text then digest
  else if bytes = utf8 text' then digest'
  else bytes ++ List.replicate 33 0

theorem knownDigests_injective (text text' : String) {digest digest' : List UInt8}
    (hlength : digest.length = 32) (hlength' : digest'.length = 32) (hdigests : digest ≠ digest') :
    Function.Injective (knownDigests text text' digest digest') := by
  have hlong : ∀ bytes : List UInt8, bytes ++ List.replicate 33 0 ≠ digest ∧
      bytes ++ List.replicate 33 0 ≠ digest' := by
    intro bytes
    constructor <;> intro h <;>
      · have hlen := congrArg List.length h
        rw [List.length_append, List.length_replicate] at hlen
        omega
  intro bytes bytes' h
  unfold knownDigests at h
  by_cases htext : bytes = utf8 text <;> by_cases htext' : bytes' = utf8 text
  · exact htext.trans htext'.symm
  · rw [if_pos htext, if_neg htext'] at h
    split at h
    case isTrue => exact absurd h hdigests
    case isFalse => exact absurd h.symm (hlong bytes').1
  · rw [if_neg htext, if_pos htext'] at h
    split at h
    case isTrue => exact absurd h.symm hdigests
    case isFalse => exact absurd h (hlong bytes).1
  · rw [if_neg htext, if_neg htext'] at h
    by_cases hother : bytes = utf8 text' <;> by_cases hother' : bytes' = utf8 text'
    · exact hother.trans hother'.symm
    · rw [if_pos hother, if_neg hother'] at h
      exact absurd h.symm (hlong bytes').2
    · rw [if_neg hother, if_pos hother'] at h
      exact absurd h (hlong bytes).2
    · rw [if_neg hother, if_neg hother'] at h
      exact List.append_cancel_right h

/-- Libraries for examples: the digest is known of two texts. -/
def teamLibraries : ImportLibraries where
  serde := .ofValues []
  sha256 := knownDigests "account:account:team:email:one@example.test" "api:default:account:team" teamDigest
    teamKeyDigest
  decodeBase64 _ := none
  parseUrl _ := none

theorem sha256_teamLibraries : Function.Injective teamLibraries.sha256 :=
  knownDigests_injective _ _ rfl rfl (by decide)

theorem urls_teamLibraries : UrlsStartWithScheme teamLibraries := nofun

/-- A token entry of the account, with a credential of its own. -/
def teamEntry (accessToken : String) : Json := .object [("account_id", .string "team"),
  ("email", .string "one@example.test"), ("access_token", .string accessToken)]

/-- An API key entry of the account. -/
def teamKeyEntry (email apiKey : String) : Json := .object [("account_id", .string "team"),
  ("email", .string email), ("api_key", .string apiKey)]

open ParsedImportItem in
/-- What is parsed of two credentials of one account. -/
theorem teamEntry_parsed : ∃ item item',
    parseItem teamLibraries (teamEntry "at-1") 1 .jsonArray none = .ok item ∧
    parseItem teamLibraries (teamEntry "at-2") 2 .jsonArray none = .ok item' ∧
    item.keyText = item'.keyText ∧ item.fingerprint ≠ item'.fingerprint := by
  refine ⟨_, _, rfl, rfl, ?_⟩
  decide +kernel

open ParsedImportItem in
/-- Two credentials of one account have one key, and the import keeps the first. -/
theorem import_separates_accounts_team : ∃ item item',
    parseItem teamLibraries (teamEntry "at-1") 1 .jsonArray none = .ok item ∧
    parseItem teamLibraries (teamEntry "at-2") 2 .jsonArray none = .ok item' ∧
    item.fingerprint ≠ item'.fingerprint ∧ item.identityKey = item'.identityKey ∧
    item ∈ (importEntries teamLibraries .jsonArray none [] []
      [⟨1, some (teamEntry "at-1"), none⟩, ⟨2, some (teamEntry "at-2"), none⟩]).2 := by
  obtain ⟨item, item', hitem, hitem', htext, hother⟩ := teamEntry_parsed
  obtain ⟨hsame, hkept⟩ := import_separates_accounts teamLibraries sha256_teamLibraries urls_teamLibraries
  have hequal : SameIdentity item item' :=
    (keyText_eq_iff (parseItem_parsed urls_teamLibraries hitem)
      (parseItem_parsed urls_teamLibraries hitem')).mp htext
  exact ⟨item, item', hitem, hitem', hother,
    (hsame _ _ _ _ _ _ _ _ _ _ hitem hitem' (not_ambiguous_self item htext)).mpr hequal,
    (hkept .jsonArray none [] [⟨1, some (teamEntry "at-1"), none⟩, ⟨2, some (teamEntry "at-2"), none⟩] 0
      ⟨1, some (teamEntry "at-1"), none⟩ item rfl hitem (fun _ hj => nomatch hj)).2⟩

open ParsedImportItem in
/-- Two people with API keys of one organization have one key, since an account id hides the e-mail. -/
theorem api_key_email_ignored : (∃ item item',
    parseItem teamLibraries (teamKeyEntry "one@example.test" "sk-1") 1 .jsonArray none = .ok item ∧
    parseItem teamLibraries (teamKeyEntry "two@example.test" "sk-2") 2 .jsonArray none = .ok item' ∧
    item.isApiKey = true ∧ item'.isApiKey = true ∧ normal item.email ≠ normal item'.email ∧
    item.identityKey = item'.identityKey) ∧ Function.Injective teamLibraries.sha256 := by
  refine ⟨⟨_, _, rfl, rfl, ?_⟩, sha256_teamLibraries⟩
  decide +kernel

end Zenith.Accounts.Imports

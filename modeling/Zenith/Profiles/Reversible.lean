import Mathlib
import Zenith.Profiles.Attached

/-!
# When a restore gives the profile back

`restored_iff`: of a bound profile, a restore gives back what was there before exactly when it is
`Restorable`. What stands in the way is in the profile from before (a configuration that was absent, or
that a restore does not keep; an authentication that is blank), in the address of the gateway, or in an
authentication that is not recognised. `attach_reversible_iff` puts this in terms of the profile and the
gateway, for an attach and a restore that nothing disturbs.
-/

namespace Zenith.Profiles

open Zenith.Accounts Zenith.Faults Zenith.Text

/-- The configuration has the data it had on `p`, and the authentication the same bytes. -/
structure AsBefore (env : Env) (p d : Disk) : Prop where
  config : readConfig env (d.files .config) = readConfig env (p.files .config)
  exists_config : (d.files .config).isSome = (p.files .config).isSome
  auth : d.files .auth = p.files .auth

/-- SHA-256 tells a content from every other. -/
def Distinguished (env : Env) (content : Option Content) : Prop :=
  ∀ c ∈ content, ∀ c', env.sha256Hex c' = env.sha256Hex c → c' = c

/-- What a restore needs to give a bound profile back. -/
structure Restorable (env : Env) (p : Disk) (document : Document) (b : ProfileBackup) (d : Disk) : Prop where
  baseUrl : trim b.managedBaseUrl ≠ ""
  config : (p.files .config).isSome
  kept : Kept document
  secret : managedAuthMatchesSnapshot env (d.files .auth) b = .ok true →
    (previousAuthText (p.files .auth)).isSome → (d.secrets backupSecretRef).isSome
  auth : d.files .auth = p.files .auth ∨
    (managedAuthMatchesSnapshot env (d.files .auth) b = .ok true ∧
      (p.files .auth = none ∨ (previousAuthText (p.files .auth)).isSome))

section
variable {env : Env} {p d : Disk} {document : Document} {b : ProfileBackup}

theorem previousAuthMatches_iff (hb : Bound env p document b d)
    (hsha : Distinguished env (p.files .auth)) (content : Option Content) :
    previousAuthMatchesSnapshot env content b = true ↔ content = p.files .auth := by
  rw [previousAuthMatchesSnapshot, hb.records.authHash, hb.records.secretRef]
  cases hauth : p.files .auth with
  | none => simp [previousAuthText]
  | some previous =>
    rw [hauth] at hsha
    simp only [Option.map_some, Option.any_eq_true, decide_eq_true_eq]
    constructor
    · rintro ⟨current, rfl, hsame⟩
      rw [hsha previous rfl current hsame]
    · rintro rfl
      exact ⟨previous, rfl, rfl⟩

/-- The secret of a bound profile, through the reference of its backup. -/
theorem Bound.bind_secret (hb : Bound env p document b d) :
    b.previousAuthSecretRef.bind d.secrets =
      if (d.secrets backupSecretRef).isSome then previousAuthText (p.files .auth) else none := by
  rw [hb.records.secretRef]
  cases hprevious : previousAuthText (p.files .auth) with
  | none => simp
  | some text =>
    rw [Option.map_some, Option.bind_some]
    rcases hb.secret with hsecret | hsecret
    · simp [hsecret, hprevious]
    · simp [hsecret]

theorem Bound.isSome_secretRef (hb : Bound env p document b d) :
    b.previousAuthSecretRef.isSome = (previousAuthText (p.files .auth)).isSome := by
  rw [hb.records.secretRef, Option.isSome_map]

/-- A restore is accepted and leaves the authentication from before. -/
theorem accepted_restoredAuth_iff (hb : Bound env p document b d)
    (hsha : Distinguished env (p.files .auth)) :
    Accepted env b d ∧ restoredAuth env b d = p.files .auth ↔
      trim b.managedBaseUrl ≠ "" ∧
      (managedAuthMatchesSnapshot env (d.files .auth) b = .ok true →
        (previousAuthText (p.files .auth)).isSome → (d.secrets backupSecretRef).isSome) ∧
      (d.files .auth = p.files .auth ∨
        (managedAuthMatchesSnapshot env (d.files .auth) b = .ok true ∧
          (p.files .auth = none ∨ (previousAuthText (p.files .auth)).isSome))) := by
  have hprevious := previousAuthMatches_iff hb hsha (d.files .auth)
  have hsecret : (b.previousAuthSecretRef.isSome → (b.previousAuthSecretRef.bind d.secrets).isSome) ↔
      ((previousAuthText (p.files .auth)).isSome → (d.secrets backupSecretRef).isSome) := by
    rw [hb.isSome_secretRef, hb.bind_secret]
    cases (d.secrets backupSecretRef).isSome <;> simp
  rw [restoredAuth]
  by_cases hsame : d.files .auth = p.files .auth
  · rw [if_pos (hprevious.mpr hsame)]
    constructor
    · rintro ⟨⟨hurl, -, hneeds⟩, -⟩
      exact ⟨hurl, fun hmanaged => hsecret.mp (hneeds hmanaged), .inl hsame⟩
    · rintro ⟨hurl, hneeds, -⟩
      exact ⟨⟨hurl, .inr (hprevious.mpr hsame), fun hmanaged => hsecret.mpr (hneeds hmanaged)⟩, hsame⟩
  · rw [if_neg (mt hprevious.mp hsame), hb.bind_secret]
    constructor
    · rintro ⟨⟨hurl, hauth, hneeds⟩, hrestored⟩
      have hmanaged := hauth.resolve_right (mt hprevious.mp hsame)
      refine ⟨hurl, fun hmanaged => hsecret.mp (hneeds hmanaged), .inr ⟨hmanaged, ?_⟩⟩
      split at hrestored
      case isTrue =>
        cases hprevious : previousAuthText (p.files .auth) with
        | none =>
          rw [hprevious] at hrestored
          exact .inl hrestored.symm
        | some text => exact .inr rfl
      case isFalse => exact .inl hrestored.symm
    · rintro ⟨hurl, hneeds, hauth⟩
      obtain ⟨hmanaged, hauth⟩ := hauth.resolve_left hsame
      refine ⟨⟨hurl, .inl hmanaged, fun hmanaged => hsecret.mpr (hneeds hmanaged)⟩, ?_⟩
      rcases hauth with hnone | hsome
      · simp [hnone, previousAuthText]
      · rw [if_pos (hneeds hmanaged hsome)]
        obtain ⟨text, htext⟩ := Option.isSome_iff_exists.mp hsome
        rw [htext, (previousAuthText_eq_some htext).1]
        rfl

/-- A restore of a bound profile gives it back, and leaves nothing of the binding. -/
theorem restored_iff (h : env.Lawful) (hb : Bound env p document b d)
    (hsha : Distinguished env (p.files .auth)) :
    (∃ d', (restoreLocalLocked env).calm d = (.ok (), d') ∧ AsBefore env p d' ∧ Unbound d') ↔
      Restorable env p document b d := by
  have hauth := accepted_restoredAuth_iff hb hsha
  have hrun := (restore_meets (w := ⟨d, []⟩) (A := (· = .done)) h hb (within_nil _)).calm
    (fun w hC => by cases hC.2)
  have hsettle := settle_eq_iff hb.attachable
  constructor
  · rintro ⟨d', hrestored, hbefore, -⟩
    rcases hrun with ⟨_, w, hok, haccepted, config, hconfig, hw⟩ | ⟨e, w, herror, -⟩
    · obtain rfl : d' = w.state := congrArg Prod.snd (hrestored.symm.trans hok)
      rw [hw] at hbefore
      have hsame : Accepted env b d ∧ restoredAuth env b d = p.files .auth :=
        ⟨haccepted, by simpa [restoredDisk] using hbefore.auth⟩
      obtain ⟨hurl, hsecret, hauth⟩ := hauth.mp hsame
      refine ⟨hurl, by simpa [restoredDisk] using hbefore.exists_config.symm, hsettle.mp ?_, hsecret, hauth⟩
      have hdata := hbefore.config
      rw [hb.config_before] at hdata
      have hread : readConfig env ((restoredDisk d config (restoredAuth env b d)).files .config) =
          .ok (settle document) := by
        simp only [restoredDisk, Disk.files_set, Disk.files_setSecret]
        show parseConfig env config = _
        rw [parseConfig, hconfig]
      exact Except.ok.inj (hread.symm.trans hdata)
    · cases hrestored.symm.trans herror
  · intro hrestorable
    obtain ⟨haccepted, hrestored⟩ := hauth.mpr ⟨hrestorable.baseUrl, hrestorable.secret, hrestorable.auth⟩
    rcases hrun with ⟨_, w, hok, -, config, hconfig, hw⟩ | ⟨e, w, -, -, hfailed⟩
    · refine ⟨w.state, hok, ⟨?_, ?_, ?_⟩, ?_, ?_, ?_⟩
      · rw [hb.config_before, hw]
        simp only [restoredDisk, Disk.files_set, Disk.files_setSecret]
        show parseConfig env config = _
        rw [parseConfig, hconfig, hsettle.mpr hrestorable.kept]
      · rw [hw, hrestorable.config]
        simp [restoredDisk]
      · rw [hw, ← hrestored]
        simp [restoredDisk]
      all_goals
        rw [hw]
        simp [restoredDisk]
    · exact absurd haccepted (hfailed.resolve_left (by decide))

end

/-! ## The authentication of the gateway -/

/-- The keys that `escape_json_string` makes a JSON string of: of the control characters it escapes the
line breaks only. -/
def Printable (key : String) : Prop := ∀ c ∈ key.toList, c.toNat < 0x20 → c = '\n' ∨ c = '\r'

instance (key : String) : Decidable (Printable key) :=
  List.decidableBAll (fun c : Char => c.toNat < 0x20 → c = '\n' ∨ c = '\r') key.toList

/-- The value that `auth_content` writes. -/
def apiKeyAuth (localKey : String) : Json :=
  .ofFields [("OPENAI_API_KEY", .string localKey), ("auth_mode", .string "apikey")]

/-- The value that `account_auth_content` writes. -/
def accountAuth (env : Env) (tokens : TokenSet) (providerAccountId : String) : Json :=
  .ofFields
    [("OPENAI_API_KEY", .null), ("last_refresh", .string (env.lastRefresh tokens)),
      ("tokens", .ofFields ([("access_token", .string tokens.accessToken),
        ("account_id", .string providerAccountId),
        ("refresh_token", .string (tokens.refreshToken.getD ""))] ++
        tokens.idToken.toList.map fun idToken => ("id_token", .string idToken)))]

/-- `serde_json` reads the authentication of a gateway, unless the key spoils the text. -/
structure ReadsAuth (env : Env) (attach : LocalAttach) : Prop where
  apiKey : env.fromStr (authContent attach.localKey) =
    if Printable attach.localKey then some (apiKeyAuth attach.localKey) else none
  account : ∀ oauth ∈ attach.options.boundOauth,
    env.fromStr (accountAuthContent env oauth.tokens oauth.providerAccountId) =
      some (accountAuth env oauth.tokens oauth.providerAccountId)

/-- A restore recognises the authentication of the gateway by the digest of its credential. -/
def Recognisable (env : Env) (attach : LocalAttach) : Prop :=
  match attach.options.boundOauth.filter fun oauth => oauth.tokens.idToken.isSome with
  | some oauth => keyHash env (trim oauth.tokens.accessToken) = keyHash env oauth.tokens.accessToken
  | none => Printable attach.localKey

section
variable {env : Env} {p : Disk} {attach : LocalAttach} {b : ProfileBackup}

theorem authMatchesSnapshot_authContent (hattach : Normalized attach) (hreads : ReadsAuth env attach) :
    authMatchesSnapshot env (some (.text (authContent attach.localKey))) (keyHash env attach.localKey) =
      .ok (decide (Printable attach.localKey)) := by
  rw [authMatchesSnapshot, snapshotMatches, snapshotText]
  dsimp only
  rw [Option.bind_some, hreads.apiKey]
  by_cases hkey : Printable attach.localKey
  · simp [hkey, apiKeyAuth, Json.Fields.get, List.lookup, Json.asStr, hattach.localKey]
  · simp [hkey]

theorem accountAuthMatchesSnapshot_content {tokens : TokenSet} {providerAccountId : String}
    (hreads : env.fromStr (accountAuthContent env tokens providerAccountId) =
      some (accountAuth env tokens providerAccountId)) :
    accountAuthMatchesSnapshot env (some (.text (accountAuthContent env tokens providerAccountId)))
        (keyHash env tokens.accessToken) =
      .ok (decide (keyHash env (trim tokens.accessToken) = keyHash env tokens.accessToken)) := by
  have hkind : authCredentialKind (accountAuth env tokens providerAccountId) = some .oauthAccount := by
    have hmode : (accountAuth env tokens providerAccountId).get "auth_mode" = none := by
      simp [accountAuth, Json.Fields.get, List.lookup]
    have hkey : (accountAuth env tokens providerAccountId).get "OPENAI_API_KEY" = some .null := by
      simp [accountAuth, Json.Fields.get, List.lookup]
    obtain ⟨fields, htokens⟩ : ∃ fields,
        (accountAuth env tokens providerAccountId).get "tokens" = some (.object fields) :=
      ⟨_, (Json.get_ofFields _ _).trans rfl⟩
    rw [authCredentialKind, hmode, hkey, htokens]
    rfl
  have htoken : (((accountAuth env tokens providerAccountId).get "tokens").bind (·.get "access_token")).bind
      Json.asStr = some tokens.accessToken := by
    cases hid : tokens.idToken <;> simp [accountAuth, hid, Json.Fields.get, List.lookup, Json.asStr]
  rw [accountAuthMatchesSnapshot, snapshotMatches, snapshotText]
  dsimp only
  rw [Option.bind_some, hreads, Option.any_some, hkind, htoken]
  simp

theorem managedAuth_matches (h : env.Lawful) (hattach : Normalized attach) (hreads : ReadsAuth env attach)
    (hb : AttachedBy env attach b) :
    managedAuthMatchesSnapshot env (some (.text (managedAuth env attach))) b = .ok true ↔
      Recognisable env attach := by
  rw [managedAuthMatchesSnapshot, hb.accountId, hb.accessHash, hb.keyHash, managedAuth, Recognisable]
  cases hoauth : attach.options.boundOauth with
  | none =>
    dsimp only [Option.map_none, projectedOauth, Option.filter_none]
    rw [authMatchesSnapshot_authContent hattach hreads]
    simp
  | some oauth =>
    have haccount := hattach.accountId oauth hoauth
    cases hid : oauth.tokens.idToken with
    | none =>
      simp only [projectedOauth, Option.map_some, Option.filter_some, hid, Option.isSome_none,
        Bool.false_eq_true, if_false, Option.map_none, ne_eq, haccount, not_false_eq_true, if_true]
      rw [authMatchesSnapshot_authContent hattach hreads]
      simp
    | some idToken =>
      simp only [projectedOauth, Option.map_some, Option.filter_some, hid, Option.isSome_some, if_true,
        ne_eq, haccount, not_false_eq_true, true_and, keyHash]
      rw [if_pos (isHash_sha256Hex h _)]
      have hmatches := accountAuthMatchesSnapshot_content (hreads.account oauth hoauth)
      rw [keyHash] at hmatches
      rw [hmatches, keyHash, Except.ok.injEq, decide_eq_true_iff]

end

/-! ## A sample environment

Its libraries read what they print, and know the texts of one gateway and one account. -/

section

theorem countable_of_injective {α β : Type} [Countable β] (f : α → β) (h : ∀ a b, f a = f b → a = b) :
    Countable α := Function.Injective.countable (f := f) fun a b => h a b

instance countableChar : Countable Char := countable_of_injective Char.toNat fun _ _ h => Char.toNat_inj.mp h

instance countableString : Countable String := countable_of_injective String.toList fun _ _ h => String.toList_injective h

deriving instance Countable for TomlValue
deriving instance Countable for ProfileBackup
deriving instance Countable for AccountProfileBackup

instance {α : Type} [Countable α] : Countable (TomlTable α) :=
  countable_of_injective Finmap.entries fun _ _ h => Finmap.ext h

instance : Countable SubItem := countable_of_injective (β := TomlTable TomlValue ⊕ TomlValue)
  (fun | .table fields => .inl fields | .value v => .inr v) (by rintro (_ | _) (_ | _) h <;> simp_all)

instance : Countable Item := countable_of_injective (β := TomlTable SubItem ⊕ TomlValue)
  (fun | .table entries => .inl entries | .value v => .inr v) (by rintro (_ | _) (_ | _) h <;> simp_all)

/-- A text for each value, none of them empty. -/
noncomputable def codeOf {α : Type} [Countable α] (value : α) : String :=
  String.ofList (List.replicate ((exists_injective_nat α).choose value + 1) '#')

theorem codeOf_inj {α : Type} [Countable α] (a b : α) (h : codeOf a = codeOf b) : a = b := by
  have hlength := congrArg String.length h
  simp only [codeOf, String.length_ofList, List.length_replicate] at hlength
  exact (exists_injective_nat α).choose_spec (by omega)

open Classical in
/-- The value of a text. -/
noncomputable def decodeWith {α : Type} (code : α → String) (text : String) : Except String α :=
  if h : ∃ value, code value = text then .ok h.choose else .error "unexpected text"

theorem decodeWith_code {α : Type} {code : α → String} (h : ∀ a b, code a = code b → a = b) (value : α) :
    decodeWith code (code value) = .ok value := by
  have hcode : ∃ value', code value' = code value := ⟨value, rfl⟩
  rw [decodeWith, dif_pos hcode, h _ _ hcode.choose_spec]

/-- The text of a document: an empty document is an empty text. -/
noncomputable def sampleToml (document : Document) : String := if document = ∅ then "" else codeOf document

theorem sampleToml_inj (a b : Document) (h : sampleToml a = sampleToml b) : a = b := by
  have hne (document : Document) : codeOf document ≠ "" := by
    intro h
    have hlength := congrArg String.length h
    simp [codeOf] at hlength
  rw [sampleToml, sampleToml] at h
  split_ifs at h with ha hb hb
  · rw [ha, hb]
  · exact absurd h.symm (hne b)
  · exact absurd h (hne a)
  · exact codeOf_inj a b h

theorem access_notBlank : Text.trim "access" ≠ "" := by
  decide

theorem refresh_notBlank : ∀ value ∈ some "refresh", Text.trim value ≠ "" := by
  rintro _ ⟨⟩
  decide

theorem firstGeneration_lt : 0 < 2 ^ 64 := by
  decide

def sampleTokens : TokenSet where
  accessToken := "access"
  refreshToken := some "refresh"
  idToken := some "id"
  expiresAtMs := none
  issuedAtMs := 0
  generation := 0
  access_notBlank
  refresh_notBlank
  id_notBlank := by rintro _ ⟨⟩; decide
  generation_lt := firstGeneration_lt

/-- What `to_string_pretty` makes of the account's authentication. -/
def sampleAccountText : String :=
  "\x7b\n  \"OPENAI_API_KEY\": null,\n  \"last_refresh\": \"2026-01-01T00:00:00Z\",\n  \"tokens\": \x7b\n" ++
  "    \"access_token\": \"access\",\n    \"account_id\": \"acct\",\n    \"id_token\": \"id\",\n" ++
  "    \"refresh_token\": \"refresh\"\n  \x7d\n\x7d"

def sampleSha256Hex (content : Content) : String :=
  if content = .text "\x7b\x7d" then "44136fa355b3678a1146ad16f7e8649e94fb4fc21fe77e8310c060f61caaff8a"
  else if content = .text "zrs_key" then "9d49b53ba7b09d7a25eb2ec1ea58b74e369b0e3b4fed72dec4b8aaf7cf27968c"
  else "0000000000000000000000000000000000000000000000000000000000000000"

noncomputable def sampleEnv : Env where
  sha256Hex := sampleSha256Hex
  parseToml text := if text = "" then .ok ∅ else decodeWith sampleToml text
  printToml _ document := sampleToml document
  fromStr text :=
    if text = authContent "zrs_key" then some (apiKeyAuth "zrs_key")
    else if text = sampleAccountText ++ "\n" then some (.ofFields
      [("OPENAI_API_KEY", .null), ("last_refresh", .string "2026-01-01T00:00:00Z"),
        ("tokens", .ofFields [("access_token", .string "access"), ("account_id", .string "acct"),
          ("refresh_token", .string "refresh"), ("id_token", .string "id")])])
    else if text = "\x7b\x7d" then some (.object [])
    else none
  toStringPretty _ := sampleAccountText
  readBackup := decodeWith codeOf
  writeBackup := codeOf
  readAccountBackup := decodeWith codeOf
  writeAccountBackup := codeOf
  lastRefresh _ := "2026-01-01T00:00:00Z"
  buildManagedModelCatalog _ _ content := .ok content
  isRelayManagedModelCatalog _ := false
  configuredCatalogMatchesPath path := path = "/home/user/zenith/codex-model-catalog.json"
  catalogPath := "/home/user/zenith/codex-model-catalog.json"
  profileDir := "/home/user/.codex"
  display
    | .config => "config.toml"
    | .auth => "auth.json"
    | .backup => "codex-default.json"
    | .accountBackup => "codex-account.json"
    | .catalog => "codex-model-catalog.json"
  utf8Error _ := "invalid utf-8 sequence"
  ioError _ := "No space left on device"
  secretError := ⟨.secretStoreUnavailable, "the system secret store is not available"⟩

theorem sampleEnv_lawful : sampleEnv.Lawful where
  length_sha256Hex content := by
    show (sampleSha256Hex content).utf8ByteSize = 64
    rw [sampleSha256Hex]
    split_ifs <;> decide
  parse_print _ document := by
    show (if sampleToml document = "" then Except.ok ∅ else decodeWith sampleToml (sampleToml document)) = _
    rw [decodeWith_code sampleToml_inj]
    split
    case isTrue h => rw [sampleToml_inj document ∅ (h.trans (if_pos rfl).symm)]
    case isFalse => rfl
  read_write := decodeWith_code codeOf_inj
  read_writeAccount := decodeWith_code codeOf_inj
  portable_catalogPath := by decide

/-- A profile with these two files. -/
def sampleDisk (config auth : Option Content) : Disk where
  files
    | .config => config
    | .auth => auth
    | _ => none
  secrets _ := none

def sampleAttach : LocalAttach where
  keyId := "gateway"
  baseUrl := "http://127.0.0.1:1455/v1"
  localKey := "zrs_key"

theorem readsAuth_sample : ReadsAuth sampleEnv sampleAttach where
  apiKey := by
    have hkey : Printable "zrs_key" := by decide
    simp only [sampleEnv, sampleAttach, hkey, if_true]
  account := nofun

theorem unbound_sampleDisk (config auth : Option Content) : Unbound (sampleDisk config auth) := ⟨rfl, rfl, rfl⟩

theorem normalize_sampleAttach : sampleAttach.normalize = .ok sampleAttach := by rfl

end

/-! ## An attach and a restore -/

/-- The profiles, and the gateways, for which an attach can be taken back. -/
structure Reversible (env : Env) (attach : LocalAttach) (p : Disk) : Prop where
  baseUrl : trim attach.baseUrl ≠ ""
  config : (p.files .config).isSome
  kept : ∀ document, readConfig env (p.files .config) = .ok document → Kept document
  auth : p.files .auth = some (.text (managedAuth env attach)) ∨
    (Recognisable env attach ∧ (p.files .auth = none ∨ (previousAuthText (p.files .auth)).isSome))

section
variable {env : Env} {p d : Disk} {attach gateway : LocalAttach} {found : AttachInspection}

theorem restorable_attached_iff (h : env.Lawful) (hattach : Normalized gateway)
    (hreads : ReadsAuth env gateway) (hd : AttachedDisk env gateway p found d) :
    Restorable env p found.document (attachedBackup env gateway p found) d ↔ Reversible env gateway p := by
  have hmatches := managedAuth_matches h hattach hreads
    (show AttachedBy env gateway (attachedBackup env gateway p found) from ⟨rfl, rfl, rfl, rfl⟩)
  have hauth := hd.auth
  have hsecret : d.secrets backupSecretRef = previousAuthText (p.files .auth) := by
    rw [hd.secret]
    simp [keptDisk]
  constructor
  · rintro ⟨hurl, hconfig, hkept, -, hrestored⟩
    refine ⟨hurl, hconfig, fun document hread => ?_, ?_⟩
    · obtain rfl := Except.ok.inj (hread.symm.trans hd.bound.config_before)
      exact hkept
    · rw [hauth, hmatches] at hrestored
      exact hrestored.imp Eq.symm id
  · rintro ⟨hurl, hconfig, hkept, hrestored⟩
    refine ⟨hurl, hconfig, hkept _ hd.bound.config_before, fun _ hsome => hsecret ▸ hsome, ?_⟩
    rw [hauth, hmatches]
    exact hrestored.imp Eq.symm id

/-- An undisturbed attach of an unbound profile that returned. -/
theorem attachedDisk_of_calm (h : env.Lawful) (hp : Unbound p) (hgateway : attach.normalize = .ok gateway)
    (hattached : (attachLocalLocked env attach).calm p = (.ok (), d)) :
    ∃ found, AttachedDisk env gateway p found d := by
  have hrun := (attach_meets (w := ⟨p, []⟩) (A := (· = .done)) attach h hp rfl (within_nil _)
    (by decide)).calm (fun w hC => nomatch hC.1)
  rcases hrun with ⟨_, w, hok, gateway', found, hgateway', -, hw⟩ | ⟨e, w, herror, -⟩
  · obtain rfl := Except.ok.inj (hgateway.symm.trans hgateway')
    obtain rfl : d = w.state := congrArg Prod.snd (hattached.symm.trans hok)
    exact ⟨found, hw⟩
  · exact nomatch hattached.symm.trans herror

/-- An attach that finds nothing wrong succeeds. -/
theorem attached_of_inspect (h : env.Lawful) (hp : Unbound p) (hgateway : attach.normalize = .ok gateway)
    (hinspect : inspectAttach env gateway p = .ok found) :
    ∃ d, (attachLocalLocked env attach).calm p = (.ok (), d) ∧ AttachedDisk env gateway p found d := by
  have hrun := (attach_meets (w := ⟨p, []⟩) (A := (· = .done)) attach h hp rfl (within_nil _)
    (by decide)).calm (fun w hC => nomatch hC.1)
  rcases hrun with ⟨_, w, hok, gateway', found', hgateway', hfound', hw⟩ | ⟨e, w, -, -, herror⟩
  · obtain rfl := Except.ok.inj (hgateway.symm.trans hgateway')
    obtain rfl := Except.ok.inj (hinspect.symm.trans hfound')
    exact ⟨w.state, hok, hw⟩
  · exact absurd hinspect (herror gateway hgateway found)

theorem attach_reversible_iff (h : env.Lawful) (hp : Unbound p) (hgateway : attach.normalize = .ok gateway)
    (hreads : ReadsAuth env gateway) (hsha : Distinguished env (p.files .auth))
    (hattached : (attachLocalLocked env attach).calm p = (.ok (), d)) :
    (∃ d', (restoreLocalLocked env).calm d = (.ok (), d') ∧ AsBefore env p d' ∧ Unbound d') ↔
      Reversible env gateway p := by
  obtain ⟨found, hd⟩ := attachedDisk_of_calm h hp hgateway hattached
  rw [restored_iff h hd.bound hsha]
  exact restorable_attached_iff h (normalized_of_normalize hgateway) hreads hd

/-- What an attach finds in a sample profile with an empty configuration or none. -/
def sampleFound : AttachInspection where
  document := ∅
  existingBackup := none
  externalTakeover := false
  hadManagedCatalog := false
  catalog := none
  managedModelReasoningEffort := none

theorem distinguished_sample : Distinguished sampleEnv (some (.text "\x7b\x7d")) := by
  rintro _ ⟨⟩ c hsame
  by_contra hne
  have hsame : sampleSha256Hex c = sampleSha256Hex (.text "\x7b\x7d") := hsame
  rw [sampleSha256Hex, if_neg hne, sampleSha256Hex, if_pos rfl] at hsame
  split at hsame <;> revert hsame <;> decide

theorem attach_reversible_sample : ∃ d,
    (attachLocalLocked sampleEnv sampleAttach).calm (sampleDisk (some (.text "")) (some (.text "\x7b\x7d"))) =
      (.ok (), d) ∧
    ((∃ d', (restoreLocalLocked sampleEnv).calm d = (.ok (), d') ∧
        AsBefore sampleEnv (sampleDisk (some (.text "")) (some (.text "\x7b\x7d"))) d' ∧ Unbound d') ↔
      Reversible sampleEnv sampleAttach (sampleDisk (some (.text "")) (some (.text "\x7b\x7d")))) := by
  obtain ⟨d, hattached, -⟩ := attached_of_inspect sampleEnv_lawful
    (unbound_sampleDisk (some (.text "")) (some (.text "\x7b\x7d"))) normalize_sampleAttach
    (show inspectAttach sampleEnv sampleAttach _ = .ok sampleFound from rfl)
  exact ⟨d, hattached, attach_reversible_iff sampleEnv_lawful (unbound_sampleDisk _ _) normalize_sampleAttach
    readsAuth_sample distinguished_sample hattached⟩

/-- A profile without `config.toml`: the restore leaves an empty one. -/
theorem attach_leaves_config : ∃ d,
    (attachLocalLocked sampleEnv sampleAttach).calm (sampleDisk none none) = (.ok (), d) ∧
    ¬∃ d', (restoreLocalLocked sampleEnv).calm d = (.ok (), d') ∧
      AsBefore sampleEnv (sampleDisk none none) d' ∧ Unbound d' := by
  obtain ⟨d, hattached, hd⟩ := attached_of_inspect sampleEnv_lawful (unbound_sampleDisk none none)
    normalize_sampleAttach (show inspectAttach sampleEnv sampleAttach _ = .ok sampleFound from rfl)
  refine ⟨d, hattached, fun hrestored => ?_⟩
  have hrestorable := (restored_iff sampleEnv_lawful hd.bound nofun).mp hrestored
  exact nomatch hrestorable.config

end

end Zenith.Profiles

import Mathlib
import Zenith.Accounts.ImportIdentity

/-!
# The account of an id token

An entry may name its e-mail, account and user itself, or leave them to the claims of its tokens. Account
and user come out the same. The e-mail does not: from a claim it has to be a safe label, which has no `@`,
so an entry that leaves its e-mail to the token is another account than one that names it
(`same_key_iff`).
-/

namespace Zenith.Text

/-- A function of characters that does not tell a capital from its small letter. -/
theorem toLower_congr {α : Type*} (f : Char → α)
    (h : ∀ n : Fin 26, f (Char.ofNat (65 + n)).toLower = f (Char.ofNat (65 + n))) (c : Char) :
    f c.toLower = f c := by
  by_cases hupper : c.val ≥ 'A'.val ∧ c.val ≤ 'Z'.val
  · have hlow : 65 ≤ c.toNat := UInt32.le_iff_toNat_le.mp hupper.1
    have hhigh : c.toNat ≤ 90 := UInt32.le_iff_toNat_le.mp hupper.2
    have hletter := h ⟨c.toNat - 65, by omega⟩
    rwa [show 65 + (c.toNat - 65) = c.toNat by omega, Char.ofNat_toNat] at hletter
  · rw [Char.toLower, dif_neg hupper]

theorem utf8ByteSize_ofList (chars : List Char) :
    (String.ofList chars).utf8ByteSize = (chars.map Char.utf8Size).sum := by
  induction chars with
  | nil => rfl
  | cons c chars ih =>
    have hcons : String.ofList (c :: chars) = String.singleton c ++ String.ofList chars :=
      String.toList_injective (by simp)
    rw [hcons, String.utf8ByteSize_append, ih, String.utf8ByteSize_singleton, List.map_cons, List.sum_cons]

theorem utf8ByteSize_asciiLower (text : String) : (asciiLower text).utf8ByteSize = text.utf8ByteSize := by
  conv_rhs => rw [← String.ofList_toList (s := text)]
  rw [asciiLower, utf8ByteSize_ofList, utf8ByteSize_ofList, List.map_map]
  exact congrArg List.sum (List.map_congr_left fun c _ => toLower_congr Char.utf8Size (by decide) c)

end Zenith.Text

namespace Zenith.Accounts.Imports

open Zenith.Bytes Zenith.Tables Zenith.Text ParsedImportItem

/-! ## Safe labels -/

/-- A label is safe or not whatever its case. -/
theorem safeMetadata_congr {value value' : String}
    (h : asciiLower (trim value) = asciiLower (trim value')) :
    (safeMetadata (some value)).isSome = (safeMetadata (some value')).isSome := by
  have hsafe : ∀ text : String, (safeMetadata (some text)).isSome =
      (asciiLower (trim text) ≠ "" && (asciiLower (trim text)).utf8ByteSize ≤ 64 &&
        (asciiLower (trim text)).toList.all fun c => c.isAlphanum || c ∈ ['_', '-', '.', ' ']) := by
    intro text
    have hempty : (asciiLower (trim text) = "") ↔ trim text = "" := by
      rw [← String.toList_inj, asciiLower, String.toList_ofList, ← String.toList_inj]
      simp
    have hchars : (asciiLower (trim text)).toList.all (fun c => c.isAlphanum || c ∈ ['_', '-', '.', ' ']) =
        (trim text).toList.all fun c => c.isAlphanum || c ∈ ['_', '-', '.', ' '] := by
      rw [asciiLower, String.toList_ofList, List.all_map]
      congr 1
      funext c
      exact toLower_congr (fun c => c.isAlphanum || c ∈ ['_', '-', '.', ' ']) (by decide) c
    rw [hchars, utf8ByteSize_asciiLower, safeMetadata, safeText, Option.map_some]
    simp only [Option.filter, ne_eq, hempty]
    split <;> simp_all
  rw [hsafe, hsafe, h]

theorem safeMetadata_eq {value label : String} (h : safeMetadata (some value) = some label) :
    label = trim value := by
  rw [safeMetadata, safeText, Option.map_some, Option.filter_eq_some_iff] at h
  exact (Option.some.inj h.1).symm

/-! ## What the tokens say -/

/-- The e-mails that the claims carry, the account's own first. -/
def emailClaims (claims : Json) : List String :=
  ((claims.get "email").bind Json.asStr).toList ++
    (((claims.get "https://api.openai.com/profile").bind Json.asObject).bind fun profile =>
      (profile.get "email").bind Json.asStr).toList

def accountClaim (claims : Json) : Option String :=
  ((claims.get "https://api.openai.com/auth").bind Json.asObject).bind fun auth =>
    stringField auth ["chatgpt_account_id", "account_id"]

def userClaim (claims : Json) : Option String :=
  ((claims.get "https://api.openai.com/auth").bind Json.asObject).bind fun auth =>
    stringField auth ["chatgpt_user_id", "user_id"]

/-- The claims of a token, if it has some that can be read. -/
def tokenClaims (lib : ImportLibraries) (token : String) : Option Json :=
  (decodeUnverifiedJwtPayload lib token).filter Json.isObject

/-- The e-mails of some tokens. -/
def tokenEmails (lib : ImportLibraries) (tokens : List String) : List String :=
  tokens.flatMap fun token => ((tokenClaims lib token).map emailClaims).getD []

/-- The first e-mail that is a safe label. -/
def safeEmail (emails : List String) : Option String :=
  emails.findSome? fun email => safeMetadata (some email)

theorem safeEmail_append (emails emails' : List String) :
    safeEmail (emails ++ emails') = (safeEmail emails).or (safeEmail emails') :=
  List.findSome?_append

theorem safeEmail_toList (email : Option String) : safeEmail email.toList = safeMetadata email := by
  cases email with
  | none => rfl
  | some email => simp [safeEmail]

theorem claimsMetadata_email (claims : Json) :
    (claimsMetadata claims).email = safeEmail (emailClaims claims) := by
  rw [emailClaims, safeEmail_append, safeEmail_toList, safeEmail_toList, claimsMetadata]
  cases (claims.get "https://api.openai.com/profile").bind Json.asObject <;> rfl

theorem claimsMetadata_accountId (claims : Json) :
    (claimsMetadata claims).accountId = safeIdentifier (accountClaim claims) := by
  rw [accountClaim, claimsMetadata]
  cases (claims.get "https://api.openai.com/auth").bind Json.asObject <;> rfl

theorem claimsMetadata_userId (claims : Json) :
    (claimsMetadata claims).userId = safeIdentifier (userClaim claims) := by
  rw [userClaim, claimsMetadata]
  cases (claims.get "https://api.openai.com/auth").bind Json.asObject <;> rfl

theorem foldl_withToken_email (lib : ImportLibraries) (tokens : List String)
    (metadata : ImportedJwtMetadata) :
    (tokens.foldl (ImportedJwtMetadata.withToken lib) metadata).email =
      metadata.email.or (safeEmail (tokenEmails lib tokens)) := by
  induction tokens generalizing metadata with
  | nil => exact Option.or_none.symm
  | cons token tokens ih =>
    have hemails : tokenEmails lib (token :: tokens) =
        ((tokenClaims lib token).map emailClaims).getD [] ++ tokenEmails lib tokens := List.flatMap_cons
    rw [List.foldl_cons, ih, hemails, safeEmail_append, ← Option.or_assoc]
    congr 1
    rw [ImportedJwtMetadata.withToken, tokenClaims]
    split
    case h_1 hnone => rw [hnone]; exact Option.or_none.symm
    case h_2 claims hclaims =>
      rw [hclaims, Option.map_some, Option.getD_some, ← claimsMetadata_email]
      rfl

/-- The e-mail of the tokens. -/
theorem importedJwtMetadata_email (lib : ImportLibraries) (idToken accessToken : Option String) :
    (importedJwtMetadata lib idToken accessToken).email =
      safeEmail (tokenEmails lib (idToken.toList ++ accessToken.toList)) := by
  rw [importedJwtMetadata, foldl_withToken_email]
  rfl

/-- Later tokens do not change what was found. -/
theorem foldl_withToken_some (lib : ImportLibraries) (tokens : List String)
    (metadata : ImportedJwtMetadata) :
    (metadata.accountId.isSome = true →
      (tokens.foldl (ImportedJwtMetadata.withToken lib) metadata).accountId = metadata.accountId) ∧
    (metadata.userId.isSome = true →
      (tokens.foldl (ImportedJwtMetadata.withToken lib) metadata).userId = metadata.userId) := by
  induction tokens generalizing metadata with
  | nil => exact ⟨fun _ => rfl, fun _ => rfl⟩
  | cons token tokens ih =>
    obtain ⟨haccount, huser⟩ := ih (metadata.withToken lib token)
    have hkept : (metadata.accountId.isSome = true →
          (metadata.withToken lib token).accountId = metadata.accountId) ∧
        (metadata.userId.isSome = true → (metadata.withToken lib token).userId = metadata.userId) := by
      unfold ImportedJwtMetadata.withToken
      split
      · exact ⟨fun _ => rfl, fun _ => rfl⟩
      · exact ⟨Option.or_of_isSome, Option.or_of_isSome⟩
    rw [List.foldl_cons]
    refine ⟨fun hsome => ?_, fun hsome => ?_⟩
    · rw [haccount (by rwa [hkept.1 hsome]), hkept.1 hsome]
    · rw [huser (by rwa [hkept.2 hsome]), hkept.2 hsome]

variable {lib : ImportLibraries}

/-- The claims of the id token come first. -/
theorem importedJwtMetadata_idToken {token : String} {claims : Json}
    (h : tokenClaims lib token = some claims) (accessToken : Option String) :
    ((safeIdentifier (accountClaim claims)).isSome = true →
      (importedJwtMetadata lib (some token) accessToken).accountId = safeIdentifier (accountClaim claims)) ∧
    ((safeIdentifier (userClaim claims)).isSome = true →
      (importedJwtMetadata lib (some token) accessToken).userId = safeIdentifier (userClaim claims)) := by
  have hfirst : ImportedJwtMetadata.withToken lib {} token = claimsMetadata claims := by
    rw [ImportedJwtMetadata.withToken, show (decodeUnverifiedJwtPayload lib token).filter Json.isObject =
      some claims from h]
    simp [ImportedJwtMetadata.or]
  rw [importedJwtMetadata, Option.toList_some, List.singleton_append, List.foldl_cons, hfirst,
    ← claimsMetadata_accountId, ← claimsMetadata_userId]
  exact foldl_withToken_some lib accessToken.toList (claimsMetadata claims)

/-! ## Entries of one account -/

/-- Which tokens count, API keys do not. -/
theorem selectCredentials_tokens {secrets : ImportSecretMaterial} {explicitAuthMode : Option String}
    {selection : Selection} (h : selectCredentials secrets explicitAuthMode = .ok selection)
    (htokens : selection.useTokens = true) : selection.useApiKey = false := by
  unfold selectCredentials at h
  dsimp only at h
  generalize (secrets.agentPrivateKey.isSome || secrets.agentRuntimeId.isSome ||
    secrets.agentTaskId.isSome) = hasAgentIdentity at h
  split at h
  case isTrue => exact nomatch h
  case isFalse =>
    split at h
    case isTrue =>
      split at h
      case isTrue =>
        obtain rfl := Except.ok.inj h
        exact nomatch htokens
      case isFalse =>
        split at h
        case isTrue =>
          obtain rfl := Except.ok.inj h
          rfl
        case isFalse => exact nomatch h
    case isFalse hmixed =>
      split at h
      case isTrue => exact nomatch h
      case isFalse =>
        obtain rfl := Except.ok.inj h
        rw [Bool.and_eq_true, Bool.or_eq_true, not_and, not_or] at hmixed
        exact Bool.eq_false_of_not_eq_true fun hkey => (hmixed hkey).1 htokens

/-- An account, as the claims of its id token have it. -/
structure TokenAccount (lib : ImportLibraries) where
  token : String
  claims : Json
  email : String
  accountId : String
  userId : String
  readable : tokenClaims lib token = some claims
  emailClaim : (emailClaims claims).head? = some email
  account : accountClaim claims = some accountId
  accountSafe : (safeIdentifier (some accountId)).isSome = true
  user : userClaim claims = some userId
  userSafe : (safeIdentifier (some userId)).isSome = true

/-- What an entry says itself. -/
def explicitParts (format : ImportFormat) (value : Json) : Option ItemParts :=
  value.asObject.map (itemParts format)

def explicitEmail (format : ImportFormat) (value : Json) : Option String :=
  (explicitParts format value).bind ItemParts.email

def explicitAccountId (format : ImportFormat) (value : Json) : Option String :=
  (explicitParts format value).bind fun parts => parts.identifier ["id"] accountIdFields

def explicitUserId (format : ImportFormat) (value : Json) : Option String :=
  (explicitParts format value).bind fun parts => parts.identifier [] userIdFields

/-- The entry holds the token of the account, and what it says itself is true of it. -/
structure EntryOf {lib : ImportLibraries} (account : TokenAccount lib) (format : ImportFormat)
    (value : Json) (item : ParsedImportItem) : Prop where
  holds : item.secrets.idToken = some account.token
  email : ∀ email, explicitEmail format value = some email → email = account.email
  accountId : ∀ accountId, explicitAccountId format value = some accountId → accountId = account.accountId
  userId : ∀ userId, explicitUserId format value = some userId → userId = account.userId

/-- The access token that an entry holds. -/
def explicitAccessToken (format : ImportFormat) (value : Json) : Option String :=
  (explicitParts format value).bind fun parts => parts.secrets.accessToken

/-- The first e-mail in the tokens that is a safe label. -/
def tokenEmail {lib : ImportLibraries} (account : TokenAccount lib) (format : ImportFormat) (value : Json) :
    Option String :=
  safeEmail (tokenEmails lib (account.token :: (explicitAccessToken format value).toList))

/-- An identifier that is told again. -/
theorem safeIdentifier_or {explicit : Option String} {value : String}
    (h : ∀ text, explicit = some text → text = value) :
    (safeIdentifier explicit).or (safeIdentifier (some value)) = safeIdentifier (some value) := by
  cases explicit with
  | none => exact Option.none_or
  | some text =>
    rw [h text rfl]
    exact Option.or_self

variable {item : ParsedImportItem}

/-- What is parsed of an entry of the account. -/
theorem EntryOf.parsed {account : TokenAccount lib} {format : ImportFormat}
    {value : Json} {ordinal : Nat} {sourceFile : Option String}
    (h : EntryOf account format value item)
    (hparse : parseItem lib value ordinal format sourceFile = .ok item) :
    item.accountId = safeIdentifier (some account.accountId) ∧
      item.chatgptUserId = safeIdentifier (some account.userId) ∧
      item.email = (explicitEmail format value).or (tokenEmail account format value) ∧
      ∃ fingerprint, item.identityKey = identityKeyOf lib false item.accountId item.chatgptUserId
        item.email item.baseUrl fingerprint := by
  obtain ⟨hholds, -, haccount, huser⟩ := h
  unfold parseItem at hparse
  split at hparse
  case h_1 => exact nomatch hparse
  case h_2 object hobject =>
    simp only [explicitEmail, explicitAccountId, explicitUserId, tokenEmail, explicitAccessToken, explicitParts,
      hobject, Option.map_some, Option.bind_some] at haccount huser ⊢
    split at hparse
    case isTrue => exact nomatch hparse
    case isFalse =>
      dsimp only at hparse
      split at hparse
      case h_1 => exact nomatch hparse
      case h_2 selection hselection =>
        split at hparse
        case isTrue => exact nomatch hparse
        case isFalse =>
          generalize itemParts format object = parts at hparse hselection haccount huser ⊢
          obtain rfl := Except.ok.inj hparse
          have htokens : selection.useTokens = true := by
            by_contra hnone
            simp [Selection.secrets, hnone] at hholds
          have hkey := selectCredentials_tokens hselection htokens
          simp only [Selection.secrets, htokens, if_true] at hholds ⊢
          obtain ⟨hclaim, hclaim'⟩ := importedJwtMetadata_idToken account.readable parts.secrets.accessToken
          rw [account.account] at hclaim
          rw [account.user] at hclaim'
          refine ⟨?_, ?_, ?_, _, congrArg (fun useApiKey => identityKeyOf lib useApiKey _ _ _ _ _) hkey⟩
          · rw [hholds, hclaim account.accountSafe]
            exact safeIdentifier_or haccount
          · rw [hholds, hclaim' account.userSafe]
            exact safeIdentifier_or huser
          · exact congrArg parts.email.or (importedJwtMetadata_email lib (some account.token) _ ▸
              congrArg (fun token => (importedJwtMetadata lib token _).email) hholds)

/-! ## Keys -/

/-- When the e-mails of two entries come out the same: the e-mail is a safe label, or both entries name it,
or none does and their tokens have the same. -/
def EmailsAgree {lib : ImportLibraries} (account : TokenAccount lib) (format : ImportFormat) (value : Json)
    (format' : ImportFormat) (value' : Json) : Prop :=
  (safeMetadata (some account.email)).isSome = true ∨
    (explicitEmail format value).isSome = true ∧ (explicitEmail format' value').isSome = true ∨
    explicitEmail format value = none ∧ explicitEmail format' value' = none ∧
      normal (tokenEmail account format value) = normal (tokenEmail account format' value')

/-- In one import the second of the entries is a duplicate, wherever they stand. -/
def SecondIsDuplicate (lib : ImportLibraries) (item item' : ParsedImportItem) : Prop :=
  ∀ format sourceFile existing entries (i j : Nat) entry entry', i < j → entries[i]? = some entry →
    entries[j]? = some entry' → parseEntry lib format sourceFile entry = .ok item →
    parseEntry lib format sourceFile entry' = .ok item' →
    (importEntries lib format sourceFile existing [] entries).1[j]? =
      some (invalidRow ⟨.duplicateItem, "duplicate import item"⟩)

section
variable {lib : ImportLibraries} {format : ImportFormat} {sourceFile : Option String}
  {existing : List String}

variable {entries : List InputEntry}

/-- A key that was seen is not taken again. -/
theorem importEntries_seen {seen : List String} {j : Nat} {entry : InputEntry}
    {item : ParsedImportItem} (hentry : entries[j]? = some entry)
    (hitem : parseEntry lib format sourceFile entry = .ok item)
    (hseen : asciiLower item.identityKey ∈ seen) :
    (importEntries lib format sourceFile existing seen entries).1[j]? =
      some (invalidRow ⟨.duplicateItem, "duplicate import item"⟩) := by
  induction entries generalizing seen j with
  | nil => exact nomatch hentry
  | cons first entries ih =>
    cases j with
    | zero =>
      obtain rfl := Option.some.inj hentry
      simp only [importEntries, hitem, if_pos hseen]
      rfl
    | succ j =>
      rw [importEntries]
      cases parseEntry lib format sourceFile first with
      | error issue => exact ih hentry hseen
      | ok other =>
        dsimp only
        split
        · exact ih hentry hseen
        · exact ih hentry (List.mem_cons_of_mem _ hseen)

/-- Entries with one key are not both taken. -/
theorem importEntries_second {seen : List String} {i j : Nat}
    {entry entry' : InputEntry} {item item' : ParsedImportItem} (hij : i < j)
    (hentry : entries[i]? = some entry) (hentry' : entries[j]? = some entry')
    (hitem : parseEntry lib format sourceFile entry = .ok item)
    (hitem' : parseEntry lib format sourceFile entry' = .ok item')
    (hkeys : item.identityKey = item'.identityKey) :
    (importEntries lib format sourceFile existing seen entries).1[j]? =
      some (invalidRow ⟨.duplicateItem, "duplicate import item"⟩) := by
  induction entries generalizing seen i j with
  | nil => exact nomatch hentry
  | cons first entries ih =>
    obtain ⟨j, rfl⟩ := Nat.exists_eq_add_one.mpr (Nat.zero_lt_of_lt hij)
    cases i with
    | zero =>
      obtain rfl := Option.some.inj hentry
      simp only [importEntries, hitem]
      split
      case isTrue hseen => exact importEntries_seen hentry' hitem' (hkeys ▸ hseen)
      case isFalse => exact importEntries_seen hentry' hitem' (hkeys ▸ List.mem_cons_self)
    | succ i =>
      rw [importEntries]
      cases parseEntry lib format sourceFile first with
      | error issue => exact ih (Nat.lt_of_succ_lt_succ hij) hentry hentry'
      | ok other =>
        dsimp only
        split
        · exact ih (Nat.lt_of_succ_lt_succ hij) hentry hentry'
        · exact ih (Nat.lt_of_succ_lt_succ hij) hentry hentry'

end

section
variable {lib : ImportLibraries} {account : TokenAccount lib} {format format' : ImportFormat}
  {value value' : Json} {item item' : ParsedImportItem}

/-- The end of the seed. -/
def seedTail (email : Option String) (user : String) : String :=
  match normal email with
  | some email => ":email:" ++ email
  | none => ":user:" ++ user

theorem seedTail_inj {email email' : Option String} {user : String} :
    seedTail email user = seedTail email' user ↔ normal email = normal email' := by
  unfold seedTail
  cases normal email <;> cases normal email' <;> simp [String.ext_iff]

/-- Entries of one account have one key exactly when their e-mails agree. -/
theorem identityKeyOf_token_inj (hsha : Function.Injective lib.sha256) {accountId userId : String}
    {email email' baseUrl baseUrl' : Option String} {fingerprint fingerprint' : String} :
    identityKeyOf lib false (some accountId) (some userId) email baseUrl fingerprint =
        identityKeyOf lib false (some accountId) (some userId) email' baseUrl' fingerprint' ↔
      normal email = normal email' := by
  have hkey : ∀ (email baseUrl : Option String) (fingerprint : String),
      identityKeyOf lib false (some accountId) (some userId) email baseUrl fingerprint =
        hexEncode (lib.sha256 (utf8 ("account:" ++ ("account:" ++ (asciiLower (trim accountId) ++
          seedTail email (asciiLower (trim userId))))))) := by
    intro email baseUrl fingerprint
    cases email <;>
      simp [identityKeyOf, accountSeed, tokenIdentitySeed, seedTail, normal, sha256Hex, String.append_assoc]
  rw [hkey, hkey, ← @seedTail_inj email email' (asciiLower (trim userId))]
  constructor
  · intro h
    have htexts := utf8_injective (hsha (hexEncode_injective h))
    rwa [String.append_right_inj, String.append_right_inj, String.append_right_inj] at htexts
  · intro h
    rw [h]

/-- A token gives the account's e-mail only as a safe label. -/
theorem tokenEmail_eq_iff :
    normal (tokenEmail account format value) = normal (some account.email) ↔
      (safeMetadata (some account.email)).isSome = true := by
  obtain ⟨emails, hemails⟩ : ∃ emails, tokenEmails lib
      (account.token :: (explicitAccessToken format value).toList) = account.email :: emails := by
    obtain ⟨rest, hrest⟩ := List.head?_eq_some_iff.mp account.emailClaim
    refine ⟨rest ++ tokenEmails lib (explicitAccessToken format value).toList, ?_⟩
    rw [← List.cons_append, ← hrest, tokenEmails, List.flatMap_cons, account.readable]
    rfl
  rw [tokenEmail, hemails]
  constructor
  · intro h
    obtain ⟨email, hemail, hsame⟩ := Option.map_eq_some_iff.mp (show normal _ = some _ from h)
    obtain ⟨claim, -, hclaim⟩ := List.exists_of_findSome?_eq_some hemail
    obtain rfl := safeMetadata_eq hclaim
    rw [trim_trim] at hsame
    rw [← safeMetadata_congr hsame, hclaim]
    rfl
  · intro h
    obtain ⟨label, hlabel⟩ := Option.isSome_iff_exists.mp h
    rw [safeEmail, List.findSome?_cons, hlabel, safeMetadata_eq hlabel, normal, normal, Option.map_some,
      Option.map_some, trim_trim]

/-- Which e-mails agree. -/
theorem emailsAgree_iff (h : EntryOf account format value item) (h' : EntryOf account format' value' item') :
    normal ((explicitEmail format value).or (tokenEmail account format value)) =
        normal ((explicitEmail format' value').or (tokenEmail account format' value')) ↔
      EmailsAgree account format value format' value' := by
  unfold EmailsAgree
  cases hexplicit : explicitEmail format value with
  | none =>
    cases hexplicit' : explicitEmail format' value' with
    | none =>
      simp only [Option.none_or, Option.isSome_none, Bool.false_eq_true, false_and, true_and, false_or]
      refine ⟨.inr, fun hagree => hagree.elim (fun hsafe => ?_) id⟩
      rw [tokenEmail_eq_iff.mpr hsafe, tokenEmail_eq_iff.mpr hsafe]
    | some email =>
      rw [h'.email email hexplicit', Option.none_or, Option.some_or, tokenEmail_eq_iff]
      simp
  | some email =>
    rw [h.email email hexplicit, Option.some_or]
    cases hexplicit' : explicitEmail format' value' with
    | none =>
      rw [Option.none_or, eq_comm, tokenEmail_eq_iff]
      simp
    | some email' =>
      rw [h'.email email' hexplicit', Option.some_or]
      simp

/-- Two entries of one account have one key, and the second of them is a duplicate, exactly when their
e-mails agree. -/
theorem same_key_iff (hsha : Function.Injective lib.sha256) {ordinal ordinal' : Nat}
    {sourceFile sourceFile' : Option String}
    (hparse : parseItem lib value ordinal format sourceFile = .ok item)
    (hparse' : parseItem lib value' ordinal' format' sourceFile' = .ok item')
    (h : EntryOf account format value item) (h' : EntryOf account format' value' item') :
    (item.identityKey = item'.identityKey ∧ SecondIsDuplicate lib item item') ↔
      EmailsAgree account format value format' value' := by
  obtain ⟨haccount, huser, hemail, fingerprint, hkey⟩ := h.parsed hparse
  obtain ⟨haccount', huser', hemail', fingerprint', hkey'⟩ := h'.parsed hparse'
  have hkeys : item.identityKey = item'.identityKey ↔ EmailsAgree account format value format' value' := by
    obtain ⟨accountId, hsafe⟩ := Option.isSome_iff_exists.mp account.accountSafe
    obtain ⟨userId, hsafe'⟩ := Option.isSome_iff_exists.mp account.userSafe
    rw [hkey, hkey', haccount, haccount', huser, huser', hsafe, hsafe', identityKeyOf_token_inj hsha, hemail,
      hemail', emailsAgree_iff h h']
  constructor
  · exact fun hsame => hkeys.mp hsame.1
  · intro hagree
    refine ⟨hkeys.mpr hagree, ?_⟩
    intro format sourceFile existing entries i j entry entry' hij hentry hentry' hitem hitem'
    exact importEntries_second hij hentry hentry' hitem hitem' (hkeys.mpr hagree)

end

/-! ## Samples -/

/-- The claims of an id token. -/
def oneClaims : Json := .object [("email", .string "a@b.c"),
  ("https://api.openai.com/auth", .object [("account_id", .string "t"), ("user_id", .string "u")])]

/-- The text of the claims. -/
def oneClaimsText : String :=
  "\x7b\"email\":\"a@b.c\",\"https://api.openai.com/auth\":\x7b\"account_id\":\"t\",\"user_id\":\"u\"\x7d\x7d"

/-- The text in Base64. -/
def onePayload : String :=
  "eyJlbWFpbCI6ImFAYi5jIiwiaHR0cHM6Ly9hcGkub3BlbmFpLmNvbS9hdXRoIjp7ImFjY291bnRfaWQiOiJ0IiwidXNlcl9pZCI6InUifX0"

def oneToken : String :=
  "e30.eyJlbWFpbCI6ImFAYi5jIiwiaHR0cHM6Ly9hcGkub3BlbmFpLmNvbS9hdXRoIjp7ImFjY291bnRfaWQiOiJ0IiwidXNlcl9pZCI6InUifX0.sig"

/-- The SHA-256 digest of `account:account:t:email:a@b.c`. -/
def emailDigest : List UInt8 := [0xf2, 0xa2, 0x63, 0x8b, 0xf9, 0x9c, 0x7c, 0x98, 0x23, 0x3e, 0x62, 0xbd,
  0x0f, 0xd6, 0xa8, 0xe3, 0x02, 0xa4, 0x58, 0xe7, 0x08, 0xb1, 0xb1, 0xe2, 0x3a, 0xbf, 0xa6, 0x12,
  0x09, 0xa5, 0x48, 0xab]

/-- The SHA-256 digest of `account:account:t:user:u`. -/
def userDigest : List UInt8 := [0x7f, 0xf1, 0xe5, 0x88, 0x41, 0xdf, 0xa8, 0x4b, 0x6e, 0x10, 0x1e, 0x58,
  0x86, 0x51, 0xe3, 0x67, 0x9e, 0x8b, 0xb6, 0x03, 0x4e, 0xe5, 0xa3, 0x08, 0x01, 0xfe, 0xd6, 0xbd,
  0xd4, 0xd6, 0x23, 0x90]

def oneLibraries : ImportLibraries where
  serde := .ofTexts [(oneClaimsText, oneClaims)]
  sha256 := knownDigests "account:account:t:email:a@b.c" "account:account:t:user:u" emailDigest userDigest
  decodeBase64 chars := if chars = onePayload.toList then some (utf8 oneClaimsText) else none
  parseUrl _ := none

theorem sha256_oneLibraries : Function.Injective oneLibraries.sha256 :=
  knownDigests_injective _ _ rfl rfl (by decide)

/-- An entry that leaves all to its id token. -/
def bareEntry (accessToken : String) : Json :=
  .object [("access_token", .string accessToken), ("id_token", .string oneToken)]

/-- An entry that names its account id. -/
def accountEntry (accessToken : String) : Json := .object [("access_token", .string accessToken),
  ("account_id", .string "t"), ("id_token", .string oneToken)]

/-- An entry that names its e-mail. -/
def emailEntry (accessToken : String) : Json := .object [("access_token", .string accessToken),
  ("email", .string "a@b.c"), ("id_token", .string oneToken)]

theorem ok_of_toOption {ε α : Type} {result : Except ε α} {value : α} (h : value ∈ result.toOption) :
    result = .ok value := by
  cases result with
  | error issue => exact nomatch h
  | ok result => rw [Option.some.inj h]

/-- What there is to read in the token, and what is parsed of the entries. -/
theorem oneToken_entries : (tokenClaims oneLibraries oneToken = some oneClaims ∧
    (emailClaims oneClaims).head? = some "a@b.c" ∧ accountClaim oneClaims = some "t" ∧
    (safeIdentifier (some "t")).isSome = true ∧ userClaim oneClaims = some "u" ∧
    (safeIdentifier (some "u")).isSome = true) ∧
    ∃ item ∈ (parseItem oneLibraries (accountEntry "at-1") 0 .jsonObject none).toOption,
    ∃ named ∈ (parseItem oneLibraries (emailEntry "at-1") 0 .jsonObject none).toOption,
    ∃ bare ∈ (parseItem oneLibraries (bareEntry "at-2") 0 .jsonObject none).toOption,
      item.secrets.idToken = some oneToken ∧ named.secrets.idToken = some oneToken ∧
      bare.secrets.idToken = some oneToken ∧ item.secrets.accessToken ≠ bare.secrets.accessToken ∧
      safeEmail (tokenEmails oneLibraries [oneToken, "at-1"]) =
        safeEmail (tokenEmails oneLibraries [oneToken, "at-2"]) ∧
      named.identityKey ≠ bare.identityKey := by
  decide +kernel

def oneAccount : TokenAccount oneLibraries where
  token := oneToken
  claims := oneClaims
  email := "a@b.c"
  accountId := "t"
  userId := "u"
  readable := oneToken_entries.1.1
  emailClaim := oneToken_entries.1.2.1
  account := oneToken_entries.1.2.2.1
  accountSafe := oneToken_entries.1.2.2.2.1
  user := oneToken_entries.1.2.2.2.2.1
  userSafe := oneToken_entries.1.2.2.2.2.2

theorem bareEntry_one (htoken : item.secrets.idToken = some oneToken) :
    EntryOf oneAccount .jsonObject (bareEntry "at-2") item where
  holds := htoken
  email := nofun
  accountId := nofun
  userId := nofun

/-- Entries that leave the e-mail to the token are one account, whether or not they name its account id. -/
theorem same_key_without_email : ∃ item bare,
    parseItem oneLibraries (accountEntry "at-1") 0 .jsonObject none = .ok item ∧
    parseItem oneLibraries (bareEntry "at-2") 0 .jsonObject none = .ok bare ∧
    item.secrets.accessToken ≠ bare.secrets.accessToken ∧
    item.identityKey = bare.identityKey ∧ SecondIsDuplicate oneLibraries item bare := by
  obtain ⟨-, item, hparse, -, -, bare, hbare, htoken, -, htoken', hother, hemails, -⟩ := oneToken_entries
  replace hparse := ok_of_toOption hparse
  replace hbare := ok_of_toOption hbare
  have hentry : EntryOf oneAccount .jsonObject (accountEntry "at-1") item :=
    { holds := htoken
      email := nofun
      accountId := fun accountId h => (Option.some.inj h).symm
      userId := nofun }
  have hagree : EmailsAgree oneAccount .jsonObject (accountEntry "at-1") .jsonObject (bareEntry "at-2") :=
    .inr (.inr ⟨rfl, rfl, congrArg normal hemails⟩)
  exact ⟨item, bare, hparse, hbare, hother,
    (same_key_iff sha256_oneLibraries hparse hbare hentry (bareEntry_one htoken')).mpr hagree⟩

/-- An entry that names its e-mail and one that leaves it to the token are two accounts. -/
theorem email_splits_account : ∃ named bare,
    parseItem oneLibraries (emailEntry "at-1") 0 .jsonObject none = .ok named ∧
    parseItem oneLibraries (bareEntry "at-2") 0 .jsonObject none = .ok bare ∧
    EntryOf oneAccount .jsonObject (emailEntry "at-1") named ∧
    EntryOf oneAccount .jsonObject (bareEntry "at-2") bare ∧
    named.identityKey ≠ bare.identityKey := by
  obtain ⟨-, -, -, named, hparse, bare, hbare, -, htoken, htoken', -, -, hother⟩ := oneToken_entries
  exact ⟨named, bare, ok_of_toOption hparse, ok_of_toOption hbare,
    { holds := htoken
      email := fun email h => (Option.some.inj h).symm
      accountId := nofun
      userId := nofun }, bareEntry_one htoken', hother⟩

end Zenith.Accounts.Imports

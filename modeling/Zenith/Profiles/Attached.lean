import Mathlib
import Zenith.Profiles.Recovery

/-!
# Attaching an unbound profile

`attach_meets`: an attach of a profile that is not bound gives up before its first write, or is cut short
before the backup is written, or leaves the profile bound, wherever it stops. What it leaves at its end is
recorded in `AttachedBy`.
-/

namespace Zenith.Profiles

open Zenith.Faults Zenith.Tables Zenith.Text

/-- A profile that is not bound to the gateway. -/
structure Unbound (p : Disk) : Prop where
  backup : p.files .backup = none
  catalog : p.files .catalog = none
  secret : p.secrets backupSecretRef = none

/-- What the backup of an attach says of the gateway. -/
structure AttachedBy (env : Env) (attach : LocalAttach) (b : ProfileBackup) : Prop where
  baseUrl : b.managedBaseUrl = attach.baseUrl
  keyHash : b.managedKeyHash = keyHash env attach.localKey
  accountId : b.boundOauthAccountId = attach.options.boundOauth.map BoundOAuthProfile.accountId
  accessHash : b.managedOauthAccessHash = projectedOauth env attach.options.boundOauth

/-- What an attach finds in a profile that is not bound. -/
structure FoundUnbound (env : Env) (p : Disk) (found : AttachInspection) : Prop where
  config : readConfig env (p.files .config) = .ok found.document
  attachable : Attachable found.document
  auth : Readable (p.files .auth)
  existingBackup : found.existingBackup = none
  externalTakeover : found.externalTakeover = false
  hadManagedCatalog : found.hadManagedCatalog = false

section
variable {env : Env} {p : Disk} {attach : LocalAttach} {found : AttachInspection}

theorem inspectAttach_unbound (hp : Unbound p) (h : inspectAttach env attach p = .ok found) :
    FoundUnbound env p found := by
  obtain ⟨hbackup, hcatalog, -⟩ := hp
  rw [inspectAttach, hbackup, hcatalog] at h
  obtain ⟨config, hconfig, h⟩ := bind_eq_ok.mp h
  obtain ⟨auth, hauth, h⟩ := bind_eq_ok.mp h
  obtain ⟨document, hdocument, h⟩ := bind_eq_ok.mp h
  obtain ⟨_, hshape, h⟩ := bind_eq_ok.mp h
  split at h
  case isTrue => exact nomatch h
  case isFalse =>
    obtain ⟨existing, hexisting, h⟩ := bind_eq_ok.mp h
    obtain rfl : existing = none := (Except.ok.inj hexisting).symm
    rw [if_neg (by simp), if_neg (by simp)] at h
    split at h
    case isTrue => exact nomatch h
    case isFalse hprovider =>
      obtain ⟨_, -, h⟩ := bind_eq_ok.mp h
      obtain ⟨catalog, -, h⟩ := bind_eq_ok.mp h
      obtain rfl := (Except.ok.inj h).symm
      refine ⟨?_, attachable_of hshape (by simpa using hprovider), readable_of_snapshotText hauth, rfl, rfl, rfl⟩
      rw [readConfig, hconfig]
      exact hdocument

/-- The arguments of an attach after their checks. -/
structure Normalized (attach : LocalAttach) : Prop where
  localKey : trim attach.localKey = attach.localKey
  baseUrl : trimEndMatches attach.baseUrl '/' = attach.baseUrl
  accountId : ∀ oauth ∈ attach.options.boundOauth, trim oauth.accountId ≠ ""

theorem normalized_of_normalize {attach attach' : LocalAttach} (h : attach.normalize = .ok attach') :
    Normalized attach' := by
  rw [LocalAttach.normalize] at h
  split at h
  case h_1 => exact nomatch h
  case h_2 boundOauth hoauth =>
    dsimp only at h
    split at h
    case isTrue => exact nomatch h
    case isFalse =>
      obtain rfl := (Except.ok.inj h).symm
      refine ⟨trim_trim _, trimEndMatches_idem _ _, fun oauth hmem => ?_⟩
      obtain rfl : boundOauth = some oauth := hmem
      cases hgiven : attach.options.boundOauth with
      | none =>
        rw [hgiven] at hoauth
        exact nomatch hoauth
      | some given =>
        rw [hgiven, normalizeBoundOauth] at hoauth
        split at hoauth
        case isTrue => exact nomatch hoauth
        case isFalse hvalid =>
          obtain rfl := (Option.some.inj (Except.ok.inj hoauth)).symm
          rw [trim_trim]
          exact fun hblank => hvalid (.inl hblank)

/-- The backup of a first attach before the gateway is written into it. -/
def firstBackup (env : Env) (p : Disk) (found : AttachInspection) (supportsWebsockets : Bool) :
    ProfileBackup :=
  { newBackup env p found.document supportsWebsockets with
    previousAuthSecretRef := (previousAuthText (p.files .auth)).map fun _ => backupSecretRef
    managedModelReasoningEffortCleared := true
    managedModelReasoningEffort := found.managedModelReasoningEffort }

theorem oauthMetadataValid_of_attachedBy (h : env.Lawful) (hattach : Normalized attach) {b : ProfileBackup}
    (hb : AttachedBy env attach b) : oauthMetadataValid b = true := by
  rw [oauthMetadataValid, hb.accountId, hb.accessHash, projectedOauth]
  cases hoauth : attach.options.boundOauth with
  | none => rfl
  | some oauth =>
    have haccount := hattach.accountId oauth hoauth
    cases hid : oauth.tokens.idToken with
    | none => simp [Option.filter_some, hid, haccount]
    | some idToken => simp [Option.filter_some, hid, haccount, keyHash, isHash_sha256Hex h]

section
variable {supportsWebsockets : Bool}

theorem attachedBy_pending (b : ProfileBackup) : AttachedBy env attach (pendingBackup env attach found b) :=
  ⟨rfl, rfl, rfl, rfl⟩

theorem records_pending (h : env.Lawful) (hattach : Normalized attach) :
    Records env p found.document (pendingBackup env attach found (firstBackup env p found supportsWebsockets)) where
  version := rfl
  modelProvider := rfl
  modelCatalog := rfl
  effort := rfl
  effortCleared := rfl
  authHash := rfl
  secretRef := rfl
  isHash := isHash_sha256Hex h _
  baseUrl := hattach.baseUrl
  oauth := oauthMetadataValid_of_attachedBy h hattach (attachedBy_pending _)
  catalogPath := by
    intro path hpath
    cases hcatalog : found.catalog with
    | none =>
      simp [pendingBackup, hcatalog, firstBackup, newBackup] at hpath
    | some catalog =>
      simpa [pendingBackup, hcatalog, eq_comm] using hpath
  pendingRemove := by
    cases hcatalog : found.catalog <;> simp [pendingBackup, hcatalog, firstBackup, newBackup]

theorem records_committed (h : env.Lawful) (hattach : Normalized attach) :
    Records env p found.document (committedBackup env found.catalog
      (pendingBackup env attach found (firstBackup env p found supportsWebsockets))) where
  version := rfl
  modelProvider := rfl
  modelCatalog := rfl
  effort := rfl
  effortCleared := rfl
  authHash := rfl
  secretRef := rfl
  isHash := isHash_sha256Hex h _
  baseUrl := hattach.baseUrl
  oauth := oauthMetadataValid_of_attachedBy h hattach ⟨rfl, rfl, rfl, rfl⟩
  catalogPath := by
    intro path hpath
    obtain ⟨_, -, rfl⟩ := Option.map_eq_some_iff.mp hpath
    rfl
  pendingRemove := rfl

/-- The backup knows the catalog while it is pending, before and after the catalog is written. -/
theorem valid_pending (h : env.Lawful) (content : Option Content)
    (hcontent : content = none ∨ content = found.catalog.map .text) :
    validManagedModelCatalog env (pendingBackup env attach found (firstBackup env p found supportsWebsockets))
      content = true := by
  cases hcatalog : found.catalog with
  | none =>
    obtain rfl : content = none := by
      rcases hcontent with hcontent | hcontent
      · exact hcontent
      · rw [hcontent, hcatalog]
        rfl
    simp [validManagedModelCatalog, pendingBackup, hcatalog, firstBackup, newBackup]
  | some catalog =>
    refine valid_of_known h (by simp [pendingBackup, hcatalog]) (by rintro _ ⟨⟩) (fun hash hmem => ?_)
      (by simp [pendingBackup, hcatalog]) ?_
    · simp only [pendingBackup, hcatalog, Option.map_some, Option.mem_some_iff] at hmem
      rw [← hmem]
      exact isHash_sha256Hex h _
    · rcases hcontent with rfl | rfl
      · exact .inl rfl
      · exact .inr ⟨keyHash env catalog, by simp [pendingBackup, hcatalog], by simp [hcatalog, keyHash]⟩

theorem valid_committed (h : env.Lawful) :
    validManagedModelCatalog env (committedBackup env found.catalog
      (pendingBackup env attach found (firstBackup env p found supportsWebsockets)))
      (found.catalog.map .text) = true := by
  cases hcatalog : found.catalog with
  | none => simp [validManagedModelCatalog, committedBackup]
  | some catalog =>
    refine valid_of_known h (by simp [committedBackup]) (fun hash hmem => ?_) (by rintro _ ⟨⟩) rfl (.inl ?_)
    · simp only [committedBackup, Option.map_some, Option.mem_some_iff] at hmem
      rw [← hmem]
      exact isHash_sha256Hex h _
    · simp [committedBackup, keyHash]

/-- The configuration that an attach writes is the managed one for its backup. -/
theorem managedConfig_eq :
    managedConfig env attach found (firstBackup env p found supportsWebsockets) =
      managedDocument found.document attach.localKey attach.options.supportsWebsockets
        (pendingBackup env attach found (firstBackup env p found supportsWebsockets)) := by
  cases hcatalog : found.catalog <;>
    simp [managedConfig, managedDocument, pendingBackup, hcatalog, firstBackup, newBackup]

theorem managedConfig_committed :
    managedConfig env attach found (firstBackup env p found supportsWebsockets) =
      managedDocument found.document attach.localKey attach.options.supportsWebsockets
        (committedBackup env found.catalog
          (pendingBackup env attach found (firstBackup env p found supportsWebsockets))) := by
  cases hcatalog : found.catalog <;>
    simp [managedConfig, managedDocument, committedBackup, pendingBackup, hcatalog, firstBackup, newBackup]

end

/-- The disk once the previous authentication is in its secret. -/
def keptDisk (p : Disk) : Disk := p.setSecret backupSecretRef (previousAuthText (p.files .auth))

section
variable {w : World Disk} {A : Outcome → Prop} {supportsWebsockets : Bool}

theorem rebaseBackup_unbound (hfound : FoundUnbound env p found) :
    rebaseBackup env p found supportsWebsockets =
      { newBackup env p found.document supportsWebsockets with
        managedModelReasoningEffortCleared := true
        managedModelReasoningEffort := found.managedModelReasoningEffort } := by
  simp [rebaseBackup, hfound.existingBackup, hfound.externalTakeover, newBackup]

theorem keepPreviousAuth_meets (supportsWebsockets : Bool) (hp : Unbound p) (hfound : FoundUnbound env p found) (hw : w.state = p)
    (ho : Within A w.outcomes) :
    Meets (keepPreviousAuth env p found (rebaseBackup env p found supportsWebsockets) w)
      (fun backup w' => backup = firstBackup env p found supportsWebsockets ∧ w'.state = keptDisk p ∧
        Within A w'.outcomes)
      (fun _ w' => A .failed ∧ w'.state = p) (fun w' => A .crashed ∧ w'.state = p) := by
  rw [keepPreviousAuth, hfound.existingBackup, rebaseBackup_unbound hfound]
  simp only [Option.isNone_none, if_true]
  cases hauth : previousAuthText (p.files .auth) with
  | none =>
    refine ⟨by rw [firstBackup, hauth]; rfl, ?_, ho⟩
    rw [hw, keptDisk, hauth, Disk.setSecret_self hp.secret]
  | some text =>
    rw [meets_bind]
    refine meets_saveSecret ho (fun o ho => ⟨by rw [firstBackup, hauth]; rfl, ?_, ho⟩)
      (fun hA _ _ => ⟨hA, hw⟩) fun hA _ _ => ⟨hA, hw⟩
    rw [keptDisk, hauth, hw]

/-- The backup an attach leaves at its end. -/
def attachedBackup (env : Env) (attach : LocalAttach) (p : Disk) (found : AttachInspection) : ProfileBackup :=
  committedBackup env found.catalog
    (pendingBackup env attach found (firstBackup env p found attach.options.supportsWebsockets))

/-- The disk an attach leaves at its end. -/
structure AttachedDisk (env : Env) (attach : LocalAttach) (p : Disk) (found : AttachInspection) (d : Disk) :
    Prop where
  bound : Bound env p found.document (attachedBackup env attach p found) d
  auth : d.files .auth = some (.text (managedAuth env attach))
  secret : d.secrets = (keptDisk p).secrets

/-- Before the backup is written the profile is as it was, and after that it is bound. -/
def Attaching (env : Env) (p : Disk) (found : AttachInspection) (d : Disk) : Prop :=
  d = p ∨ d = keptDisk p ∨ ∃ b, Bound env p found.document b d

theorem meets_applyModelCatalogChange {expected : Option Content} {previouslyManaged : Bool}
    {Q : Unit → World Disk → Prop} {E : LocalPoolError → World Disk → Prop} {C : World Disk → Prop}
    (hfile : w.state.files .catalog = expected) (hmanaged : previouslyManaged = false → expected = none)
    (ho : Within A w.outcomes) (next : Option String)
    (hQ : ∀ outcomes, Within A outcomes → Q () ⟨w.state.set .catalog (next.map .text), outcomes⟩)
    (hE : A .failed → ∀ outcomes, Within A outcomes → E ⟨.io, env.ioError .catalog⟩ ⟨w.state, outcomes⟩)
    (hC : A .crashed → ∀ outcomes, Within A outcomes → C ⟨w.state, outcomes⟩) :
    Meets (applyModelCatalogChange env expected next previouslyManaged w) Q E C := by
  cases next with
  | some content => exact meets_replaceIfUnchanged hfile ho hQ hE hC
  | none =>
    cases previouslyManaged with
    | true => exact meets_removeIfUnchanged hfile ho hQ hE hC
    | false =>
      have hQ := hQ w.outcomes ho
      rwa [Option.map_none, Disk.set_self (hfile.trans (hmanaged rfl))] at hQ

theorem commitAttach_meets (h : env.Lawful) (hp : Unbound p) (hattach : Normalized attach)
    (hfound : FoundUnbound env p found) (hw : w.state = keptDisk p) (ho : Within A w.outcomes)
    (hA : ¬A .failed) :
    Meets (commitAttach env attach p found (firstBackup env p found attach.options.supportsWebsockets) none w)
      (fun _ w' => AttachedDisk env attach p found w'.state)
      (fun _ _ => False) (fun w' => A .crashed ∧ Attaching env p found w'.state) := by
  set first := firstBackup env p found attach.options.supportsWebsockets with hfirst
  have hrecords : Records env p found.document (pendingBackup env attach found first) :=
    records_pending h hattach
  have hfiles (file : File) : (keptDisk p).files file = p.files file := rfl
  have hsecret : (keptDisk p).secrets backupSecretRef = previousAuthText (p.files .auth) := by simp [keptDisk]
  -- A disk that differs from the kept one in what the attach has written so far.
  have bound_of {b : ProfileBackup} {d : Disk} (hrecords : Records env p found.document b)
      (hbackup : d.files .backup = some (.text (env.writeBackup b)))
      (hvalid : validManagedModelCatalog env b (d.files .catalog) = true)
      (hconfig : ∃ current, readConfig env (d.files .config) = .ok current ∧
        DocumentState env found.document b current)
      (hauth : Readable (d.files .auth)) (hsecrets : d.secrets = (keptDisk p).secrets) :
      Bound env p found.document b d :=
    ⟨hfound.config, hfound.attachable, hfound.auth, hrecords, hbackup, hvalid, hconfig, hauth,
      .inl (by rw [hsecrets, hsecret])⟩
  have horiginal (b : ProfileBackup) : ∃ current, readConfig env (p.files .config) = .ok current ∧
      DocumentState env found.document b current := ⟨_, hfound.config, .original⟩
  rw [commitAttach, meets_bind, meets_orRollback, hfound.existingBackup, hfound.hadManagedCatalog]
  refine meets_replaceIfUnchanged (by rw [hw]; rfl) ho (fun o₁ ho₁ => ?_) (fun hf => absurd hf hA)
    fun hc _ _ => ⟨hc, .inr (.inl hw)⟩
  -- The backup is written: from here on the profile is bound.
  rw [hw]
  set s₁ := (keptDisk p).set .backup (some (.text (env.writeBackup (pendingBackup env attach found first))))
    with hs₁
  have hb₁ : Bound env p found.document (pendingBackup env attach found first) s₁ :=
    bound_of hrecords (by simp [hs₁]) (valid_pending h _ (.inl (by simp [hs₁, hfiles, hp.catalog])))
      (by simpa [hs₁, hfiles] using horiginal _) (by simpa [hs₁, hfiles] using hfound.auth) rfl
  rw [meets_bind, meets_orRollback]
  refine meets_applyModelCatalogChange (by simp [hs₁, hfiles]) (fun _ => hp.catalog) ho₁ _ (fun o₂ ho₂ => ?_)
    (fun hf => absurd hf hA) fun hc _ _ => ⟨hc, .inr (.inr ⟨_, hb₁⟩)⟩
  set s₂ := s₁.set .catalog (found.catalog.map .text) with hs₂
  have hb₂ : Bound env p found.document (pendingBackup env attach found first) s₂ :=
    bound_of hrecords (by simp [hs₂, hs₁]) (valid_pending h _ (.inr (by simp [hs₂])))
      (by simpa [hs₂, hs₁, hfiles] using horiginal _) (by simpa [hs₂, hs₁, hfiles] using hfound.auth) rfl
  rw [meets_bind, meets_orRollback]
  refine meets_replaceIfUnchanged (by simp [hs₂, hs₁, hfiles]) ho₂ (fun o₃ ho₃ => ?_)
    (fun hf => absurd hf hA) fun hc _ _ => ⟨hc, .inr (.inr ⟨_, hb₂⟩)⟩
  dsimp only
  set text := env.printToml (Content.textOf (p.files .config)) (managedConfig env attach found first) with htext
  set s₃ := s₂.set .config (some (.text text)) with hs₃
  have hmanaged {b : ProfileBackup} (hb : managedConfig env attach found first =
        managedDocument found.document attach.localKey attach.options.supportsWebsockets b)
      (hkey : b.managedKeyHash = keyHash env attach.localKey)
      (hws : b.managedSupportsWebsockets = some attach.options.supportsWebsockets) :
      ∃ current, readConfig env (some (.text text)) = .ok current ∧
        DocumentState env found.document b current := by
    refine ⟨managedConfig env attach found first, ?_, ?_⟩
    · show parseConfig env text = _
      rw [parseConfig, htext, h.parse_print]
    · rw [hb]
      exact .managed hattach.localKey hkey.symm hws
  have hb₃ : Bound env p found.document (pendingBackup env attach found first) s₃ :=
    bound_of hrecords (by simp [hs₃, hs₂, hs₁]) (valid_pending h _ (.inr (by simp [hs₃, hs₂])))
      (by simpa [hs₃] using hmanaged managedConfig_eq rfl rfl)
      (by simpa [hs₃, hs₂, hs₁, hfiles] using hfound.auth) rfl
  rw [meets_bind, meets_orRollback]
  refine meets_replaceIfUnchanged (by simp [hs₃, hs₂, hs₁, hfiles]) ho₃ (fun o₄ ho₄ => ?_)
    (fun hf => absurd hf hA) fun hc _ _ => ⟨hc, .inr (.inr ⟨_, hb₃⟩)⟩
  dsimp only
  set s₄ := s₃.set .auth (some (.text (managedAuth env attach))) with hs₄
  have hb₄ : Bound env p found.document (pendingBackup env attach found first) s₄ :=
    bound_of hrecords (by simp [hs₄, hs₃, hs₂, hs₁]) (valid_pending h _ (.inr (by simp [hs₄, hs₃, hs₂])))
      (by simpa [hs₄, hs₃] using hmanaged managedConfig_eq rfl rfl)
      (by intro bytes; simp [hs₄]) rfl
  refine meets_replaceIfUnchanged (by simp [hs₄, hs₃, hs₂, hs₁]) ho₄ (fun _ _ => ⟨?_, by simp [hs₄], rfl⟩)
    (fun hf => absurd hf hA) fun hc _ _ => ⟨hc, .inr (.inr ⟨_, hb₄⟩)⟩
  refine bound_of (records_committed h hattach) (by simp [attachedBackup, hfirst]) ?_
    (by simpa [hs₄, hs₃, attachedBackup] using hmanaged managedConfig_committed rfl rfl)
    (by intro bytes; simp [hs₄]) rfl
  simpa [hs₄, hs₃, hs₂, attachedBackup] using valid_committed h

/-- An attach of an unbound profile, wherever it stops. -/
theorem attach_meets (attach : LocalAttach) (h : env.Lawful) (hp : Unbound p) (hw : w.state = p) (ho : Within A w.outcomes)
    (hA : ¬A .failed) :
    Meets (attachLocalLocked env attach w)
      (fun _ w' => ∃ attach' found, attach.normalize = .ok attach' ∧ inspectAttach env attach' p = .ok found ∧
        AttachedDisk env attach' p found w'.state)
      (fun _ w' => w'.state = p ∧ ∀ attach', attach.normalize = .ok attach' →
        ∀ found, inspectAttach env attach' p ≠ .ok found)
      (fun w' => A .crashed ∧ ∃ found, FoundUnbound env p found ∧ Attaching env p found w'.state) := by
  rw [attachLocalLocked, meets_bind]
  cases hnormalize : attach.normalize with
  | error e => exact ⟨hw, nofun⟩
  | ok attach' =>
    rw [meets_ofExcept_ok, meets_bind, localBackup_of_absent (by rw [hw, hp.backup])]
    show Meets ((_ >>= _ : ProfileOp Unit) w) _ _ _
    rw [meets_bind, meets_get, hw, meets_bind]
    cases hinspect : inspectAttach env attach' p with
    | error e =>
      refine ⟨hw, fun _ heq _ => ?_⟩
      obtain rfl := Except.ok.inj heq
      rw [hinspect]
      exact nofun
    | ok found =>
      have hfound := inspectAttach_unbound hp hinspect
      rw [meets_ofExcept_ok, meets_bind, rebaseSecret, hfound.externalTakeover, if_neg Bool.false_ne_true,
        meets_pure]
      have hkeep := keepPreviousAuth_meets attach'.options.supportsWebsockets hp hfound hw ho
      refine (hkeep.mono (fun _ _ hQ => hQ) (fun _ w' hE => absurd hE.1 hA)
        fun w' hC => ⟨hC.1, found, hfound, .inl hC.2⟩).bind ?_
      rintro backup w₁ ⟨rfl, hw₁, ho₁⟩
      exact (commitAttach_meets h hp (normalized_of_normalize hnormalize) hfound hw₁ ho₁ hA).mono
        (fun _ _ hQ => ⟨attach', found, rfl, hinspect, hQ⟩) (fun _ _ hE => hE.elim)
        fun w' hC => ⟨hC.1, found, hfound, hC.2⟩

end

end

end Zenith.Profiles

import Zenith.Server.RuntimeBuild

/-!
# What a built runtime holds

The candidates and the keys of the runtime that `rebuild` makes of a content nobody changes. `Holds` says which
candidates a runtime under construction has; every step of `from_mixed_pool` adds to it. `built_candidate` gives the
candidates in terms of the records, `built_reach` what the keys reach.
-/

namespace Zenith.Server

open Std Zenith.Publishing Zenith.Quota Zenith.Records Zenith.Runtime Zenith.Scheduler Zenith.Tables Zenith.Text

section
variable {parts : BuildParts} {content : ServerContent} {now : String → Nat}

/-! ## What the reads give -/

def ServerContent.runtimeSources (content : ServerContent) : List RuntimeSource :=
  content.sources.all.filterMap fun record => content.vault[record.secretRef]?.map (⟨record, ·⟩)

/-- A source without its secret is left out. -/
def onSecret (secret : Option String) (missing : Rebuild (List RuntimeSource))
    (found : String → Rebuild (List RuntimeSource)) : Rebuild (List RuntimeSource) :=
  match secret with
  | none => missing
  | some apiKey => found apiKey

theorem atOnce_buildSources (records : List SourceRecord) :
    (buildSources records).atOnce content =
      .ok (records.filterMap fun record => content.vault[record.secretRef]?.map (⟨record, ·⟩)) := by
  induction records with
  | nil => rfl
  | cons record records ih =>
    unfold buildSources loadSecret
    rw [Reads.atOnce_bind, Reads.atOnce_get, List.filterMap_cons]
    show (onSecret content.vault[record.secretRef]? _ _).atOnce content = _
    cases content.vault[record.secretRef]? with
    | none => exact ih
    | some apiKey =>
      dsimp only [Option.map_some, onSecret]
      rw [Reads.atOnce_bind, ih]
      rfl

/-- The credential of an account, where its secret is there and is one. -/
def ServerContent.credential (parts : BuildParts) (content : ServerContent) (record : ServerAccountRecord) :
    Option AccountCredential :=
  content.vault[record.secretRef]?.bind parts.parseCredential

/-- `account_proxy_config(..).is_ok()` -/
def ServerContent.proxyAvailable (parts : BuildParts) (content : ServerContent) (record : ServerAccountRecord)
    (credential : AccountCredential) : Bool :=
  match (accountProxyConfig parts record credential).atOnce content with
  | .ok (some _) => true
  | _ => false

/-- The secret and the proxy of an account are there, so that it becomes a candidate. -/
def ServerContent.accountAvailable (parts : BuildParts) (content : ServerContent) (record : ServerAccountRecord) : Bool :=
  (content.credential parts record).any fun credential => content.proxyAvailable parts record credential

/-- What is built of an account. -/
structure AccountBuilt (record : ServerAccountRecord) (account : RuntimeChatGptAccount) : Prop where
  same : account.record = record
  enabled : account.enabled = record.routable

theorem accountBuilt_runtimeAccount (record : ServerAccountRecord) (credential : AccountCredential)
    (agentIdentity : Option AgentIdentityCredential) (proxy : Option String) (nowMs : Nat) :
    AccountBuilt record (runtimeAccount record credential agentIdentity proxy nowMs) where
  same := rfl
  enabled := by
    show accountCandidateEnabled record.enabled (accountOperationalState record true true nowMs).routingBlockReason = _
    rw [accountCandidateEnabled_eq, Bool.and_true, Bool.and_true]

variable {record : ServerAccountRecord}

theorem buildAccount_ok {nowMs : Nat} {built : Option RuntimeChatGptAccount}
    (h : (buildAccount parts nowMs record).atOnce content = .ok built) :
    built.isSome = content.accountAvailable parts record ∧ ∀ account ∈ built, AccountBuilt record account := by
  unfold ServerContent.accountAvailable ServerContent.credential ServerContent.proxyAvailable
  unfold buildAccount loadSecret at h
  rw [Reads.atOnce_get_bind] at h
  generalize content.vault[record.secretRef]? = secret? at h ⊢
  cases secret? with
  | none =>
    obtain rfl := Except.ok.inj h
    exact ⟨rfl, fun account hmem => absurd hmem (Option.not_mem_none account)⟩
  | some secret =>
    dsimp only at h
    rw [Option.bind_some]
    generalize parts.parseCredential secret = credential? at h ⊢
    cases credential? with
    | none => exact nomatch h
    | some credential =>
      dsimp only at h
      rw [Reads.atOnce_bind] at h
      obtain ⟨proxy?, hproxy, h⟩ := bind_eq_ok.mp h
      rw [Option.any_some, hproxy]
      cases proxy? with
      | none =>
        obtain rfl := Except.ok.inj h
        exact ⟨rfl, fun account hmem => absurd hmem (Option.not_mem_none account)⟩
      | some proxy =>
        dsimp only at h
        rw [Reads.atOnce_ofExcept_bind] at h
        obtain ⟨agentIdentity, -, h⟩ := bind_eq_ok.mp h
        have hbuilt : built = some (runtimeAccount record credential agentIdentity proxy nowMs) := by
          split at h
          · rw [Reads.atOnce_ofExcept_bind] at h
            obtain ⟨-, -, h⟩ := bind_eq_ok.mp h
            exact (Except.ok.inj h).symm
          · exact (Except.ok.inj h).symm
        subst hbuilt
        refine ⟨rfl, fun account hmem => ?_⟩
        obtain rfl := Option.some.inj hmem
        exact accountBuilt_runtimeAccount record credential agentIdentity proxy nowMs

variable {accounts : List RuntimeChatGptAccount}

/-- The accounts of the runtime are those whose secret and proxy are there. -/
theorem buildAccounts_ok {records : List ServerAccountRecord}
    (h : (buildAccounts parts now records).atOnce content = .ok accounts) :
    (∀ account ∈ accounts, ∃ record ∈ records, content.accountAvailable parts record = true ∧ AccountBuilt record account) ∧
      ∀ record ∈ records, content.accountAvailable parts record = true → ∃ account ∈ accounts, account.record = record := by
  induction records generalizing accounts with
  | nil =>
    obtain rfl := Except.ok.inj h
    exact ⟨fun account hmem => absurd hmem List.not_mem_nil, fun record hmem => absurd hmem List.not_mem_nil⟩
  | cons record records ih =>
    unfold buildAccounts at h
    rw [Reads.atOnce_bind] at h
    obtain ⟨built, hbuilt, h⟩ := bind_eq_ok.mp h
    rw [Reads.atOnce_bind] at h
    obtain ⟨rest, hrest, h⟩ := bind_eq_ok.mp h
    obtain rfl := Except.ok.inj h
    obtain ⟨hsome, hown⟩ := buildAccount_ok hbuilt
    obtain ⟨hfrom, hto⟩ := ih hrest
    constructor
    · intro account hmem
      rcases List.mem_append.mp hmem with hmem | hmem
      · have hbuilt := Option.mem_toList.mp hmem
        exact ⟨record, List.mem_cons_self, hsome.symm.trans (Option.isSome_iff_exists.mpr ⟨_, hbuilt⟩), hown account hbuilt⟩
      · obtain ⟨other, hother, hbuilt⟩ := hfrom account hmem
        exact ⟨other, List.mem_cons_of_mem _ hother, hbuilt⟩
    · intro other hmem havailable
      rcases List.mem_cons.mp hmem with rfl | hmem
      · rw [havailable] at hsome
        obtain ⟨account, rfl⟩ := Option.isSome_iff_exists.mp hsome
        exact ⟨account, List.mem_append_left _ (Option.mem_toList.mpr rfl), (hown account rfl).same⟩
      · obtain ⟨account, haccount, hsame⟩ := hto other hmem havailable
        exact ⟨account, List.mem_append_right _ haccount, hsame⟩

variable {keys : List RuntimeKey} {key : RuntimeKey}

theorem buildKeys_ok {hiddenModels poolSourceIds poolAccountIds : List String} {records : List GatewayKeyRecord}
    (h : (buildKeys hiddenModels poolSourceIds poolAccountIds records).atOnce content = .ok keys) :
    key ∈ keys ↔ ¬(poolSourceIds = [] ∧ poolAccountIds = []) ∧ ∃ record ∈ records, ∃ secret,
      content.vault[record.secretRef]? = some secret ∧
        key = runtimeKey hiddenModels poolSourceIds poolAccountIds record secret := by
  induction records generalizing keys with
  | nil =>
    obtain rfl := Except.ok.inj h
    exact iff_of_false List.not_mem_nil fun ⟨_, record, hmem, _⟩ => absurd hmem List.not_mem_nil
  | cons record records ih =>
    unfold buildKeys loadSecret at h
    rw [Reads.atOnce_get_bind] at h
    cases hsecret : content.vault[record.secretRef]? with
    | none =>
      rw [hsecret] at h
      rw [ih h]
      refine and_congr_right fun _ => ?_
      constructor
      · rintro ⟨other, hmem, hother⟩
        exact ⟨other, List.mem_cons_of_mem _ hmem, hother⟩
      · rintro ⟨other, hmem, secret, hvault, heq⟩
        rcases List.mem_cons.mp hmem with rfl | hmem
        · exact nomatch hsecret.symm.trans hvault
        · exact ⟨other, hmem, secret, hvault, heq⟩
    | some secret =>
      rw [hsecret] at h
      dsimp only at h
      rw [Reads.atOnce_bind] at h
      obtain ⟨rest, hrest, h⟩ := bind_eq_ok.mp h
      obtain rfl := Except.ok.inj h
      have hrest := ih hrest
      by_cases hempty : poolSourceIds = [] ∧ poolAccountIds = []
      · rw [if_pos (by rw [hempty.1, hempty.2]; rfl), hrest]
        exact iff_of_false (fun hmem => hmem.1 hempty) fun hmem => hmem.1 hempty
      · rw [if_neg fun hand => hempty ?_, List.mem_cons, hrest]
        · constructor
          · rintro (rfl | ⟨hne, other, hmem, hother⟩)
            · exact ⟨hempty, record, List.mem_cons_self, secret, hsecret, rfl⟩
            · exact ⟨hne, other, List.mem_cons_of_mem _ hmem, hother⟩
          · rintro ⟨hne, other, hmem, secret', hvault, heq⟩
            rcases List.mem_cons.mp hmem with rfl | hmem
            · obtain rfl := Option.some.inj (hsecret.symm.trans hvault)
              exact .inl heq
            · exact .inr ⟨hne, other, hmem, secret', hvault, heq⟩
        · rw [Bool.and_eq_true, decide_eq_true_eq, decide_eq_true_eq] at hand
          exact hand

/-! ## What a runtime under construction has -/

/-- The candidates of the runtime are those of `P`, and the tables beside them are about these. -/
structure Holds (g : GatewayRuntime) (P : RuntimeCandidate → Prop) : Prop where
  candidate : ∀ {id candidate}, g.scheduler.candidates.get? id = some candidate ↔ candidate.id = id ∧ P candidate
  binding : ∀ {id sourceId}, g.sourceCandidateBindings[id]? = some sourceId ↔
    ∃ candidate, P candidate ∧ candidate.kind = .apiSource ∧ candidate.id = id ∧ candidate.sourceId = sourceId
  account : ∀ {id}, g.chatgptAccounts.contains id = true ↔
    ∃ candidate, P candidate ∧ candidate.kind = .oauthAccount ∧ candidate.id = id

theorem Holds.congr {g : GatewayRuntime} {P Q : RuntimeCandidate → Prop} (h : Holds g P) (heq : ∀ candidate, P candidate ↔ Q candidate) :
    Holds g Q := by
  obtain rfl : P = Q := funext fun candidate => propext (heq candidate)
  exact h

theorem holds_configureScheduler (policy : RoutingPolicy) (planOrder : List String) :
    Holds (configureScheduler policy planOrder) fun _ => False := by
  have hcandidates : (configureScheduler policy planOrder).scheduler.candidates = .empty := by
    unfold configureScheduler PoolScheduler.setRoutingStrategy
    dsimp only
    split <;> rfl
  constructor
  · intro id candidate
    rw [hcandidates, CandidateTable.get?_empty]
    exact iff_of_false nofun And.right
  · intro id sourceId
    exact iff_of_false (fun h => nomatch (ExtTreeMap.getElem?_empty (α := String)).symm.trans h) fun ⟨_, h, _⟩ => h
  · intro id
    exact iff_of_false (fun h => nomatch (ExtTreeMap.contains_empty (α := String)).symm.trans h) fun ⟨_, h, _⟩ => h

theorem get?_call_upsert (g : GatewayRuntime) (candidate : RuntimeCandidate) (id : String) :
    (g.call (.pool (.upsert candidate))).scheduler.candidates.get? id =
      if candidate.id = id then some candidate else g.scheduler.candidates.get? id :=
  CandidateTable.get?_insert _ _ _

variable {P : RuntimeCandidate → Prop} {candidate : RuntimeCandidate} {id : String}

/-- A candidate under a new id. -/
theorem get?_upsert_iff {g : GatewayRuntime} (h : Holds g P)
    (hnew : ∀ other, P other → other.id ≠ candidate.id) {other : RuntimeCandidate} :
    (g.call (.pool (.upsert candidate))).scheduler.candidates.get? id = some other ↔
      other.id = id ∧ (P other ∨ other = candidate) := by
  rw [get?_call_upsert]
  by_cases hid : candidate.id = id
  · rw [if_pos hid, Option.some.injEq]
    constructor
    · rintro rfl
      exact ⟨hid, .inr rfl⟩
    · rintro ⟨hother, hmem | rfl⟩
      · exact absurd (hother.trans hid.symm) (hnew other hmem)
      · rfl
  · rw [if_neg hid, h.candidate]
    refine and_congr_right fun hother => ⟨.inl, fun hmem => hmem.resolve_right ?_⟩
    rintro rfl
    exact hid hother

variable {source : SourceRecord} {g g' : GatewayRuntime}

theorem holds_addBinding {count : Nat} {binding : SourceProtocolBinding}
    (h : Holds g P) (hsources : ∀ candidate, P candidate → candidate.kind = .apiSource)
    (hadd : addBinding source count g binding = .ok g') :
    Holds g' fun candidate => P candidate ∨ (normalizedSet binding.modelIds ≠ ∅ ∧
      candidate = sourceCandidate source (sourceCandidateId source.id.text binding count) binding) := by
  unfold addBinding at hadd
  split at hadd
  case isTrue hempty =>
    obtain rfl := Except.ok.inj hadd
    exact h.congr fun candidate => (or_iff_left fun hor => hor.1 hempty).symm
  case isFalse hmodels =>
    dsimp only at hadd
    split at hadd
    case isTrue => exact nomatch hadd
    case isFalse hfree =>
      obtain rfl := Except.ok.inj hadd
      refine Holds.congr (P := fun candidate => P candidate ∨
        candidate = sourceCandidate source (sourceCandidateId source.id.text binding count) binding) ?_
        fun candidate => or_congr_right (and_iff_right hmodels).symm
      have hnew : ∀ other, P other → other.id ≠ sourceCandidateId source.id.text binding count := by
        intro other hother hid
        refine hfree (contains_of_getElem? (h.binding.mpr ⟨other, hother, hsources other hother, hid, rfl⟩))
      refine ⟨get?_upsert_iff h hnew, fun {id sourceId} => ?_, fun {id} => h.account.trans ?_⟩
      · show (g.sourceCandidateBindings.insert _ _)[id]? = some sourceId ↔ _
        rw [ExtTreeMap.getElem?_insert]
        split
        case isTrue hcompare =>
          obtain rfl := LawfulEqCmp.eq_of_compare hcompare
          rw [Option.some.injEq]
          constructor
          · rintro rfl
            exact ⟨_, .inr rfl, rfl, rfl, rfl⟩
          · rintro ⟨other, hother | rfl, -, hid, hsource⟩
            · exact absurd hid (hnew other hother)
            · exact hsource
        case isFalse hcompare =>
          rw [h.binding]
          constructor
          · rintro ⟨other, hother, hrest⟩
            exact ⟨other, .inl hother, hrest⟩
          · rintro ⟨other, hother | rfl, hkind, hid, hsource⟩
            · exact ⟨other, hother, hkind, hid, hsource⟩
            · exact absurd (LawfulEqCmp.compare_eq_iff_eq.mpr hid) hcompare
      · constructor
        · rintro ⟨other, hother, hrest⟩
          exact ⟨other, .inl hother, hrest⟩
        · rintro ⟨other, hother | rfl, hkind, hid⟩
          · exact ⟨other, hother, hkind, hid⟩
          · exact nomatch hkind

/-- The candidates of a source: one for each of its routes that has models. -/
def SourceCandidateOf (parts : BuildParts) (source : SourceRecord) (candidate : RuntimeCandidate) : Prop :=
  ∃ bindings, parts.protocolBindings source.protocolBindings source.wireApi source.models = .ok bindings ∧
    ∃ binding ∈ bindings, normalizedSet binding.modelIds ≠ ∅ ∧
      candidate = sourceCandidate source (sourceCandidateId source.id.text binding bindings.length) binding

theorem holds_bindings {count : Nat} {bindings : List SourceProtocolBinding}
    (h : Holds g P) (hsources : ∀ candidate, P candidate → candidate.kind = .apiSource)
    (hadd : bindings.foldlM (addBinding source count) g = .ok g') :
    Holds g' fun candidate => P candidate ∨ ∃ binding ∈ bindings, normalizedSet binding.modelIds ≠ ∅ ∧
      candidate = sourceCandidate source (sourceCandidateId source.id.text binding count) binding := by
  induction bindings generalizing g P with
  | nil =>
    obtain rfl := Except.ok.inj hadd
    exact h.congr fun candidate => (or_iff_left fun ⟨_, hmem, _⟩ => absurd hmem List.not_mem_nil).symm
  | cons binding bindings ih =>
    rw [List.foldlM_cons] at hadd
    obtain ⟨g₁, hbinding, hadd⟩ := bind_eq_ok.mp hadd
    have hnext := holds_addBinding h hsources hbinding
    refine (ih hnext ?_ hadd).congr fun candidate => ?_
    · rintro candidate (hmem | ⟨-, rfl⟩)
      · exact hsources candidate hmem
      · rfl
    · rw [or_assoc]
      refine or_congr_right ?_
      simp only [List.mem_cons, exists_eq_or_imp]

theorem require_eq_ok {p : Prop} [Decidable p] {message : String} {value : Unit} : require p message = .ok value ↔ p := by
  unfold require
  split
  case isTrue hp => exact iff_of_true rfl hp
  case isFalse hp => exact iff_of_false nofun hp

theorem holds_addSource {source : RuntimeSource} {r r' : GatewayRuntime × List String}
    (h : Holds r.1 P) (hsources : ∀ candidate, P candidate → candidate.kind = .apiSource)
    (hadd : addSource parts r source = .ok r') :
    Holds r'.1 fun candidate => P candidate ∨ SourceCandidateOf parts source.record candidate := by
  unfold addSource at hadd
  obtain ⟨-, -, hadd⟩ := bind_eq_ok.mp hadd
  obtain ⟨-, -, hadd⟩ := bind_eq_ok.mp hadd
  obtain ⟨-, -, hadd⟩ := bind_eq_ok.mp hadd
  obtain ⟨-, -, hadd⟩ := bind_eq_ok.mp hadd
  obtain ⟨bindings, hbindings, hadd⟩ := bind_eq_ok.mp hadd
  obtain ⟨-, -, hadd⟩ := bind_eq_ok.mp hadd
  obtain ⟨gateway, hgateway, hadd⟩ := bind_eq_ok.mp hadd
  obtain rfl := Except.ok.inj hadd
  refine (holds_bindings h hsources hgateway).congr fun candidate => or_congr_right ?_
  constructor
  · exact fun hmem => ⟨bindings, hbindings, hmem⟩
  · rintro ⟨bindings', hbindings', hmem⟩
    obtain rfl := Except.ok.inj (hbindings.symm.trans hbindings')
    exact hmem

theorem sourceCandidateOf_kind (h : SourceCandidateOf parts source candidate) :
    candidate.kind = .apiSource := by
  obtain ⟨_, _, _, _, _, rfl⟩ := h
  rfl

theorem holds_sources {sources : List RuntimeSource} {r r' : GatewayRuntime × List String}
    (h : Holds r.1 P) (hsources : ∀ candidate, P candidate → candidate.kind = .apiSource)
    (hadd : sources.foldlM (addSource parts) r = .ok r') :
    Holds r'.1 fun candidate => P candidate ∨ ∃ source ∈ sources, SourceCandidateOf parts source.record candidate := by
  induction sources generalizing r P with
  | nil =>
    obtain rfl := Except.ok.inj hadd
    exact h.congr fun candidate => (or_iff_left fun ⟨_, hmem, _⟩ => absurd hmem List.not_mem_nil).symm
  | cons source sources ih =>
    rw [List.foldlM_cons] at hadd
    obtain ⟨r₁, hsource, hadd⟩ := bind_eq_ok.mp hadd
    refine (ih (holds_addSource h hsources hsource) ?_ hadd).congr fun candidate => ?_
    · rintro candidate (hmem | hmem)
      · exact hsources candidate hmem
      · exact sourceCandidateOf_kind hmem
    · rw [or_assoc]
      refine or_congr_right ?_
      simp only [List.mem_cons, exists_eq_or_imp]

theorem candidates_setCandidateSubscriptionExpiry (s : PoolScheduler) (id : String) (expiresAtMs : Option Nat) :
    (s.setCandidateSubscriptionExpiry id expiresAtMs).1.candidates = s.candidates := by
  unfold PoolScheduler.setCandidateSubscriptionExpiry
  split
  · rfl
  · split <;> rfl

theorem candidates_setCandidateSubscriptionPlan (s : PoolScheduler) (toLowercase : String → String) (id : String)
    (planType : Option String) : (s.setCandidateSubscriptionPlan toLowercase id planType).1.candidates = s.candidates := by
  unfold PoolScheduler.setCandidateSubscriptionPlan
  split <;> rfl

theorem holds_addAccount {sourceIds : List String} {account : RuntimeChatGptAccount}
    (h : Holds g P) (hadd : addAccount parts sourceIds g account = .ok g') :
    Holds g' fun candidate => P candidate ∨ candidate = accountCandidate parts account := by
  unfold addAccount at hadd
  dsimp only at hadd
  obtain ⟨-, -, hadd⟩ := bind_eq_ok.mp hadd
  obtain ⟨-, -, hadd⟩ := bind_eq_ok.mp hadd
  obtain ⟨-, -, hadd⟩ := bind_eq_ok.mp hadd
  obtain ⟨-, -, hadd⟩ := bind_eq_ok.mp hadd
  obtain ⟨_, hunique, hadd⟩ := bind_eq_ok.mp hadd
  obtain ⟨-, -, hadd⟩ := bind_eq_ok.mp hadd
  obtain rfl := Except.ok.inj hadd
  obtain ⟨-, hbinding, haccount⟩ := require_eq_ok.mp hunique
  have hnew : ∀ other, P other → other.id ≠ (accountCandidate parts account).id := by
    intro other hother hid
    cases hkind : other.kind with
    | apiSource => exact hbinding (contains_of_getElem? (h.binding.mpr ⟨other, hother, hkind, hid, rfl⟩))
    | oauthAccount => exact haccount (h.account.mpr ⟨other, hother, hkind, hid⟩)
  refine ⟨fun {id other} => ?_, fun {id sourceId} => h.binding.trans ?_, fun {id} => ?_⟩
  · rw [← get?_upsert_iff h hnew]
    show ((QuietOp.setCandidateSubscriptionPlan _ _ _).step ((QuietOp.setCandidateSubscriptionExpiry _ _).step _)).candidates.get? id = _ ↔ _
    unfold QuietOp.step
    dsimp only
    rw [candidates_setCandidateSubscriptionPlan, candidates_setCandidateSubscriptionExpiry]
  · constructor
    · rintro ⟨other, hother, hrest⟩
      exact ⟨other, .inl hother, hrest⟩
    · rintro ⟨other, hother | rfl, hkind, hrest⟩
      · exact ⟨other, hother, hkind, hrest⟩
      · exact nomatch hkind
  · show (g.chatgptAccounts.insert account.record.id.text _).contains id = true ↔ _
    rw [ExtTreeMap.contains_insert, Bool.or_eq_true, h.account, beq_iff_eq, LawfulEqCmp.compare_eq_iff_eq]
    constructor
    · rintro (hid | ⟨other, hother, hrest⟩)
      · exact ⟨_, .inr rfl, rfl, hid⟩
      · exact ⟨other, .inl hother, hrest⟩
    · rintro ⟨other, hother | rfl, hkind, hid⟩
      · exact .inr ⟨other, hother, hkind, hid⟩
      · exact .inl hid

theorem holds_accounts {sourceIds : List String}
    (h : Holds g P) (hadd : accounts.foldlM (addAccount parts sourceIds) g = .ok g') :
    Holds g' fun candidate => P candidate ∨ ∃ account ∈ accounts, candidate = accountCandidate parts account := by
  induction accounts generalizing g P with
  | nil =>
    obtain rfl := Except.ok.inj hadd
    exact h.congr fun candidate => (or_iff_left fun ⟨_, hmem, _⟩ => absurd hmem List.not_mem_nil).symm
  | cons account accounts ih =>
    rw [List.foldlM_cons] at hadd
    obtain ⟨g₁, haccount, hadd⟩ := bind_eq_ok.mp hadd
    refine (ih (holds_addAccount h haccount) hadd).congr fun candidate => ?_
    rw [or_assoc]
    refine or_congr_right ?_
    simp only [List.mem_cons, exists_eq_or_imp]

variable {r : ServerRuntime}

theorem fromMixedPool_ok {sources : List RuntimeSource}
    {settings : RuntimeSettings} (h : fromMixedPool parts sources accounts keys settings = .ok r) :
    r.keys = keys ∧ Holds r.gateway fun candidate => (∃ source ∈ sources, SourceCandidateOf parts source.record candidate) ∨
      ∃ account ∈ accounts, candidate = accountCandidate parts account := by
  unfold fromMixedPool at h
  dsimp only at h
  obtain ⟨-, -, h⟩ := bind_eq_ok.mp h
  obtain ⟨-, -, h⟩ := bind_eq_ok.mp h
  obtain ⟨_, -, h⟩ := bind_eq_ok.mp h
  obtain ⟨planOrder, -, h⟩ := bind_eq_ok.mp h
  obtain ⟨⟨gateway, sourceIds⟩, hsources, h⟩ := bind_eq_ok.mp h
  obtain ⟨gateway', haccounts, h⟩ := bind_eq_ok.mp h
  obtain ⟨-, -, h⟩ := bind_eq_ok.mp h
  obtain ⟨-, -, h⟩ := bind_eq_ok.mp h
  obtain ⟨_, -, h⟩ := bind_eq_ok.mp h
  obtain rfl := Except.ok.inj h
  have hsources := holds_sources (holds_configureScheduler _ planOrder) (fun _ h => h.elim) hsources
  exact ⟨rfl, (holds_accounts hsources haccounts).congr fun candidate => by rw [false_or]⟩

/-! ## The runtime of a content -/

/-- What is known of the candidate of an account, whenever it was built. -/
def AccountCandidateOf (parts : BuildParts) (record : ServerAccountRecord) (candidate : RuntimeCandidate) : Prop :=
  ∃ account, AccountBuilt record account ∧ candidate = accountCandidate parts account

/-- A source that is to be in the runtime. -/
def ServerContent.HasSource (content : ServerContent) (source : SourceRecord) : Prop :=
  source ∈ content.sources.all ∧ content.vault[source.secretRef]?.isSome = true

def ServerContent.HasAccount (parts : BuildParts) (content : ServerContent) (record : ServerAccountRecord) : Prop :=
  record ∈ content.accounts.all ∧ content.accountAvailable parts record = true

/-- The members of the pool that its keys are restricted to. -/
def ServerContent.poolSource (parts : BuildParts) (content : ServerContent) (id : String) : Prop :=
  ∃ source, content.HasSource source ∧ source.isPoolMember parts = true ∧ source.enabled = true ∧ source.draining = false ∧
    source.id.text = id

def ServerContent.poolAccount (parts : BuildParts) (content : ServerContent) (id : String) : Prop :=
  ∃ record, content.HasAccount parts record ∧ record.routable = true ∧ record.id.text = id

def ServerContent.HasKey (content : ServerContent) (record : GatewayKeyRecord) : Prop :=
  record ∈ content.keys.all ∧ record.enabled = true ∧ isInternalGatewayKey record = true ∧
    content.vault[record.secretRef]?.isSome = true

/-- A key that is restricted to the members of the pool. -/
structure PoolKey (parts : BuildParts) (content : ServerContent) (key : RuntimeKey) : Prop where
  enabled : key.enabled = true
  scope : ∃ sourceIds accountIds, key.scope.sourceIds = some sourceIds ∧ key.scope.accountIds = some accountIds ∧
    (∀ id, id ∈ sourceIds ↔ content.poolSource parts id) ∧ ∀ id, id ∈ accountIds ↔ content.poolAccount parts id

/-- The runtime has the candidates of the content, and its keys are restricted to the pool. -/
structure Built (parts : BuildParts) (content : ServerContent) (r : ServerRuntime) : Prop where
  candidate : ∀ {id candidate}, r.candidates.get? id = some candidate → candidate.id = id ∧
    ((∃ source, content.HasSource source ∧ SourceCandidateOf parts source candidate) ∨
      ∃ record, content.HasAccount parts record ∧ AccountCandidateOf parts record candidate)
  source : ∀ {source candidate}, content.HasSource source → SourceCandidateOf parts source candidate →
    r.candidates.get? candidate.id = some candidate
  account : ∀ {record}, content.HasAccount parts record → ∃ candidate, r.candidates.get? record.id.text = some candidate ∧
    AccountCandidateOf parts record candidate
  key : ∀ {id}, (∃ key ∈ r.keys, key.id = id) ↔ ∃ record, content.HasKey record ∧ record.id = id
  pool : ∀ key ∈ r.keys, PoolKey parts content key
  keys : r.keys ≠ []

/-- A set of ids that the server made is what it is. -/
theorem mem_normalizedSet {values : List String} (hvalues : ∀ value ∈ values, ∃ id : RecordId, id.text = value) {value : String} :
    value ∈ normalizedSet values ↔ value ∈ values := by
  have hfold : ∀ (values : List String) (t : Table String String), (∀ value ∈ values, ∃ id : RecordId, id.text = value) →
      (∀ key value : String, t[key]? = some value → key = value) → ∀ value,
        (∃ key : String, (values.foldl (fun normalized value =>
          let value := trim value
          if value = "" || normalized.contains (asciiLower value) then normalized
          else normalized.insert (asciiLower value) value) t)[key]? = some value) ↔ value ∈ values ∨ t[value]? = some value := by
    intro values
    induction values with
    | nil =>
      intro t _ hkeys value
      constructor
      · rintro ⟨key, hget⟩
        obtain rfl := hkeys key value hget
        exact .inr hget
      · exact fun hor => ⟨value, hor.resolve_left List.not_mem_nil⟩
    | cons first values ih =>
      intro t hvalues hkeys value
      obtain ⟨id, rfl⟩ := hvalues first List.mem_cons_self
      obtain ⟨htrim, hlower, hne⟩ := id.canonical
      have hrest := fun value hmem => hvalues value (List.mem_cons_of_mem _ hmem)
      rw [List.foldl_cons]
      dsimp only
      rw [htrim, hlower, decide_eq_false hne, Bool.false_or]
      split
      case isTrue hcontains =>
        rw [ih t hrest hkeys, List.mem_cons, or_assoc]
        refine (or_iff_right_of_imp ?_).symm
        rintro rfl
        obtain ⟨held, hheld⟩ := Option.isSome_iff_exists.mp
          ((ExtTreeMap.isSome_getElem?_eq_contains (t := t)).trans hcontains)
        rw [hheld, ← hkeys _ _ hheld]
        exact .inr rfl
      case isFalse =>
        rw [ih (t.insert id.text id.text) hrest, List.mem_cons, ExtTreeMap.getElem?_insert]
        · by_cases heq : id.text = value
          · subst heq
            rw [if_pos (LawfulEqCmp.compare_eq_iff_eq.mpr rfl)]
            exact iff_of_true (.inr rfl) (.inl (.inl rfl))
          · rw [if_neg fun hcompare => heq (LawfulEqCmp.compare_eq_iff_eq.mp hcompare), or_assoc]
            exact (or_iff_right fun hvalue => heq hvalue.symm).symm
        · intro key held hget
          rw [ExtTreeMap.getElem?_insert] at hget
          split at hget
          case isTrue hcompare =>
            obtain rfl := LawfulEqCmp.eq_of_compare hcompare
            exact Option.some.inj hget
          case isFalse => exact hkeys key held hget
  unfold normalizedSet
  rw [List.mem_toFinset, mem_valuesOf, hfold values ∅ hvalues]
  · exact or_iff_left fun hget => nomatch (ExtTreeMap.getElem?_empty (α := String)).symm.trans hget
  · exact fun key value hget => nomatch (ExtTreeMap.getElem?_empty (α := String)).symm.trans hget

theorem mem_runtimeSources {source : RuntimeSource} :
    source ∈ content.runtimeSources ↔
      source.record ∈ content.sources.all ∧ content.vault[source.record.secretRef]? = some source.apiKey := by
  unfold ServerContent.runtimeSources
  rw [List.mem_filterMap]
  constructor
  · rintro ⟨record, hrecord, h⟩
    obtain ⟨apiKey, hsecret, rfl⟩ := Option.map_eq_some_iff.mp h
    exact ⟨hrecord, hsecret⟩
  · rintro ⟨hrecord, hsecret⟩
    exact ⟨source.record, hrecord, Option.map_eq_some_iff.mpr ⟨source.apiKey, hsecret, rfl⟩⟩

/-- A source of the content is in the runtime if its secret is there. -/
theorem hasSource_iff {record : SourceRecord} : content.HasSource record ↔ ∃ source ∈ content.runtimeSources, source.record = record := by
  constructor
  · rintro ⟨hmem, hsecret⟩
    obtain ⟨apiKey, hsecret⟩ := Option.isSome_iff_exists.mp hsecret
    exact ⟨⟨record, apiKey⟩, mem_runtimeSources.mpr ⟨hmem, hsecret⟩, rfl⟩
  · rintro ⟨source, hmem, rfl⟩
    obtain ⟨hmem, hsecret⟩ := mem_runtimeSources.mp hmem
    exact ⟨hmem, Option.isSome_iff_exists.mpr ⟨_, hsecret⟩⟩

/-- Records of one table that have the same id are the same. -/
theorem eq_of_id_eq {ρ : Type} {idOf : ρ → String} {t : RecordTable ρ idOf} {record other : ρ} (h : record ∈ t.all)
    (hother : other ∈ t.all) (hid : idOf record = idOf other) : record = other := by
  have hget := RecordTable.mem_all.mp h
  rw [hid] at hget
  exact Option.some.inj (hget.symm.trans (RecordTable.mem_all.mp hother))

theorem mem_activePoolSources :
    id ∈ activePoolSources parts content.sources.all content.runtimeSources ↔ content.poolSource parts id := by
  unfold activePoolSources ServerContent.poolSource
  rw [List.mem_filter, List.mem_map, List.any_eq_true]
  constructor
  · rintro ⟨⟨record, hrecord, rfl⟩, source, hsource, hactive⟩
    obtain ⟨hrecord, hmember⟩ := List.mem_filter.mp hrecord
    rw [Bool.and_eq_true, Bool.and_eq_true, Bool.not_eq_true', decide_eq_true_eq] at hactive
    obtain ⟨⟨henabled, hdraining⟩, hid⟩ := hactive
    obtain rfl := eq_of_id_eq (mem_runtimeSources.mp hsource).1 hrecord hid
    exact ⟨source.record, hasSource_iff.mpr ⟨source, hsource, rfl⟩, hmember, henabled, hdraining, rfl⟩
  · rintro ⟨record, hhas, hmember, henabled, hdraining, rfl⟩
    obtain ⟨source, hsource, rfl⟩ := hasSource_iff.mp hhas
    refine ⟨⟨source.record, List.mem_filter.mpr ⟨hhas.1, hmember⟩, rfl⟩, source, hsource, ?_⟩
    rw [henabled, hdraining, decide_eq_true rfl]
    rfl

theorem ServerAccountRecord.enabled_of_routable (h : record.routable = true) :
    record.enabled = true := by
  unfold ServerAccountRecord.routable at h
  simp only [Bool.and_eq_true] at h
  exact h.1.1.1.1.1.1.1.1

theorem ServerAccountRecord.inPool_of_routable (h : record.routable = true) :
    record.inPool = true ∧ record.draining = false := by
  unfold ServerAccountRecord.routable at h
  simp only [Bool.and_eq_true, Bool.not_eq_true'] at h
  exact ⟨h.1.1.1.1.1.1.1.2, h.1.1.1.1.1.1.2⟩

theorem mem_activePoolAccounts (h : (buildAccounts parts now content.accounts.all).atOnce content = .ok accounts) :
    id ∈ activePoolAccounts content.accounts.all accounts ↔ content.poolAccount parts id := by
  obtain ⟨hfrom, hto⟩ := buildAccounts_ok h
  unfold activePoolAccounts ServerContent.poolAccount
  rw [List.mem_filter, List.mem_map, List.any_eq_true]
  constructor
  · rintro ⟨⟨record, hrecord, rfl⟩, account, haccount, hactive⟩
    obtain ⟨hrecord, -⟩ := List.mem_filter.mp hrecord
    rw [Bool.and_eq_true, Bool.and_eq_true, Bool.not_eq_true', decide_eq_true_eq] at hactive
    obtain ⟨⟨henabled, -⟩, hid⟩ := hactive
    obtain ⟨other, hother, havailable, hbuilt⟩ := hfrom account haccount
    rw [hbuilt.same] at hid
    obtain rfl := eq_of_id_eq hother hrecord hid
    exact ⟨other, ⟨hrecord, havailable⟩, hbuilt.enabled.symm.trans henabled, rfl⟩
  · rintro ⟨record, ⟨hrecord, havailable⟩, hroutable, rfl⟩
    obtain ⟨hinPool, hdraining⟩ := ServerAccountRecord.inPool_of_routable hroutable
    obtain ⟨account, haccount, rfl⟩ := hto record hrecord havailable
    obtain ⟨other, -, -, hbuilt⟩ := hfrom account haccount
    refine ⟨⟨account.record, List.mem_filter.mpr ⟨hrecord, hinPool⟩, rfl⟩, account, haccount, ?_⟩
    rw [hbuilt.enabled, ← hbuilt.same, hroutable, hdraining, decide_eq_true rfl]
    rfl

theorem readSettings_atOnce : readSettings.atOnce content = .ok content.settings := rfl

/-- There is a key for the runtime, and an active member of the pool. -/
def ServerContent.Installs (parts : BuildParts) (content : ServerContent) : Prop :=
  (∃ key, content.HasKey key) ∧ ∃ id, content.poolSource parts id ∨ content.poolAccount parts id

/-- How the parts of a runtime come from the content. -/
structure RuntimeParts (parts : BuildParts) (content : ServerContent) (now : String → Nat)
    (accounts : List RuntimeChatGptAccount) (keys : List RuntimeKey) : Prop where
  builtAccounts : (buildAccounts parts now content.accounts.all).atOnce content = .ok accounts
  builtKeys : (buildKeys content.settings.hiddenModels (activePoolSources parts content.sources.all content.runtimeSources)
    (activePoolAccounts content.accounts.all accounts)
    (content.keys.all.filter fun key => key.enabled && isInternalGatewayKey key)).atOnce content = .ok keys

theorem hasKey_iff {record : GatewayKeyRecord} :
    content.HasKey record ↔ record ∈ content.keys.all.filter (fun key => key.enabled && isInternalGatewayKey key) ∧
      ∃ secret, content.vault[record.secretRef]? = some secret := by
  unfold ServerContent.HasKey
  rw [List.mem_filter, Bool.and_eq_true, Option.isSome_iff_exists, and_assoc, and_assoc]

theorem activePool_eq_nil (h : (buildAccounts parts now content.accounts.all).atOnce content = .ok accounts) :
    (activePoolSources parts content.sources.all content.runtimeSources = [] ∧
        activePoolAccounts content.accounts.all accounts = []) ↔
      ¬∃ id, content.poolSource parts id ∨ content.poolAccount parts id := by
  rw [List.eq_nil_iff_forall_not_mem, List.eq_nil_iff_forall_not_mem, ← forall_and, not_exists]
  refine forall_congr' fun id => ?_
  rw [mem_activePoolSources, mem_activePoolAccounts h, not_or]

/-- The keys of the runtime, in terms of the records. -/
theorem RuntimeParts.mem_keys (h : RuntimeParts parts content now accounts keys) :
    key ∈ keys ↔ (∃ id, content.poolSource parts id ∨ content.poolAccount parts id) ∧ ∃ record secret, content.HasKey record ∧
      content.vault[record.secretRef]? = some secret ∧
      key = runtimeKey content.settings.hiddenModels (activePoolSources parts content.sources.all content.runtimeSources)
        (activePoolAccounts content.accounts.all accounts) record secret := by
  rw [buildKeys_ok h.builtKeys, activePool_eq_nil h.builtAccounts, not_not]
  refine and_congr_right fun _ => exists_congr fun record => ?_
  constructor
  · rintro ⟨hrecord, secret, hsecret, heq⟩
    exact ⟨secret, hasKey_iff.mpr ⟨hrecord, secret, hsecret⟩, hsecret, heq⟩
  · rintro ⟨secret, hkey, hsecret, heq⟩
    exact ⟨(hasKey_iff.mp hkey).1, secret, hsecret, heq⟩

theorem RuntimeParts.keys_ne_nil
    (h : RuntimeParts parts content now accounts keys) : keys ≠ [] ↔ content.Installs parts := by
  constructor
  · intro hne
    obtain ⟨key, hkey⟩ := List.exists_mem_of_ne_nil _ hne
    obtain ⟨hpool, record, -, hrecord, -⟩ := h.mem_keys.mp hkey
    exact ⟨⟨record, hrecord⟩, hpool⟩
  · rintro ⟨⟨record, hrecord⟩, hpool⟩
    obtain ⟨-, secret, hsecret⟩ := hasKey_iff.mp hrecord
    exact List.ne_nil_of_mem (h.mem_keys.mpr ⟨hpool, record, secret, hrecord, hsecret, rfl⟩)

/-- Without an active candidate there is no active member of the pool. -/
theorem hasActiveCandidate_of_pool (h : (buildAccounts parts now content.accounts.all).atOnce content = .ok accounts)
    (hpool : content.poolSource parts id ∨ content.poolAccount parts id) :
    hasActiveCandidate content.runtimeSources accounts = true := by
  unfold hasActiveCandidate
  rw [Bool.or_eq_true, List.any_eq_true, List.any_eq_true]
  rcases hpool with hpool | hpool
  · have hmem := mem_activePoolSources.mpr hpool
    obtain ⟨source, hsource, hactive⟩ := List.any_eq_true.mp (List.mem_filter.mp hmem).2
    exact .inl ⟨source, hsource, (Bool.and_eq_true_iff.mp hactive).1⟩
  · have hmem := (mem_activePoolAccounts h).mpr hpool
    obtain ⟨account, haccount, hactive⟩ := List.any_eq_true.mp (List.mem_filter.mp hmem).2
    exact .inr ⟨account, haccount, (Bool.and_eq_true_iff.mp hactive).1⟩

/-- What a rebuild that does not fail gives: no runtime, or one of the parts that come from the content. -/
theorem rebuild_cases {installed : Option ServerRuntime} (h : (rebuild parts now).atOnce content = .ok installed) :
    (installed = none ∧ ¬content.Installs parts) ∨ ∃ r accounts keys, installed = some r ∧
      RuntimeParts parts content now accounts keys ∧ keys ≠ [] ∧
      fromMixedPool parts content.runtimeSources accounts keys content.settings = .ok r := by
  unfold rebuild at h
  rw [Reads.atOnce_get_bind, Reads.atOnce_get_bind, Reads.atOnce_get_bind, Reads.atOnce_bind, readSettings_atOnce] at h
  change Reads.atOnce content (ite _ _ _) = _ at h
  rw [Reads.atOnce_ite] at h
  split at h
  case isTrue hnone =>
    refine .inl ⟨(Except.ok.inj h).symm, fun ⟨⟨key, hkey⟩, id, hpool⟩ => ?_⟩
    rcases hnone with hkeys | ⟨hsources, haccounts⟩
    · exact List.ne_nil_of_mem (hasKey_iff.mp hkey).1 hkeys
    · rcases hpool with ⟨source, hhas, -⟩ | ⟨record, hhas, -⟩
      · exact List.ne_nil_of_mem hhas.1 hsources
      · exact List.ne_nil_of_mem hhas.1 haccounts
  case isFalse =>
  have hsources : (buildSources content.sources.all).atOnce content = .ok content.runtimeSources := atOnce_buildSources _
  rw [Reads.atOnce_bind, hsources] at h
  change Reads.atOnce content (buildAccounts parts now content.accounts.all >>= _) = _ at h
  rw [Reads.atOnce_bind] at h
  obtain ⟨accounts, haccounts, h⟩ := bind_eq_ok.mp h
  rw [Reads.atOnce_ite] at h
  split at h
  case isTrue hinactive =>
    refine .inl ⟨(Except.ok.inj h).symm, fun ⟨_, id, hpool⟩ => ?_⟩
    rw [hasActiveCandidate_of_pool haccounts hpool] at hinactive
    exact nomatch hinactive
  case isFalse =>
  rw [Reads.atOnce_bind] at h
  obtain ⟨keys, hkeys, h⟩ := bind_eq_ok.mp h
  have hparts : RuntimeParts parts content now accounts keys := ⟨haccounts, hkeys⟩
  rw [Reads.atOnce_ite] at h
  split at h
  case isTrue hnone =>
    refine .inl ⟨(Except.ok.inj h).symm, fun hinstalls => ?_⟩
    refine hparts.keys_ne_nil.mpr hinstalls (hnone.resolve_right fun hempty => ?_)
    obtain ⟨id, hpool⟩ := hinstalls.2
    have hactive := hasActiveCandidate_of_pool haccounts hpool
    rw [hempty.1, hempty.2] at hactive
    exact nomatch hactive
  case isFalse hne =>
  rw [Reads.atOnce_ofExcept_bind] at h
  obtain ⟨r, hpool, h⟩ := bind_eq_ok.mp h
  exact .inr ⟨r, accounts, keys, (Except.ok.inj h).symm, hparts, fun heq => hne (.inl heq), hpool⟩

/-- A rebuild installs a runtime exactly if there are a key and an active member of the pool. -/
theorem rebuild_isSome {installed : Option ServerRuntime} (h : (rebuild parts now).atOnce content = .ok installed) :
    installed.isSome = true ↔ content.Installs parts := by
  rcases rebuild_cases h with ⟨rfl, hnot⟩ | ⟨r, accounts, keys, rfl, hparts, hne, -⟩
  · exact iff_of_false nofun hnot
  · exact iff_of_true rfl (hparts.keys_ne_nil.mp hne)

/-- The runtime that is built from a content is the one of that content. -/
theorem rebuild_ok (h : (rebuild parts now).atOnce content = .ok (some r)) : Built parts content r := by
  obtain ⟨r', accounts, keys, heq, hparts, hne, hpool⟩ := (rebuild_cases h).resolve_left fun hnone => nomatch hnone.1
  obtain rfl := Option.some.inj heq
  obtain ⟨hkeys, hholds⟩ := fromMixedPool_ok hpool
  obtain rfl : r.keys = keys := hkeys
  obtain ⟨hfrom, hto⟩ := buildAccounts_ok hparts.builtAccounts
  refine ⟨fun {id candidate} hget => ?_, fun {source candidate} hhas hof => ?_, fun {record} hhas => ?_, fun {id} => ?_,
    fun key hkey => ?_, hne⟩
  · obtain ⟨hid, hcandidate⟩ := hholds.candidate.mp hget
    refine ⟨hid, hcandidate.imp ?_ ?_⟩
    · rintro ⟨source, hsource, hof⟩
      exact ⟨source.record, hasSource_iff.mpr ⟨source, hsource, rfl⟩, hof⟩
    · rintro ⟨account, haccount, rfl⟩
      obtain ⟨record, hrecord, havailable, hbuilt⟩ := hfrom account haccount
      exact ⟨record, ⟨hrecord, havailable⟩, account, hbuilt, rfl⟩
  · obtain ⟨runtimeSource, hmem, rfl⟩ := hasSource_iff.mp hhas
    exact hholds.candidate.mpr ⟨rfl, .inl ⟨runtimeSource, hmem, hof⟩⟩
  · obtain ⟨account, haccount, rfl⟩ := hto record hhas.1 hhas.2
    obtain ⟨other, -, -, hbuilt⟩ := hfrom account haccount
    obtain rfl := hbuilt.same
    exact ⟨accountCandidate parts account, hholds.candidate.mpr ⟨rfl, .inr ⟨account, haccount, rfl⟩⟩, account, hbuilt, rfl⟩
  · constructor
    · rintro ⟨key, hkey, rfl⟩
      obtain ⟨-, record, secret, hrecord, -, rfl⟩ := hparts.mem_keys.mp hkey
      exact ⟨record, hrecord, rfl⟩
    · rintro ⟨record, hrecord, rfl⟩
      obtain ⟨-, secret, hsecret⟩ := hasKey_iff.mp hrecord
      exact ⟨_, hparts.mem_keys.mpr ⟨(hparts.keys_ne_nil.mp hne).2, record, secret, hrecord, hsecret, rfl⟩, rfl⟩
  · obtain ⟨-, record, secret, hrecord, -, rfl⟩ := hparts.mem_keys.mp hkey
    refine ⟨hrecord.2.1, _, _, rfl, rfl, fun id => ?_, fun id => ?_⟩
    · rw [mem_normalizedSet ?_, mem_activePoolSources]
      intro value hvalue
      obtain ⟨source, -, -, -, -, hid⟩ := mem_activePoolSources.mp hvalue
      exact ⟨source.id, hid⟩
    · rw [mem_normalizedSet ?_, mem_activePoolAccounts hparts.builtAccounts]
      intro value hvalue
      obtain ⟨record, -, -, hid⟩ := (mem_activePoolAccounts hparts.builtAccounts).mp hvalue
      exact ⟨record.id, hid⟩

/-! ## What the keys reach -/

/-- A request with the key may be given the candidate, as far as the policy of the candidate and the scope of the key
decide. -/
def RuntimeKey.reaches (key : RuntimeKey) (candidate : RuntimeCandidate) : Bool :=
  key.enabled && candidate.enabled && !candidate.draining && key.scope.includes candidate

theorem PoolKey.includes_iff (h : PoolKey parts content key) :
    key.scope.includes candidate = true ↔
      content.poolSource parts candidate.sourceId ∨ ∃ id ∈ candidate.accountId, content.poolAccount parts id := by
  obtain ⟨sourceIds, accountIds, hsourceIds, haccountIds, hsource, haccount⟩ := h.scope
  unfold CandidateScope.includes
  rw [if_neg fun hnone => Option.some_ne_none _ (hsourceIds.symm.trans hnone.1), hsourceIds, haccountIds, Bool.or_eq_true, Option.any_some,
    decide_eq_true_eq, hsource, Option.any_eq_true]
  refine or_congr_right (exists_congr fun id => and_congr_right fun _ => ?_)
  rw [Option.any_some, decide_eq_true_eq, haccount]

/-- The keys reach a candidate of a source if the source is an active member of the pool. -/
theorem Built.reaches_source (h : Built parts content r) (hkey : key ∈ r.keys)
    (hhas : content.HasSource source)
    (hof : SourceCandidateOf parts source candidate) :
    key.reaches candidate = true ↔ source.enabled = true ∧ source.draining = false ∧ source.isPoolMember parts = true := by
  obtain ⟨_, _, _, _, _, rfl⟩ := hof
  have hpool := h.pool key hkey
  unfold RuntimeKey.reaches
  rw [hpool.enabled, Bool.true_and, Bool.and_eq_true, Bool.and_eq_true, Bool.not_eq_true', hpool.includes_iff, and_assoc]
  refine and_congr_right fun henabled => and_congr_right fun hdraining => ?_
  constructor
  · rintro (⟨other, hother, hmember, -, -, hid⟩ | ⟨_, hnone, -⟩)
    · obtain rfl := eq_of_id_eq hother.1 hhas.1 hid
      exact hmember
    · exact nomatch hnone
  · exact fun hmember => .inl ⟨source, hhas, hmember, henabled, hdraining, rfl⟩

/-- The keys reach the candidate of an account if it can be routed to. -/
theorem Built.reaches_account (h : Built parts content r) (hkey : key ∈ r.keys)
    (hhas : content.HasAccount parts record)
    (hof : AccountCandidateOf parts record candidate) : key.reaches candidate = true ↔ record.routable = true := by
  obtain ⟨account, hbuilt, rfl⟩ := hof
  obtain rfl := hbuilt.same
  have hpool := h.pool key hkey
  unfold RuntimeKey.reaches
  rw [hpool.enabled, Bool.true_and, Bool.and_eq_true, Bool.and_eq_true, Bool.not_eq_true', hpool.includes_iff]
  show ((account.enabled = true ∧ _) ∧ _) ↔ _
  rw [hbuilt.enabled]
  constructor
  · exact fun hreaches => hreaches.1.1
  · intro hroutable
    obtain ⟨-, hdraining⟩ := ServerAccountRecord.inPool_of_routable hroutable
    exact ⟨⟨hroutable, hdraining⟩, .inr ⟨_, rfl, account.record, hhas, hroutable, rfl⟩⟩

/-- A candidate that some key reaches is of a record that is there and enabled. -/
theorem Built.reached (h : Built parts content r)
    (hget : r.candidates.get? id = some candidate) (hkey : key ∈ r.keys)
    (hreaches : key.reaches candidate = true) :
    (candidate.kind = .apiSource ∧ ∃ source, content.sources.get? candidate.sourceId = some source ∧
        source.enabled = true ∧ source.draining = false ∧ source.isPoolMember parts = true) ∨
      (candidate.kind = .oauthAccount ∧ ∃ record, candidate.accountId = some record.id.text ∧
        content.accounts.get? record.id.text = some record ∧ record.routable = true) := by
  obtain ⟨rfl, ⟨source, hhas, hof⟩ | ⟨record, hhas, hof⟩⟩ := h.candidate hget
  · have hactive := (h.reaches_source hkey hhas hof).mp hreaches
    obtain ⟨_, _, _, _, _, rfl⟩ := hof
    exact .inl ⟨rfl, source, RecordTable.mem_all.mp hhas.1, hactive⟩
  · have hroutable := (h.reaches_account hkey hhas hof).mp hreaches
    obtain ⟨account, hbuilt, rfl⟩ := hof
    obtain rfl := hbuilt.same
    exact .inr ⟨rfl, account.record, rfl, RecordTable.mem_all.mp hhas.1, hroutable⟩

end

end Zenith.Server

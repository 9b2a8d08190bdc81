import Zenith.Server.BuiltRuntime

/-!
# The running gateway and the store

Management calls and background refreshes write records and secrets, and then each of them reads the store, builds the
gateway runtime anew and installs it. Nothing orders them: what a slow one has read may be older than what is installed
when it installs its own (`stale_runtime_installed`). As long as that only happens while another one is still to install
something newer, the gateway runs in the end what is built from the store, and nothing that was deleted or disabled is
selectable (`gateway_converges`).
-/

namespace Zenith.Server

open Std Zenith.Publishing Zenith.Records Zenith.Runs Zenith.Runtime Zenith.Scheduler Zenith.Tables Zenith.Text

/-- The writes of calls to the tables, the settings and the vault, and `remove_candidate` on the running gateway. -/
inductive Write
  | saveSource (record : SourceRecord)
  | deleteSource (id : String)
  | saveAccount (record : ServerAccountRecord)
  | deleteAccount (id : String)
  | saveKey (record : GatewayKeyRecord)
  | deleteKey (id : String)
  | saveProxy (record : ServerProxyRecord)
  | deleteProxy (id : String)
  | saveSecret (secretRef secret : String)
  | deleteSecret (secretRef : String)
  | saveSettings (settings : RuntimeSettings)
  | setAccountProxyRequired (required : Bool)
  | setCommonProxyConfigured (configured : Bool)
  | setCommonProxyId (id : Option String)
  | setGatewayEnabled (enabled : Bool)
  | removeCandidate (id : String)

namespace Write

def apply : Write → ServerContent → ServerContent
  | saveSource record, content => { content with sources := content.sources.upsert record }
  | deleteSource id, content => { content with sources := content.sources.delete id }
  | saveAccount record, content => { content with accounts := content.accounts.upsert record }
  | deleteAccount id, content => { content with accounts := content.accounts.delete id }
  | saveKey record, content => { content with keys := content.keys.upsert record }
  | deleteKey id, content => { content with keys := content.keys.delete id }
  | saveProxy record, content => { content with proxies := content.proxies.upsert record }
  | deleteProxy id, content => { content with proxies := content.proxies.delete id }
  | saveSecret secretRef secret, content => { content with vault := content.vault.insert secretRef secret }
  | deleteSecret secretRef, content => { content with vault := content.vault.erase secretRef }
  | saveSettings settings, content => { content with settings }
  | setAccountProxyRequired required, content => { content with accountProxyRequired := required }
  | setCommonProxyConfigured configured, content => { content with commonProxyConfigured := configured }
  | setCommonProxyId id, content => { content with commonProxyId := id }
  | setGatewayEnabled enabled, content => { content with gatewayEnabled := enabled }
  | removeCandidate _, content => content

def touch : Write → Option ServerRuntime → Option ServerRuntime
  | removeCandidate id, running => running.map fun r => { r with gateway := (r.gateway.removeCandidate id).1 }
  | _, running => running

end Write

/-- What `delete_account` writes before it rebuilds. -/
def deleteAccountWrites (record : ServerAccountRecord) : List Write :=
  [.deleteAccount record.id.text, .deleteSecret record.secretRef, .removeCandidate record.id.text]

/-- `refresh_accounts_now` stores what it has learned about the accounts. -/
def refreshAccountsWrites (updated : List ServerAccountRecord) : List Write := updated.map .saveAccount

/-- Calls on one server; the clock shows `now` when a rebuild looks at an account. -/
def gatewayServer (parts : BuildParts) : Publisher ServerContent Write (String → Nat) String (Option ServerRuntime) where
  change := Write.apply
  touch := Write.touch
  program := rebuild parts

abbrev GatewaySystem := System ServerContent Write (String → Nat) String (Option ServerRuntime)

abbrev GatewayStep := Step Write (String → Nat)

/-- The server starts with a rebuild of its own. -/
def serverStart (content : ServerContent) : GatewaySystem := Publisher.initial content none []

/-! ## Accounts and sources that are off -/

inductive Member
  | account (id : String)
  | source (id : String)
deriving DecidableEq, Repr

/-- The member is not there, or disabled. -/
def ServerContent.Off (content : ServerContent) : Member → Prop
  | .account id => ∀ record, content.accounts.get? id = some record → record.enabled = false
  | .source id => ∀ record, content.sources.get? id = some record → record.enabled = false

def Write.turnsOn : Write → Member → Bool
  | saveAccount record, .account id => record.id.text = id && record.enabled
  | saveSource record, .source id => record.id.text = id && record.enabled
  | _, _ => false

/-- The candidates of a member. -/
def Member.owns (candidate : RuntimeCandidate) : Member → Bool
  | .account id => candidate.kind = .oauthAccount && candidate.accountId = some id
  | .source id => candidate.kind = .apiSource && candidate.sourceId = id

/-- Some key of the running gateway reaches a candidate of the member. -/
def Selectable (running : Option ServerRuntime) (member : Member) : Prop :=
  ∃ r ∈ running, ∃ id candidate, r.candidates.get? id = some candidate ∧ member.owns candidate = true ∧
    ∃ key ∈ r.keys, key.reaches candidate = true

/-- The step does not write the record of the member back, enabled. -/
def StaysOff (member : Member) (s : GatewaySystem) (op : GatewayStep) : Prop :=
  ∀ write ∈ Publisher.changeOf s op, write.turnsOn member = false

section
variable {parts : BuildParts} {content : ServerContent} {member : Member}

theorem off_of_get?_eq_none {id : String} (h : content.accounts.get? id = none) : content.Off (.account id) :=
  fun record hget => absurd (hget.symm.trans h) (Option.some_ne_none record)

theorem off_apply (h : content.Off member) {write : Write} (hwrite : write.turnsOn member = false) :
    (write.apply content).Off member := by
  cases member with
  | account id =>
    cases write with
    | saveAccount record =>
      refine RecordTable.forall_get?_upsert h fun hid => ?_
      change (decide (record.id.text = id) && record.enabled) = false at hwrite
      rwa [decide_eq_true hid, Bool.true_and] at hwrite
    | deleteAccount other => exact RecordTable.forall_get?_delete h other
    | _ => exact h
  | source id =>
    cases write with
    | saveSource record =>
      refine RecordTable.forall_get?_upsert h fun hid => ?_
      change (decide (record.id.text = id) && record.enabled) = false at hwrite
      rwa [decide_eq_true hid, Bool.true_and] at hwrite
    | deleteSource other => exact RecordTable.forall_get?_delete h other
    | _ => exact h

theorem Built.not_selectable {r : ServerRuntime} (h : Built parts content r) (hoff : content.Off member) :
    ¬Selectable (some r) member := by
  rintro ⟨r', hr', id, candidate, hget, howns, key, hkey, hreaches⟩
  obtain rfl := Option.some.inj hr'
  cases member with
  | account accountId =>
    obtain ⟨hkind, haccount⟩ := Bool.and_eq_true_iff.mp howns
    rcases h.reached hget hkey hreaches with ⟨hsource, -⟩ | ⟨-, record, hid, hrecord, hroutable⟩
    · rw [hsource] at hkind
      exact nomatch hkind
    · obtain rfl := Option.some.inj (hid.symm.trans (of_decide_eq_true haccount))
      exact Bool.noConfusion ((ServerAccountRecord.enabled_of_routable hroutable).symm.trans (hoff record hrecord))
  | source sourceId =>
    obtain ⟨hkind, hsourceId⟩ := Bool.and_eq_true_iff.mp howns
    obtain rfl := of_decide_eq_true hsourceId
    rcases h.reached hget hkey hreaches with ⟨-, source, hsource, henabled, -⟩ | ⟨haccount, -⟩
    · exact Bool.noConfusion (henabled.symm.trans (hoff source hsource))
    · rw [haccount] at hkind
      exact nomatch hkind

theorem selectable_of_any (running : Option ServerRuntime) (member : Member) (id : String)
    (h : (running.any fun r => (r.candidates.get? id).any fun candidate =>
      member.owns candidate && r.keys.any fun key => key.reaches candidate) = true) : Selectable running member := by
  obtain ⟨r, hr, h⟩ := (Option.any_eq_true ..).mp h
  obtain ⟨candidate, hget, h⟩ := (Option.any_eq_true ..).mp h
  obtain ⟨howns, h⟩ := Bool.and_eq_true_iff.mp h
  obtain ⟨key, hkey, hreaches⟩ := List.any_eq_true.mp h
  exact ⟨r, hr, id, candidate, hget, howns, key, hkey, hreaches⟩

/-- A system of a server that has answered all calls runs what is built from its store, and nothing that was off and has
not been turned on since is selectable. -/
def Converged (parts : BuildParts) (content : ServerContent) (ops : List GatewayStep) : Prop :=
  let s := run (gatewayServer parts).step (serverStart content) ops
  Publisher.Settled s →
    (∃ now, (rebuild parts now).atOnce s.state = .ok s.published) ∧
      ∀ before after member, ops = before ++ after →
        (run (gatewayServer parts).step (serverStart content) before).state.Off member →
        StepsMeet (gatewayServer parts).step (StaysOff member) (run (gatewayServer parts).step (serverStart content) before) after →
        ¬Selectable s.published member

/-- In every interleaving in which what was read before the latest write is only installed while another call is still
to install something newer. -/
theorem gateway_converges {ops : List GatewayStep}
    (hops : StepsMeet (gatewayServer parts).step Publisher.FreshLast (serverStart content) ops) :
    Converged parts content ops := by
  unfold Converged
  intro s hsettled
  obtain ⟨now, hcurrent⟩ : (gatewayServer parts).Current s := Publisher.settled_current hops hsettled
  refine ⟨⟨now, hcurrent⟩, ?_⟩
  rintro before after member rfl hoff hstays
  have hoff : s.state.Off member := by
    have hkeep := Publisher.state_invariant (P := gatewayServer parts) (I := (·.Off member)) ?_ hoff hstays
    · rwa [← run_append] at hkeep
    · exact fun write state hwrite h => off_apply h hwrite
  cases hpublished : s.published with
  | none =>
    rintro ⟨r, hr, -⟩
    exact Option.not_mem_none r hr
  | some r =>
    rw [hpublished] at hcurrent
    exact (rebuild_ok hcurrent).not_selectable hoff

theorem not_converged {ops : List GatewayStep} (hsettled : Publisher.Settled (run (gatewayServer parts).step (serverStart content) ops))
    (hoff : (run (gatewayServer parts).step (serverStart content) ops).state.Off member)
    (hselectable : Selectable (run (gatewayServer parts).step (serverStart content) ops).published member) :
    ¬Converged parts content ops :=
  fun hconverged => (hconverged hsettled).2 ops [] member (List.append_nil ops).symm hoff trivial hselectable

end

/-! ## A rebuild that outlives a deletion -/

theorem memberId_valid : Text.trim "account_1" = "account_1" ∧ Text.asciiLower "account_1" = "account_1" ∧ "account_1" ≠ "" := by
  decide

def sampleMember : ServerAccountRecord :=
  { id := ⟨"account_1", memberId_valid⟩, secretRef := "account:account_1", inPool := true, health := .healthy
    models := ["gpt-5"] }

def sampleCredential : AccountCredential := { accessToken := "token", chatgptAccountId := "account" }

def sampleParts : BuildParts where
  protocolBindings bindings _ _ := .ok bindings
  validateSource _ _ := .ok ()
  sourceConnector _ _ _ := .ok ()
  parseCredential secret := if secret = "credential" then some sampleCredential else none
  agentIdentity _ _ _ := .error "invalid"
  validateTokens _ := .ok ()
  validateEndpoint _ := .ok ()
  parseProxy _ := false
  imageMainModel _ := none
  subscriptionPlanOrder := .ok
  reasoningAllowedLevels := .ok
  serviceTierOverrides := .ok
  toLowercase := asciiLower

/-- One account in the pool, and the system key. -/
def sampleContent : ServerContent where
  accounts := RecordTable.empty.upsert sampleMember
  keys := RecordTable.empty.upsert { id := "key_system", system := true, secretRef := "key:key_system" }
  vault := (∅ : Table String String).insert "account:account_1" "credential" |>.insert "key:key_system" "secret"

def sampleRebuild (task : Nat) : List GatewayStep := .start task (fun _ => 0) :: List.replicate 14 (.read task)

/-- A refresh reads everything, and installs what it has read before the account is deleted. -/
def freshRebuild : List GatewayStep :=
  sampleRebuild 0 ++ [.publish 0, .call (refreshAccountsWrites [])] ++ sampleRebuild 1 ++
    [.publish 1, .call (deleteAccountWrites sampleMember), .change 2, .change 2, .change 2] ++ sampleRebuild 2 ++ [.publish 2]

theorem gateway_converges_sample :
    Publisher.Settled (run (gatewayServer sampleParts).step (serverStart sampleContent) freshRebuild) ∧
      Converged sampleParts sampleContent freshRebuild := by
  refine ⟨?_, gateway_converges (by decide +kernel)⟩
  unfold Publisher.Settled
  decide +kernel

/-- It has read everything when the account is deleted, and installs it when the deletion has returned. -/
def staleRebuild : List GatewayStep :=
  sampleRebuild 0 ++ [.publish 0, .call (refreshAccountsWrites [])] ++ sampleRebuild 1 ++
    [.call (deleteAccountWrites sampleMember), .change 2, .change 2, .change 2] ++ sampleRebuild 2 ++ [.publish 2, .publish 1]

theorem stale_runtime_installed :
    let s := run (gatewayServer sampleParts).step (serverStart sampleContent) staleRebuild
    s.state.accounts.get? "account_1" = none ∧ Selectable s.published (.account "account_1") ∧
      ¬Converged sampleParts sampleContent staleRebuild := by
  dsimp only
  have hselectable := selectable_of_any
    (run (gatewayServer sampleParts).step (serverStart sampleContent) staleRebuild).published
    (.account "account_1") "account_1" (by decide +kernel)
  refine ⟨by decide +kernel, hselectable, not_converged ?_ (off_of_get?_eq_none (by decide +kernel)) hselectable⟩
  unfold Publisher.Settled
  decide +kernel

end Zenith.Server

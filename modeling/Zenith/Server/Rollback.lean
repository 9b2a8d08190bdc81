import Zenith.Lib.Faults
import Zenith.Server.Convergence
import Zenith.Server.UsageStore

/-!
# Calls that rebuild the gateway, with a way back

A management call writes the store and the vault and then rebuilds the gateway. `rebuild_runtime_or_rollback` and
`rollback_and_rebuild_runtime` run the way back of the call and rebuild once more.
-/

namespace Zenith.Server

open Std Zenith.Faults Zenith.Publishing Zenith.Records Zenith.Rollups Zenith.Rows Zenith.Runtime Zenith.Scheduler
  Zenith.Tables Zenith.Text

/-- A row of `response_affinity`: the candidate that a response or a prompt is bound to. -/
structure AffinityRow where
  responseKey : String
  candidateId : String
  expiresAtMs : Nat
deriving DecidableEq, Repr

/-- The store with its usage, the vault and the running gateway. -/
structure ServerState where
  content : ServerContent := {}
  usageEvents : List UsageRow := []
  usageCandidateRollups : List (Row Telemetry.CandidateModel CandidateColumn) := []
  /-- The archived requests, with the time of their row. -/
  usageRequestTombstones : List (String × Nat) := []
  responseAffinity : List AffinityRow := []
  running : Option ServerRuntime := none

/-- The errors of a call: its own by their code, those of a write or a rebuild, and those of a way back that fails. -/
inductive ManagementError
  | refused (code : String)
  | store
  | vault
  | runtime (e : String)
  | notRestored (e rollback : ManagementError)
  | notRebuilt (e restore : ManagementError)
deriving DecidableEq, Repr

namespace ServerState

def write (write : Write) (s : ServerState) : ServerState := { s with content := write.apply s.content }

/-- A new runtime takes over the bindings of its candidates that have not expired; the others are deleted. -/
def install (loadedAtMs : Nat) (installed : Option ServerRuntime) (s : ServerState) : ServerState :=
  match installed with
  | none => { s with running := none }
  | some r =>
    { s with
      running := some r
      responseAffinity := s.responseAffinity.filter fun row =>
        loadedAtMs < row.expiresAtMs && (r.candidates.get? row.candidateId).isSome }

section
variable (s : ServerState) (loadedAtMs : Nat) (installed : Option ServerRuntime)

@[simp] theorem install_content : (s.install loadedAtMs installed).content = s.content := by cases installed <;> rfl

@[simp] theorem install_usageEvents : (s.install loadedAtMs installed).usageEvents = s.usageEvents := by
  cases installed <;> rfl

@[simp] theorem install_usageCandidateRollups :
    (s.install loadedAtMs installed).usageCandidateRollups = s.usageCandidateRollups := by cases installed <;> rfl

@[simp] theorem install_usageRequestTombstones :
    (s.install loadedAtMs installed).usageRequestTombstones = s.usageRequestTombstones := by cases installed <;> rfl

@[simp] theorem install_running : (s.install loadedAtMs installed).running = installed := by cases installed <;> rfl

theorem mem_install_responseAffinity {s : ServerState} {loadedAtMs : Nat} {installed : Option ServerRuntime} {row : AffinityRow}
    (h : row ∈ (s.install loadedAtMs installed).responseAffinity) : row ∈ s.responseAffinity := by
  cases installed with
  | none => exact h
  | some r => exact List.mem_of_mem_filter h

end

end ServerState

/-! ## The rebuild -/

/-- The clock of a rebuild: when it looks at each account, and when it loads the bindings. -/
structure RebuildClock where
  now : String → Nat := fun _ => 0
  loadedAtMs : Nat := 0

abbrev ServerOp := Op ServerState ManagementError

def saveSecret (secretRef secret : String) : ServerOp Unit := Op.write (·.write (.saveSecret secretRef secret)) .vault

def deleteSecret (secretRef : String) : ServerOp Unit := Op.write (·.write (.deleteSecret secretRef)) .vault

section
variable (parts : BuildParts)

/-- A rebuild fails where a read fails, and where the content makes no runtime. -/
def rebuildRuntime (clock : RebuildClock) : ServerOp Unit := do
  Op.write id (.runtime "SQLite operation failed")
  let s ← Op.get
  match (rebuild parts clock.now).atOnce s.content with
  | .error e => Op.throw (.runtime e)
  | .ok installed => Op.modify (·.install clock.loadedAtMs installed)

/-- The way back after the error `e`, and the error of the call if the way back succeeds. -/
def rollbackAndRebuildRuntime (again : RebuildClock) (e : ManagementError) (rollback : ServerOp Unit) : ServerOp Unit := do
  match ← rollback.attempt with
  | .error rollback => Op.throw (.notRestored e rollback)
  | .ok () =>
    match ← (rebuildRuntime parts again).attempt with
    | .error restore => Op.throw (.notRebuilt e restore)
    | .ok () => Op.throw e

/-- `rebuild_runtime_or_rollback`: the error is that of the first rebuild if the second one succeeds. -/
def rebuildRuntimeOrRollback (clock again : RebuildClock) (rollback : ServerOp Unit) : ServerOp Unit := do
  match ← (rebuildRuntime parts clock).attempt with
  | .ok () => return
  | .error e => rollbackAndRebuildRuntime parts again e rollback

end

/-! ## At most one write fails -/

/-- At most one of the writes to come fails, and the call is not cut short. -/
def Single (outcomes : List Outcome) : Prop := outcomes = [] ∨ ∃ place, outcomes = failingAt place

theorem single_nil : Single [] := .inl rfl

theorem single_failingAt (place : Nat) : Single (failingAt place) := .inr ⟨place, rfl⟩

theorem Single.tail {outcomes : List Outcome} (h : Single outcomes) : Single outcomes.tail := by
  obtain rfl | ⟨place, rfl⟩ := h
  · exact single_nil
  · cases place with
    | zero => exact single_nil
    | succ place => exact single_failingAt place

/-- The way back ends in the state `restored`, unless one of its own writes fails. -/
def Restores (rollback : ServerOp Unit) (s restored : ServerState) : Prop :=
  ∀ outcomes, Single outcomes → Meets (rollback ⟨s, outcomes⟩) (fun _ w => w.state = restored ∧ Single w.outcomes)
    (fun _ _ => True) (fun _ => False)

section
variable {parts : BuildParts} {clock again : RebuildClock} {s : ServerState} {outcomes : List Outcome}
  {Q : Unit → World ServerState → Prop} {E : ManagementError → World ServerState → Prop} {C : World ServerState → Prop}

variable {update : ServerState → ServerState} {e : ManagementError}

theorem meets_write_zero :
    Meets (Op.write update e ⟨s, failingAt 0⟩) Q E C ↔ E e ⟨s, []⟩ := Iff.rfl

theorem meets_write_succ {place : Nat} :
    Meets (Op.write update e ⟨s, failingAt (place + 1)⟩) Q E C ↔ Q () ⟨update s, failingAt place⟩ := Iff.rfl

theorem meets_write_single (h : Single outcomes)
    (hQ : Q () ⟨update s, outcomes.tail⟩) (hE : E e ⟨s, []⟩) : Meets (Op.write update e ⟨s, outcomes⟩) Q E C := by
  obtain rfl | ⟨place, rfl⟩ := h
  · exact hQ
  · cases place with
    | zero => exact hE
    | succ place => exact hQ

theorem restores_pure (s : ServerState) : Restores (pure ()) s s := fun _ houtcomes => ⟨rfl, houtcomes⟩

theorem restores_write (s : ServerState) (update : ServerState → ServerState) (e : ManagementError) :
    Restores (Op.write update e) s (update s) :=
  fun _ houtcomes => meets_write_single houtcomes ⟨rfl, houtcomes.tail⟩ trivial

theorem Restores.bind {first second : ServerOp Unit} {s' s'' : ServerState} (h : Restores first s s')
    (h' : Restores second s' s'') : Restores (first >>= fun _ => second) s s'' := by
  intro outcomes houtcomes
  refine (h outcomes houtcomes).bind fun _ w hw => ?_
  obtain ⟨rfl, hrest⟩ := hw
  exact h' w.outcomes hrest

theorem meets_rebuildRuntime (houtcomes : Single outcomes)
    (hQ : ∀ installed, (rebuild parts clock.now).atOnce s.content = .ok installed →
      Q () ⟨s.install clock.loadedAtMs installed, outcomes.tail⟩)
    (hE : ∀ e, E (.runtime e) ⟨s, outcomes.tail⟩) : Meets (rebuildRuntime parts clock ⟨s, outcomes⟩) Q E C := by
  have hread : Meets ((Op.get >>= fun s => match (rebuild parts clock.now).atOnce s.content with
      | .error e => Op.throw (.runtime e)
      | .ok installed => Op.modify (·.install clock.loadedAtMs installed) : ServerOp Unit) ⟨s, outcomes.tail⟩) Q E C := by
    rw [meets_bind, meets_get]
    dsimp only
    cases hrebuild : (rebuild parts clock.now).atOnce s.content with
    | error e => exact hE e
    | ok installed => exact hQ installed hrebuild
  unfold rebuildRuntime
  rw [meets_bind]
  obtain rfl | ⟨place, rfl⟩ := houtcomes
  · exact hread
  · cases place with
    | zero => exact hE _
    | succ place => exact hread

/-- If the way back succeeds, the state is the restored one with what the rebuild installs. -/
theorem meets_rollbackAndRebuildRuntime {rollback : ServerOp Unit} {restored : ServerState}
    (hrollback : Restores rollback s restored) (houtcomes : Single outcomes)
    (hE : ∀ installed rest, (rebuild parts again.now).atOnce restored.content = .ok installed →
      E e ⟨restored.install again.loadedAtMs installed, rest⟩)
    (hbuild : ∀ e' rest, E (.notRebuilt e e') ⟨restored, rest⟩) (hrestore : ∀ e' w, E (.notRestored e e') w) :
    Meets (rollbackAndRebuildRuntime parts again e rollback ⟨s, outcomes⟩) Q E fun _ => False := by
  unfold rollbackAndRebuildRuntime
  rw [meets_bind, meets_attempt]
  refine (hrollback outcomes houtcomes).mono (fun _ w hw => ?_) (fun _ w _ => hrestore _ w) fun _ => id
  obtain ⟨rfl, hrest⟩ := hw
  dsimp only
  rw [meets_bind, meets_attempt]
  exact meets_rebuildRuntime hrest (fun installed hinstalled => hE installed _ hinstalled) fun e' => hbuild _ _

theorem meets_rebuildRuntimeOrRollback (houtcomes : Single outcomes) {rollback : ServerOp Unit} {restored : ServerState}
    (hrollback : Restores rollback s restored)
    (hQ : ∀ installed rest, (rebuild parts clock.now).atOnce s.content = .ok installed →
      Q () ⟨s.install clock.loadedAtMs installed, rest⟩)
    (hE : ∀ e installed rest, (rebuild parts again.now).atOnce restored.content = .ok installed →
      E (.runtime e) ⟨restored.install again.loadedAtMs installed, rest⟩)
    (hbuild : ∀ e e' rest, E (.notRebuilt e e') ⟨restored, rest⟩) (hrestore : ∀ e e' w, E (.notRestored e e') w) :
    Meets (rebuildRuntimeOrRollback parts clock again rollback ⟨s, outcomes⟩) Q E fun _ => False := by
  unfold rebuildRuntimeOrRollback
  rw [meets_bind, meets_attempt]
  refine meets_rebuildRuntime houtcomes (fun installed hinstalled => hQ installed _ hinstalled) fun e => ?_
  exact meets_rollbackAndRebuildRuntime hrollback houtcomes.tail (hE _) (hbuild _) (hrestore _)

end

end Zenith.Server

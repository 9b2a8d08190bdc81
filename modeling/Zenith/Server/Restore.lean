import Zenith.Lib.Parts
import Zenith.Secrets.ServerVault
import Zenith.Server.Migrations

/-!
# Restoring a backup

`backup.rs`. A backup is copied into a staging directory and checked there by opening it. Then the live files are set
aside, one by one, and the staged ones renamed into their places. A rename that fails is answered with a rollback; a crash
or a rename of the rollback that fails is not.

What a start makes of a directory is `DataDir.shown`. A missing database is a new one, and a marker of a migration
replaces whatever database is there (`restore_half_done`).
`restore_all_or_nothing` says when a restore shows the former state or the backup.

The secrets that the records refer to are a parameter, as are SQL and the codec of the vault. Closing a database puts its
log into its file.
-/

namespace Zenith.Server.Restore

open Zenith.Faults Zenith.VaultStore

/-! ## Files -/

/-- The live files that a restore replaces, in the order of `activate_restore`. -/
inductive Target
  | database
  | wal
  | shm
  | vault
  | vaultBackup
deriving DecidableEq, Repr

def targets : List Target := [.database, .wal, .shm, .vault, .vaultBackup]

/-- A log is what it makes of its database. -/
def Target.Content (ρ : Type) : Target → Type
  | .database => Option (Database ρ)
  | .wal => Database ρ
  | .shm => Unit
  | .vault | .vaultBackup => List UInt8

abbrev TargetFiles (ρ : Type) := (target : Target) → Option (target.Content ρ)

/-- A manifest is its format and version, where it can be read. -/
abbrev ManifestFile := Option (Option (String × Nat))

structure Backup (ρ : Type) where
  manifest : ManifestFile
  database : Option (Option (Database ρ))
  vault : Option (List UInt8)

structure Staging (ρ : Type) where
  manifest : ManifestFile := none
  store : StoreFiles ρ := {}
  vault : Option (List UInt8) := none

/-- `aside` has the live files under their temporary names. Of `migration` the files beside the database matter. -/
structure DataDir (ρ : Type) where
  live : TargetFiles ρ
  aside : TargetFiles ρ := fun _ => none
  migration : StoreFiles ρ := {}
  staging : Option (Staging ρ) := none

inductive RestoreError
  | io
  | failed (message : String)
  | vault (e : VaultError)
deriving DecidableEq, Repr

abbrev RestoreOp (ρ α : Type) := Op (DataDir ρ) RestoreError α

/-- What a server opens its files with, and the check that the secrets of a store are in the vault. -/
structure ServerSetup (ρ : Type) where
  version : ServerVersion ρ
  codec : Codec
  key : Key
  validateStoreSecrets : Option (Option (Database ρ)) → VaultData → Except String Unit

section
variable {ρ : Type}

def withLive (live : TargetFiles ρ) (files : StoreFiles ρ) : StoreFiles ρ :=
  { files with database := live .database, wal := live .wal, shm := (live .shm).isSome }

/-- What the next start finds: how the two opens end, and with what content. -/
def DataDir.shown (setup : ServerSetup ρ) (dir : DataDir ρ) :
    (Result String Unit × Option (Option (Database ρ))) × Result VaultError Unit × VaultData :=
  let store := (openStore setup.version).calm (withLive dir.live dir.migration)
  let vault := (ServerVault.openVault setup.codec setup.key).calm ⟨∅, ⟨dir.live .vault, dir.live .vaultBackup, none⟩⟩
  ((store.1, store.2.content), vault.1, vault.2.data)

/-- The backup, as if it were live. -/
def Backup.dataDir (backup : Backup ρ) : DataDir ρ where
  live
    | .database => backup.database
    | .vault => backup.vault
    | .wal | .shm | .vaultBackup => none

def Staging.file (staging : Staging ρ) : TargetFiles ρ
  | .database => staging.store.database
  | .vault => staging.vault
  | .wal | .shm | .vaultBackup => none

/-- The staged file has been renamed. -/
def Staging.without (staging : Staging ρ) : Target → Staging ρ
  | .database => { staging with store := { staging.store with database := none } }
  | .vault => { staging with vault := none }
  | .wal | .shm | .vaultBackup => staging

def DataDir.staged (dir : DataDir ρ) (target : Target) : Option (target.Content ρ) := dir.staging.bind (·.file target)

def moveAside (target : Target) (dir : DataDir ρ) : DataDir ρ :=
  { dir with
    live := Function.update dir.live target none
    aside := Function.update dir.aside target (dir.live target) }

def install (target : Target) (dir : DataDir ρ) : DataDir ρ :=
  { dir with
    live := Function.update dir.live target (dir.staged target)
    staging := dir.staging.map (·.without target) }

def removeInstalled (target : Target) (dir : DataDir ρ) : DataDir ρ :=
  { dir with live := Function.update dir.live target none }

def putBack (target : Target) (dir : DataDir ρ) : DataDir ρ :=
  { dir with
    live := Function.update dir.live target (dir.aside target)
    aside := Function.update dir.aside target none }

def removeAside (target : Target) (dir : DataDir ρ) : DataDir ρ :=
  { dir with aside := Function.update dir.aside target none }

def restoreWrite (update : DataDir ρ → DataDir ρ) : RestoreOp ρ Unit := Op.write update .io

/-- `let _ = …`, for each of the files. -/
def ignoreEach (update : Target → DataDir ρ → DataDir ρ) : List Target → RestoreOp ρ Unit
  | [] => return ()
  | target :: rest => do
    let _ ← (restoreWrite (update target)).attempt
    ignoreEach update rest

/-! ## Activating a restore -/

def rollbackRestore (moved installed : List Target) : RestoreOp ρ Unit := do
  ignoreEach removeInstalled installed.reverse
  ignoreEach putBack moved.reverse

/-- Sets aside those of the files that are there, after those that were moved. -/
def moveFiles : List Target → List Target → RestoreOp ρ (List Target)
  | [], moved => return moved
  | target :: rest, moved => do
    if ((← Op.get).live target).isSome then
      match ← (restoreWrite (moveAside target)).attempt with
      | .error e => do
        rollbackRestore moved []
        Op.throw e
      | .ok _ => moveFiles rest (moved ++ [target])
    else moveFiles rest moved

def installFiles (moved : List Target) : List Target → List Target → RestoreOp ρ Unit
  | [], _ => return ()
  | target :: rest, installed => do
    if ((← Op.get).staged target).isSome then
      -- `create_dir_all(parent)` comes first.
      match ← (restoreWrite id).attempt with
      | .error e => do
        rollbackRestore moved installed
        Op.throw e
      | .ok _ =>
        match ← (restoreWrite (install target)).attempt with
        | .error e => do
          rollbackRestore moved installed
          Op.throw e
        | .ok _ => installFiles moved rest (installed ++ [target])
    else installFiles moved rest installed

def activateRestore : RestoreOp ρ Unit := do
  let moved ← moveFiles targets []
  installFiles moved targets []
  ignoreEach removeAside moved

/-! ## Restoring -/

def backupFormat : String := "zenith-relay-server-backup"

def backupVersion : Nat := 1

def validateManifest : ManifestFile → Except RestoreError Unit
  | none => .error .io
  | some none => .error (.failed "backup manifest is invalid")
  | some (some (format, version)) =>
    if format ≠ backupFormat ∨ version ≠ backupVersion then .error (.failed "backup format is not supported") else .ok ()

def setStaging (update : Staging ρ → Staging ρ) (dir : DataDir ρ) : DataDir ρ :=
  { dir with staging := dir.staging.map update }

/-- The store in the staging directory. -/
def stagedStore : Part (DataDir ρ) (StoreFiles ρ) where
  get dir := (dir.staging.map (·.store)).getD {}
  put store := setStaging fun staging => { staging with store }

/-- Closed, a database is in its file, and the log and its index are gone. -/
def closed (files : StoreFiles ρ) : StoreFiles ρ :=
  { files with database := files.content, wal := none, shm := false }

section
variable (setup : ServerSetup ρ) (source : Backup ρ)

def copyToStaging : RestoreOp ρ Unit := do
  restoreWrite (setStaging fun staging => { staging with manifest := source.manifest })
  restoreWrite (setStaging fun staging => { staging with store := { database := source.database } })
  if source.vault.isSome then do
    restoreWrite id
    restoreWrite (setStaging fun staging => { staging with vault := source.vault })

/-- `validate_backup` of the staging directory. -/
def validateBackup : RestoreOp ρ Unit := do
  Op.ofExcept (validateManifest ((← Op.get).staging.bind (·.manifest)))
  (openStore setup.version).on stagedStore .failed
  let dir ← Op.get
  match ServerVault.readFile setup.codec setup.key (dir.staged .vault) with
  | .error e => Op.throw (.vault e)
  | .ok data =>
    match setup.validateStoreSecrets (stagedStore.get dir).content data with
    | .error message => Op.throw (.failed message)
    | .ok _ => Op.modify (setStaging fun staging => { staging with store := closed staging.store })

def createStaging : RestoreOp ρ Unit := do
  Op.ofExcept (validateManifest source.manifest)
  if source.database.isNone then Op.throw (.failed "backup database is missing")
  else restoreWrite fun dir => { dir with staging := some {} }

def removeStaging : RestoreOp ρ Unit := do
  let _ ← (restoreWrite fun dir => { dir with staging := none }).attempt

/-- What comes before a live file is touched. -/
def stageBackup : RestoreOp ρ Unit := do
  copyToStaging source
  validateBackup setup

def restore : RestoreOp ρ Unit := do
  createStaging source
  match ← (do stageBackup setup source; activateRestore).attempt with
  | .error e => do
    removeStaging
    Op.throw e
  | .ok _ => removeStaging

end

/-! ## When an activation goes well -/

/-- A write that does not take effect is harmless where nothing has been changed, or where it fails and the rollback of
the changes goes. -/
def StopsWell (changed : Nat) (outcomes : List Outcome) : Prop :=
  ¬Goes 1 outcomes → changed = 0 ∨ outcomes.head? = some .failed ∧ Goes changed (outcomes.drop 1)

instance (changed : Nat) (outcomes : List Outcome) : Decidable (StopsWell changed outcomes) :=
  inferInstanceAs (Decidable (¬_ → _ ∨ _ ∧ _))

/-- The outcomes while the files are installed, after the given number of changes. At the end there is no marker. -/
def InstallsGo (dir : DataDir ρ) : List Target → Nat → List Outcome → Prop
  | [], _, _ => dir.migration.marker = none
  | target :: rest, changed, outcomes =>
    if (dir.staged target).isSome then
      StopsWell changed outcomes ∧ (Goes 1 outcomes → StopsWell changed (outcomes.drop 1) ∧
        (Goes 1 (outcomes.drop 1) → InstallsGo dir rest (changed + 1) (outcomes.drop 2)))
    else InstallsGo dir rest changed outcomes

/-- The outcomes from the first file that is set aside. -/
def MovesGo (dir : DataDir ρ) : List Target → Nat → List Outcome → Prop
  | [], changed, outcomes => InstallsGo dir targets changed outcomes
  | target :: rest, changed, outcomes =>
    if (dir.live target).isSome then
      StopsWell changed outcomes ∧ (Goes 1 outcomes → MovesGo dir rest (changed + 1) (outcomes.drop 1))
    else MovesGo dir rest changed outcomes

instance InstallsGo.decidable (dir : DataDir ρ) :
    (files : List Target) → (changed : Nat) → (outcomes : List Outcome) → Decidable (InstallsGo dir files changed outcomes)
  | [], _, _ => inferInstanceAs (Decidable (dir.migration.marker = none))
  | target :: rest, changed, outcomes =>
    have := InstallsGo.decidable dir rest (changed + 1) (outcomes.drop 2)
    have := InstallsGo.decidable dir rest changed outcomes
    inferInstanceAs (Decidable (if (dir.staged target).isSome then _ else _))

instance MovesGo.decidable (dir : DataDir ρ) :
    (files : List Target) → (changed : Nat) → (outcomes : List Outcome) → Decidable (MovesGo dir files changed outcomes)
  | [], changed, outcomes => InstallsGo.decidable dir targets changed outcomes
  | target :: rest, changed, outcomes =>
    have := MovesGo.decidable dir rest (changed + 1) (outcomes.drop 1)
    have := MovesGo.decidable dir rest changed outcomes
    inferInstanceAs (Decidable (if (dir.live target).isSome then _ else _))

/-- Where the backup is staged, its activation goes well. -/
def RestoreGoes (setup : ServerSetup ρ) (source : Backup ρ) (dir : DataDir ρ) (outcomes : List Outcome) : Prop :=
  match (do createStaging source; stageBackup setup source : RestoreOp ρ Unit) ⟨dir, outcomes⟩ with
  | (.ok _, w) => MovesGo w.state targets 0 w.outcomes
  | _ => True

instance (setup : ServerSetup ρ) (source : Backup ρ) (dir : DataDir ρ) (outcomes : List Outcome) :
    Decidable (RestoreGoes setup source dir outcomes) := by
  unfold RestoreGoes
  split
  · infer_instance
  · infer_instance

/-- After a restore that returns a start shows the backup; after one that does not, the former state or the backup. -/
def AllOrNothing (setup : ServerSetup ρ) (source : Backup ρ) (dir : DataDir ρ) (outcomes : List Outcome) : Prop :=
  Meets (restore setup source ⟨dir, outcomes⟩) (fun _ w => w.state.shown setup = source.dataDir.shown setup)
    (fun _ w => w.state.shown setup = dir.shown setup ∨ w.state.shown setup = source.dataDir.shown setup)
    fun w => w.state.shown setup = dir.shown setup ∨ w.state.shown setup = source.dataDir.shown setup

/-! ## Rolling back -/

section
variable {dir : DataDir ρ} {outcomes : List Outcome}

theorem meets_ignoreEach (update : Target → DataDir ρ → DataDir ρ) {files : List Target} (hgoes : Goes files.length outcomes) :
    Meets (ignoreEach update files ⟨dir, outcomes⟩)
      (fun _ w => w.state = files.foldl (fun dir target => update target dir) dir ∧ w.outcomes = outcomes.drop files.length)
      (fun _ _ => False) fun _ => False := by
  induction files generalizing dir outcomes with
  | nil => exact ⟨rfl, rfl⟩
  | cons target rest ih =>
    rw [List.length_cons, Nat.add_comm] at hgoes
    obtain ⟨hfirst, hrest⟩ := (goes_add 1 rest.length outcomes).mp hgoes
    refine (meets_bind _ _).mpr ((meets_attempt _).mpr (meets_write_goes (fun _ => ?_) (fun hstop => absurd hfirst hstop)
      fun hstop => absurd hfirst hstop))
    refine (ih hrest).mono (fun _ w h => ⟨h.1, ?_⟩) (fun _ _ h => h) fun _ h => h
    rw [h.2, List.drop_drop, List.length_cons, Nat.add_comm]

theorem live_foldl_remove (files : List Target) (target : Target) :
    (files.foldl (fun dir target => removeInstalled target dir) dir).live target = if target ∈ files then none else dir.live target := by
  induction files generalizing dir with
  | nil => rfl
  | cons first rest ih =>
    rw [List.foldl_cons, ih]
    unfold removeInstalled
    dsimp only
    by_cases hrest : target ∈ rest
    · rw [if_pos hrest, if_pos (List.mem_cons_of_mem _ hrest)]
    · rw [if_neg hrest]
      by_cases heq : target = first
      · subst heq
        rw [Function.update_self, if_pos List.mem_cons_self]
      · rw [Function.update_of_ne heq, if_neg (by simp [heq, hrest])]

theorem rest_foldl_remove (files : List Target) :
    (files.foldl (fun dir target => removeInstalled target dir) dir).aside = dir.aside ∧
      (files.foldl (fun dir target => removeInstalled target dir) dir).migration = dir.migration := by
  induction files generalizing dir with
  | nil => exact ⟨rfl, rfl⟩
  | cons first rest ih => exact ih

theorem live_foldl_putBack {files : List Target} (hnodup : files.Nodup) (target : Target) :
    (files.foldl (fun dir target => putBack target dir) dir).live target =
      if target ∈ files then dir.aside target else dir.live target := by
  induction files generalizing dir with
  | nil => rfl
  | cons first rest ih =>
    obtain ⟨hfirst, hrest⟩ := List.nodup_cons.mp hnodup
    rw [List.foldl_cons, ih hrest]
    unfold putBack
    dsimp only
    by_cases heq : target = first
    · subst heq
      rw [if_neg hfirst, Function.update_self, if_pos List.mem_cons_self]
    · rw [Function.update_of_ne heq, Function.update_of_ne heq]
      simp only [List.mem_cons, heq, false_or]

theorem migration_foldl_putBack (files : List Target) :
    (files.foldl (fun dir target => putBack target dir) dir).migration = dir.migration := by
  induction files generalizing dir with
  | nil => rfl
  | cons first rest ih => exact ih

end

/-! ## While a restore is activated -/

/-- What has become of a directory, after some files were set aside and some installed. -/
structure Activated (dir : DataDir ρ) (moved installed : List Target) (now : DataDir ρ) : Prop where
  live : ∀ target, now.live target =
    if target ∈ installed then dir.staged target else if target ∈ moved then none else dir.live target
  aside : ∀ target ∈ moved, now.aside target = dir.live target
  staged : ∀ target ∉ installed, now.staged target = dir.staged target
  migration : now.migration = dir.migration
  nodup : moved.Nodup
  covers : ∀ target ∈ installed, target ∈ moved ∨ dir.live target = none

/-- The live files and those of a migration are the former ones. -/
def Untouched (dir now : DataDir ρ) : Prop := now.live = dir.live ∧ now.migration = dir.migration

/-- The staged files are the live ones, and there is no marker. -/
def Installed (dir now : DataDir ρ) : Prop :=
  now.live = dir.staged ∧ now.migration = dir.migration ∧ dir.migration.marker = none

section
variable {dir now : DataDir ρ} {moved installed : List Target} {outcomes : List Outcome}

theorem Activated.start (dir : DataDir ρ) : Activated dir [] [] dir where
  live _ := by simp
  aside := nofun
  staged _ _ := rfl
  migration := rfl
  nodup := List.nodup_nil
  covers := nofun

theorem Activated.untouched (h : Activated dir [] [] now) : Untouched dir now :=
  ⟨funext fun target => (h.live target).trans (by simp), h.migration⟩

theorem Activated.moveAside (h : Activated dir moved [] now) {target : Target} (hnew : target ∉ moved) :
    Activated dir (moved ++ [target]) [] (Restore.moveAside target now) where
  live other := by
    unfold Restore.moveAside
    dsimp only
    by_cases heq : other = target
    · subst heq
      rw [Function.update_self, if_neg List.not_mem_nil, if_pos (by simp)]
    · rw [Function.update_of_ne heq, h.live]
      simp [heq]
  aside other hmem := by
    unfold Restore.moveAside
    dsimp only
    by_cases heq : other = target
    · subst heq
      rw [Function.update_self, h.live, if_neg List.not_mem_nil, if_neg hnew]
    · rw [Function.update_of_ne heq]
      exact h.aside other ((List.mem_append.mp hmem).resolve_right (by simp [heq]))
  staged := h.staged
  migration := h.migration
  nodup := List.nodup_append.mpr ⟨h.nodup, List.nodup_singleton _, by
    rintro a ha b hb rfl
    exact hnew (List.mem_singleton.mp hb ▸ ha)⟩
  covers := nofun

theorem staged_install {target other : Target} (hne : other ≠ target) : (install target now).staged other = now.staged other := by
  unfold install DataDir.staged
  dsimp only
  cases now.staging with
  | none => rfl
  | some staging => cases target <;> cases other <;> first | rfl | exact absurd rfl hne

theorem Activated.install (h : Activated dir moved installed now) {target : Target} (hnew : target ∉ installed)
    (hcovers : target ∈ moved ∨ dir.live target = none) :
    Activated dir moved (installed ++ [target]) (Restore.install target now) where
  live other := by
    have hlive : (Restore.install target now).live = Function.update now.live target (now.staged target) := rfl
    rw [hlive]
    by_cases heq : other = target
    · subst heq
      rw [Function.update_self, h.staged other hnew, if_pos (by simp)]
    · rw [Function.update_of_ne heq, h.live]
      simp [heq]
  aside := h.aside
  staged other hother := by
    have hne : other ≠ target := fun heq => hother (heq ▸ List.mem_append_right _ List.mem_cons_self)
    rw [staged_install hne]
    exact h.staged other fun hmem => hother (List.mem_append_left _ hmem)
  migration := h.migration
  nodup := h.nodup
  covers other hmem := by
    rcases List.mem_append.mp hmem with hold | hlast
    · exact h.covers other hold
    · exact List.mem_singleton.mp hlast ▸ hcovers

/-- A rollback that goes brings the former files back. -/
theorem Activated.rollback (h : Activated dir moved installed now) (hgoes : Goes (installed.length + moved.length) outcomes) :
    Meets (rollbackRestore moved installed ⟨now, outcomes⟩) (fun _ w => Untouched dir w.state) (fun _ _ => False)
      fun _ => False := by
  obtain ⟨hinstalled, hmoved⟩ := (goes_add _ _ _).mp hgoes
  rw [← List.length_reverse] at hinstalled
  refine Meets.bind (meets_ignoreEach removeInstalled hinstalled) ?_
  rintro _ ⟨now₁, outcomes₁⟩ ⟨rfl, rfl⟩
  rw [List.length_reverse, ← @List.length_reverse _ moved] at *
  refine (meets_ignoreEach putBack hmoved).mono ?_ (fun _ _ h => h) fun _ h => h
  rintro _ w ⟨hstate, -⟩
  rw [hstate]
  refine ⟨funext fun target => ?_, (migration_foldl_putBack _).trans ((rest_foldl_remove _).2.trans h.migration)⟩
  rw [live_foldl_putBack (List.nodup_reverse.mpr h.nodup), (rest_foldl_remove _).1, live_foldl_remove]
  simp only [List.mem_reverse]
  by_cases hmoved : target ∈ moved
  · rw [if_pos hmoved]
    exact h.aside target hmoved
  · rw [if_neg hmoved]
    by_cases hinstalled : target ∈ installed
    · rw [if_pos hinstalled]
      exact ((h.covers target hinstalled).resolve_left hmoved).symm
    · rw [if_neg hinstalled, h.live, if_neg hinstalled, if_neg hmoved]

/-- One write, with the rollback that answers its failure. -/
theorem Activated.change (h : Activated dir moved installed now) (hstop : StopsWell (installed.length + moved.length) outcomes)
    {α : Type} {update : DataDir ρ → DataDir ρ} {next : RestoreOp ρ α} {Q : α → World (DataDir ρ) → Prop}
    {C : World (DataDir ρ) → Prop}
    (hnext : Goes 1 outcomes → Meets (next ⟨update now, outcomes.drop 1⟩) Q (fun _ w => Untouched dir w.state) C)
    (hcrash : ∀ w, Untouched dir w.state → C w) :
    Meets ((do
      match ← (restoreWrite update).attempt with
      | .error e => do
        rollbackRestore moved installed
        Op.throw e
      | .ok _ => next) ⟨now, outcomes⟩) Q (fun _ w => Untouched dir w.state) C := by
  -- Where nothing has been changed there is nothing to roll back.
  have hnothing : installed.length + moved.length = 0 → Activated dir [] [] now ∧ installed = [] ∧ moved = [] := by
    intro hzero
    obtain ⟨hinstalled, hmoved⟩ := Nat.add_eq_zero_iff.mp hzero
    obtain rfl := List.length_eq_zero_iff.mp hinstalled
    obtain rfl := List.length_eq_zero_iff.mp hmoved
    exact ⟨h, rfl, rfl⟩
  refine (meets_bind _ _).mpr ((meets_attempt _).mpr (meets_write_goes hnext (fun hstops _ => ?_) fun hstops hhead => ?_))
  · rcases hstop hstops with hzero | ⟨-, hgoes⟩
    · obtain ⟨huntouched, rfl, rfl⟩ := hnothing hzero
      exact huntouched.untouched
    · exact (meets_bind _ _).mpr ((h.rollback hgoes).mono (fun _ _ huntouched => huntouched) (fun _ _ => False.elim) fun _ => False.elim)
  · rcases hstop hstops with hzero | ⟨hfailed, -⟩
    · exact hcrash _ (hnothing hzero).1.untouched
    · exact nomatch hhead.symm.trans hfailed

theorem meets_moveFiles {rest : List Target} (h : Activated dir moved [] now) (hnodup : rest.Nodup)
    (hnew : ∀ target ∈ rest, target ∉ moved) (hgoes : MovesGo dir rest moved.length outcomes) :
    Meets (moveFiles rest moved ⟨now, outcomes⟩)
      (fun moved' w => Activated dir moved' [] w.state ∧ InstallsGo dir targets moved'.length w.outcomes ∧
        ∀ target, target ∈ moved ∨ target ∈ rest → target ∈ moved' ∨ dir.live target = none)
      (fun _ w => Untouched dir w.state) fun w => Untouched dir w.state := by
  induction rest generalizing moved now outcomes with
  | nil => exact ⟨h, hgoes, fun target hmem => .inl (hmem.resolve_right List.not_mem_nil)⟩
  | cons target rest ih =>
    obtain ⟨hfirst, hrest⟩ := List.nodup_cons.mp hnodup
    have htarget : target ∉ moved := hnew target List.mem_cons_self
    have hlive : now.live target = dir.live target := by
      rw [h.live, if_neg List.not_mem_nil, if_neg htarget]
    unfold moveFiles
    refine (meets_bind _ _).mpr (meets_get.mpr ?_)
    dsimp only
    rw [hlive]
    unfold MovesGo at hgoes
    split at hgoes
    case isTrue hsome =>
      rw [if_pos hsome]
      refine h.change (by rw [List.length_nil, Nat.zero_add]; exact hgoes.1) (fun hgo => ?_) fun _ h => h
      refine (ih (h.moveAside htarget) hrest ?_ ?_).mono (fun moved' w h' => ⟨h'.1, h'.2.1, fun other hother => ?_⟩)
        (fun _ _ h => h) fun _ h => h
      · intro other hmem hmoved
        rcases List.mem_append.mp hmoved with hold | hlast
        · exact hnew other (List.mem_cons_of_mem _ hmem) hold
        · exact hfirst (List.mem_singleton.mp hlast ▸ hmem)
      · rw [List.length_append]
        exact hgoes.2 hgo
      · refine h'.2.2 other ?_
        rcases hother with hold | hmem
        · exact .inl (List.mem_append_left _ hold)
        · rcases List.mem_cons.mp hmem with rfl | hmem
          · exact .inl (List.mem_append_right _ List.mem_cons_self)
          · exact .inr hmem
    case isFalse hnone =>
      rw [if_neg hnone]
      refine (ih h hrest (fun other hmem => hnew other (List.mem_cons_of_mem _ hmem)) hgoes).mono
        (fun moved' w h' => ⟨h'.1, h'.2.1, fun other hother => ?_⟩) (fun _ _ h => h) fun _ h => h
      rcases hother with hold | hmem
      · exact h'.2.2 other (.inl hold)
      · rcases List.mem_cons.mp hmem with rfl | hmem
        · exact .inr (Option.not_isSome_iff_eq_none.mp hnone)
        · exact h'.2.2 other (.inr hmem)

theorem meets_installFiles {rest : List Target} (h : Activated dir moved installed now) (hnodup : rest.Nodup)
    (hnew : ∀ target ∈ rest, target ∉ installed) (hcovers : ∀ target, target ∈ moved ∨ dir.live target = none)
    (hgoes : InstallsGo dir rest (installed.length + moved.length) outcomes) :
    Meets (installFiles moved rest installed ⟨now, outcomes⟩)
      (fun _ w => ∃ installed', Activated dir moved installed' w.state ∧ dir.migration.marker = none ∧
        ∀ target, target ∈ installed ∨ target ∈ rest → target ∈ installed' ∨ dir.staged target = none)
      (fun _ w => Untouched dir w.state) fun w => Untouched dir w.state := by
  induction rest generalizing installed now outcomes with
  | nil => exact ⟨installed, h, hgoes, fun _ hmem => .inl (hmem.resolve_right List.not_mem_nil)⟩
  | cons target rest ih =>
    obtain ⟨hfirst, hrest⟩ := List.nodup_cons.mp hnodup
    have htarget : target ∉ installed := hnew target List.mem_cons_self
    have hstaged : now.staged target = dir.staged target := h.staged target htarget
    unfold installFiles
    refine (meets_bind _ _).mpr (meets_get.mpr ?_)
    dsimp only
    rw [hstaged]
    unfold InstallsGo at hgoes
    split at hgoes
    case isTrue hsome =>
      rw [if_pos hsome]
      obtain ⟨hmakes, hgoes⟩ := hgoes
      refine h.change hmakes (fun hmade => ?_) fun _ h => h
      obtain ⟨hrenames, hgoes⟩ := hgoes hmade
      refine h.change hrenames (fun hrenamed => ?_) fun _ h => h
      rw [List.drop_drop]
      refine (ih (h.install htarget (hcovers target)) hrest ?_ ?_).mono ?_ (fun _ _ h => h) fun _ h => h
      · intro other hmem hinstalled
        rcases List.mem_append.mp hinstalled with hold | hlast
        · exact hnew other (List.mem_cons_of_mem _ hmem) hold
        · exact hfirst (List.mem_singleton.mp hlast ▸ hmem)
      · rw [List.length_append, List.length_singleton, Nat.add_right_comm]
        exact hgoes hrenamed
      · rintro _ w ⟨installed', hactivated, hmarker, hall⟩
        refine ⟨installed', hactivated, hmarker, fun other hother => hall other ?_⟩
        rcases hother with hold | hmem
        · exact .inl (List.mem_append_left _ hold)
        · rcases List.mem_cons.mp hmem with rfl | hmem
          · exact .inl (List.mem_append_right _ List.mem_cons_self)
          · exact .inr hmem
    case isFalse hnone =>
      rw [if_neg hnone]
      refine (ih h hrest (fun other hmem => hnew other (List.mem_cons_of_mem _ hmem)) hgoes).mono ?_ (fun _ _ h => h) fun _ h => h
      rintro _ w ⟨installed', hactivated, hmarker, hall⟩
      refine ⟨installed', hactivated, hmarker, fun other hother => ?_⟩
      rcases hother with hold | hmem
      · exact hall other (.inl hold)
      · rcases List.mem_cons.mp hmem with rfl | hmem
        · exact .inr (Option.not_isSome_iff_eq_none.mp hnone)
        · exact hall other (.inr hmem)

theorem nodup_targets : targets.Nodup := by decide

theorem mem_targets (target : Target) : target ∈ targets := by
  cases target <;> decide

/-- Removing the files that were set aside changes no live file, whatever comes of it. -/
theorem meets_removeAside {P : DataDir ρ → Prop} (hP : ∀ target dir, P dir → P (removeAside target dir)) {files : List Target}
    (h : P now) : Meets (ignoreEach removeAside files ⟨now, outcomes⟩) (fun _ w => P w.state) (fun _ _ => False) fun w => P w.state := by
  induction files generalizing now outcomes with
  | nil => exact h
  | cons target rest ih =>
    exact (meets_bind _ _).mpr ((meets_attempt _).mpr (meets_write_goes (fun _ => ih (hP target now h)) (fun _ _ => ih h) fun _ _ => h))

/-- Where the activation goes well, the staged files are live after it, or the former ones are. -/
theorem meets_activateRestore (hgoes : MovesGo dir targets 0 outcomes) :
    Meets (activateRestore ⟨dir, outcomes⟩) (fun _ w => Installed dir w.state) (fun _ w => Untouched dir w.state)
      fun w => Untouched dir w.state ∨ Installed dir w.state := by
  have hmoves := meets_moveFiles (Activated.start dir) nodup_targets (fun _ _ => List.not_mem_nil) hgoes
  refine (meets_bind _ _).mpr (hmoves.mono ?_ (fun _ _ h => h) fun _ h => .inl h)
  rintro moved w ⟨hmoved, hgoes, hcovers⟩
  have hcovers : ∀ target, target ∈ moved ∨ dir.live target = none := fun target => hcovers target (.inr (mem_targets target))
  have hinstalls := meets_installFiles hmoved nodup_targets (fun _ _ => List.not_mem_nil) hcovers
    (by rw [List.length_nil, Nat.zero_add]; exact hgoes)
  refine (meets_bind _ _).mpr (hinstalls.mono ?_ (fun _ _ h => h) fun _ h => .inl h)
  rintro _ w ⟨installed, hactivated, hmarker, hall⟩
  have hinstalled : Installed dir w.state := by
    refine ⟨funext fun target => ?_, hactivated.migration, hmarker⟩
    rw [hactivated.live]
    rcases hall target (.inr (mem_targets target)) with hmem | hnone
    · rw [if_pos hmem]
    · have hformer : (if target ∈ moved then none else dir.live target) = none := by
        rcases hcovers target with hmem | hnone
        · exact if_pos hmem
        · rw [hnone, ite_self]
      rw [hnone, hformer, ite_self]
  exact (meets_removeAside (fun _ _ h => h) hinstalled).mono (fun _ _ h => h) (fun _ _ => False.elim) fun _ h => .inr h

end

/-! ## What is staged -/

section
variable {server : ServerVersion ρ} {files : StoreFiles ρ}

theorem givesUp_whenThere {there : Bool} {update : StoreFiles ρ → StoreFiles ρ} : GivesUp (whenThere there update) := by
  cases there with
  | true => exact givesUp_write
  | false => exact givesUp_pure ()

theorem givesUp_copyBackup : GivesUp (copyBackup : StoreOp ρ Unit) :=
  givesUp_get.bind fun _ => givesUp_whenThere.bind fun _ => givesUp_get.bind fun _ => givesUp_whenThere.bind fun _ =>
    givesUp_write.bind fun _ => givesUp_write.bind fun _ => givesUp_write.bind fun _ => givesUp_get.bind fun _ =>
      givesUp_whenThere.bind fun _ => givesUp_get.bind fun _ => givesUp_whenThere.bind fun _ => givesUp_get.bind fun _ =>
        givesUp_whenThere

theorem givesUp_installCopy : GivesUp (installCopy : StoreOp ρ Unit) := by
  unfold installCopy fileWrite
  exact givesUp_write

theorem givesUp_writeMarker (fromVersion toVersion : Nat) : GivesUp (writeMarker fromVersion toVersion : StoreOp ρ Unit) := by
  unfold writeMarker fileWrite
  exact givesUp_write

theorem givesUp_removeMarker : GivesUp (removeMarker : StoreOp ρ Unit) := by
  unfold removeMarker fileWrite
  exact givesUp_write

theorem givesUp_restoreDatabaseFile : GivesUp (restoreDatabaseFile : StoreOp ρ Unit) :=
  givesUp_copyBackup.bind fun _ => givesUp_installCopy.catching
    (fun _ => ne_ok_bind fun _ => ne_ok_bind fun _ _ _ _ hthrow => nomatch congrArg Prod.fst hthrow)
    fun _ => givesUp_get.bind fun _ => givesUp_whenThere

theorem givesUp_applyEach (fresh : Database ρ) (migrations : List (Migration ρ)) : GivesUp (applyEach fresh migrations) := by
  induction migrations with
  | nil => exact givesUp_pure ()
  | cons migration migrations ih =>
    refine givesUp_get.bind fun files => ?_
    split
    · exact givesUp_throw _
    · exact givesUp_write.bind fun _ => ih

theorem givesUp_migrate (existed : Bool) (current : Nat) : GivesUp (migrate server existed current) := by
  have hprepare : GivesUp (prepareMigrationBackup server current) := by
    refine GivesUp.bind ?_ fun _ => GivesUp.bind ?_ fun _ => givesUp_writeMarker _ _
    · refine givesUp_get.bind fun _ => givesUp_whenThere.bind fun _ => givesUp_write.bind fun _ => givesUp_write.bind fun _ =>
        givesUp_write.bind fun _ => givesUp_get.bind fun _ => (givesUp_ofExcept _).bind fun version => ?_
      split
      · exact givesUp_pure ()
      · exact givesUp_throw _
    · refine givesUp_get.bind fun files => ?_
      split
      · exact givesUp_throw _
      · exact givesUp_write
  have hfinish : GivesUp (finishMigration : StoreOp ρ Unit) := by
    refine givesUp_get.bind fun files => ?_
    split
    · exact givesUp_removeMarker
    · exact givesUp_pure ()
  unfold migrate
  split
  · cases existed with
    | true => exact hprepare.bind fun _ => (givesUp_applyEach _ _).bind fun _ => hfinish
    | false => exact (givesUp_applyEach _ _).bind fun _ => givesUp_pure ()
  · exact givesUp_pure ()

/-- An open that returned was not disturbed. -/
theorem givesUp_openStore : GivesUp (openStore server) := by
  refine GivesUp.bind ?_ fun _ => GivesUp.bind ?_ fun connection => (givesUp_migrate _ _).bind fun _ =>
    givesUp_get.bind fun _ => (givesUp_ofExcept _).bind fun _ => givesUp_write
  · refine givesUp_get.bind fun files => ?_
    split
    · exact givesUp_pure ()
    · refine givesUp_get.bind fun files => ?_
      split
      · exact givesUp_throw _
      · exact (givesUp_ofExcept _).bind fun _ => givesUp_restoreDatabaseFile.bind fun _ => givesUp_removeMarker
  · refine givesUp_get.bind fun files => ?_
    split
    · exact givesUp_pure _
    · exact givesUp_throw _
    · split
      · exact givesUp_throw _
      · exact givesUp_pure _

/-- A database that needs no migration opens as it is. -/
theorem opens_target {target : Database ρ} (h : AtRest target files) (hup : server.upgrade target = some target)
    (hle : target.schemaVersion ≤ server.schemaVersion) (hvalid : validateMigrationLedger server (some target) = .ok ()) :
    ∃ done, (openStore server).calm files = (.ok (), done) ∧ done.content = some (some target) := by
  have hfits : Fits server files := fun _ _ hmarker => nomatch h.1.symm.trans hmarker
  have hopen := meets_openStore [] (ServerVersion.Extends.refl server) hup (h.resumable ⟨hle, rfl⟩) hfits fun hne => absurd rfl hne
  rcases (hopen.mono (fun _ _ hQ => hQ) (fun _ _ hE => hE) fun _ hC => hC.2 rfl).calm fun _ hfalse => hfalse with
    ⟨value, w, heq, -, hsettled⟩ | ⟨e, w, -, -, hrefused⟩
  · exact ⟨w.state, heq, (hsettled rfl).1.2⟩
  · exact absurd hvalid (hrefused rfl rfl)

theorem unreadable_refused : Meets (openStore server ⟨{ database := some none }, []⟩) (fun _ _ => False) (fun _ _ => True) fun _ => True := by
  unfold openStore recoverInterruptedMigration openConnection
  rw [meets_bind, meets_bind, meets_get]
  refine (meets_pure ()).mpr ?_
  rw [meets_bind, meets_bind, meets_get]
  exact trivial

/-- A readable database opens only if this server can migrate it. -/
theorem target_of_opens {database : Database ρ} {done : StoreFiles ρ} (h : AtRest database files)
    (hcalm : (openStore server).calm files = (.ok (), done)) : ∃ target, server.upgrade target = some target ∧
      target.schemaVersion ≤ server.schemaVersion ∧ validateMigrationLedger server (some target) = .ok () ∧ AtRest target done := by
  have hle : database.schemaVersion ≤ server.schemaVersion := by
    by_contra hnewer
    have hrefused : Meets (openStore server ⟨files, []⟩) (fun _ _ => False) (fun _ _ => True) fun _ => True := by
      unfold openStore recoverInterruptedMigration openConnection
      rw [meets_bind, meets_bind, meets_get, h.1]
      refine (meets_pure ()).mpr ?_
      rw [meets_bind, meets_bind, meets_get, h.2]
      dsimp only
      rw [if_pos (Nat.lt_of_not_le hnewer)]
      exact trivial
    obtain ⟨w, -, hfalse⟩ := hrefused.of_calm hcalm
    exact hfalse
  obtain ⟨target, hup, hvalid, hdone⟩ := upgrade_of_openStore hle h hcalm
  have hversion := ServerVersion.version_upgrade hle hup
  refine ⟨target, ?_, Nat.le_of_eq hversion, hvalid, hdone⟩
  unfold ServerVersion.upgrade
  rw [ServerVersion.pending_eq_drop, hversion, ServerVersion.schemaVersion, List.drop_length]
  rfl

end

/-- What is staged is live after the restore, and shows the backup. -/
structure Staged (setup : ServerSetup ρ) (source : Backup ρ) (dir : DataDir ρ) : Prop where
  vault : dir.staged .vault = source.vault
  database : ∃ target done, dir.staged .database = some (some target) ∧ setup.version.upgrade target = some target ∧
    target.schemaVersion ≤ setup.version.schemaVersion ∧
    validateMigrationLedger setup.version (some target) = .ok () ∧
    (openStore setup.version).calm { database := source.database } = (.ok (), done) ∧ done.content = some (some target)

section
variable {setup : ServerSetup ρ} {source : Backup ρ} {dir now : DataDir ρ}

theorem shown_congr (hlive : now.live = dir.live) (hmigration : now.migration = dir.migration) :
    now.shown setup = dir.shown setup := by
  unfold DataDir.shown
  rw [hlive, hmigration]

theorem Untouched.shown (h : Untouched dir now) : now.shown setup = dir.shown setup := shown_congr h.1 h.2

theorem Installed.shown (h : Installed dir now) (hstaged : Staged setup source dir) :
    now.shown setup = source.dataDir.shown setup := by
  obtain ⟨hlive, hmigration, hmarker⟩ := h
  obtain ⟨target, done, hdatabase, hup, hle, hvalid, hcalm, hdone⟩ := hstaged.database
  have hunstaged : dir.staged .wal = none ∧ dir.staged .vaultBackup = none := by
    unfold DataDir.staged
    cases dir.staging <;> exact ⟨rfl, rfl⟩
  have hrest : AtRest target (withLive now.live now.migration) := by
    refine ⟨by rw [← hmigration] at hmarker; exact hmarker, ?_⟩
    rw [hlive]
    unfold StoreFiles.content withLive
    dsimp only
    rw [hdatabase, hunstaged.1]
    rfl
  obtain ⟨done', hcalm', hdone'⟩ := opens_target hrest hup hle hvalid
  have hvault : now.live .vault = source.vault := by rw [hlive, hstaged.vault]
  have hbackup : now.live .vaultBackup = none := by rw [hlive, hunstaged.2]
  have hsource : withLive source.dataDir.live source.dataDir.migration = { database := source.database } := rfl
  unfold DataDir.shown
  dsimp only
  rw [hcalm', hvault, hbackup, hsource, hcalm]
  dsimp only
  rw [hdone', hdone]
  rfl

theorem spares_stage : Spares (Untouched dir) (do createStaging source; stageBackup setup source : RestoreOp ρ Unit) := by
  have hwrite : ∀ {update : DataDir ρ → DataDir ρ}, (∀ now, Untouched dir now → Untouched dir (update now)) →
      Spares (Untouched dir) (restoreWrite update) := fun h => spares_write h
  have hstaging : ∀ {update : Staging ρ → Staging ρ}, Spares (Untouched dir) (restoreWrite (setStaging update)) :=
    hwrite fun _ h => h
  have hcreate : Spares (Untouched dir) (createStaging source) := by
    refine (spares_ofExcept _).bind fun _ => ?_
    split
    · exact spares_throw _
    · exact hwrite fun _ h => h
  have hcopy : Spares (Untouched dir) (copyToStaging source) := by
    refine hstaging.bind fun _ => hstaging.bind fun _ => ?_
    split
    · exact (hwrite fun _ h => h).bind fun _ => hstaging
    · exact spares_pure ()
  have hvalidate : Spares (Untouched dir) (validateBackup setup) := by
    refine spares_get.bind fun _ => (spares_ofExcept _).bind fun _ => (Spares.on fun _ _ h => h).bind fun _ =>
      spares_get.bind fun now => ?_
    split
    · exact spares_throw _
    · split
      · exact spares_throw _
      · exact spares_modify fun _ h => h
  exact hcreate.bind fun _ => hcopy.bind fun _ => hvalidate

theorem givesUp_stage : GivesUp (do createStaging source; stageBackup setup source : RestoreOp ρ Unit) := by
  have hwrite : ∀ {update : DataDir ρ → DataDir ρ}, GivesUp (restoreWrite update) := givesUp_write
  have hcreate : GivesUp (createStaging source) := by
    refine (givesUp_ofExcept _).bind fun _ => ?_
    split
    · exact givesUp_throw _
    · exact hwrite
  have hcopy : GivesUp (copyToStaging source) := by
    refine hwrite.bind fun _ => hwrite.bind fun _ => ?_
    split
    · exact hwrite.bind fun _ => hwrite
    · exact givesUp_pure ()
  have hvalidate : GivesUp (validateBackup setup) := by
    refine givesUp_get.bind fun _ => (givesUp_ofExcept _).bind fun _ => givesUp_openStore.on.bind fun _ =>
      givesUp_get.bind fun now => ?_
    split
    · exact givesUp_throw _
    · split
      · exact givesUp_throw _
      · exact givesUp_modify
  exact hcreate.bind fun _ => hcopy.bind fun _ => hvalidate

/-- Undisturbed, the check of a staged backup leaves its database migrated. -/
theorem meets_validateBackup
    (hstaging : dir.staging = some ⟨source.manifest, { database := source.database }, source.vault⟩) (hsome : source.database ≠ none) :
    Meets (validateBackup setup ⟨dir, []⟩) (fun _ w => Staged setup source w.state) (fun _ _ => True) fun _ => True := by
  have hstore : stagedStore.get dir = { database := source.database } := by
    show (dir.staging.map (·.store)).getD {} = _
    rw [hstaging]
    rfl
  unfold validateBackup
  rw [meets_bind, meets_get, meets_bind]
  cases validateManifest (dir.staging.bind (·.manifest)) with
  | error e => exact trivial
  | ok _ =>
    rw [meets_ofExcept_ok, meets_bind, meets_on, hstore]
    dsimp only
    rcases hrun : openStore setup.version ⟨{ database := source.database }, []⟩ with ⟨_ | e | _, w⟩
    · have hcalm : (openStore setup.version).calm { database := source.database } = (.ok (), w.state) := by
        rw [Op.calm, hrun]
      obtain ⟨target, hup, hle, hvalid, hdone⟩ : ∃ target, setup.version.upgrade target = some target ∧
          target.schemaVersion ≤ setup.version.schemaVersion ∧
          validateMigrationLedger setup.version (some target) = .ok () ∧ AtRest target w.state := by
        cases hdatabase : source.database with
        | none => exact absurd hdatabase hsome
        | some content =>
          rw [hdatabase] at hrun hcalm
          cases content with
          | none =>
            have hrefused := @unreadable_refused ρ setup.version
            rw [hrun] at hrefused
            exact hrefused.elim
          | some database => exact target_of_opens ⟨rfl, rfl⟩ hcalm
      refine (meets_bind _ _).mpr (meets_get.mpr ?_)
      dsimp only
      cases ServerVault.readFile setup.codec setup.key ((stagedStore.put w.state dir).staged .vault) with
      | error e => exact trivial
      | ok data =>
        dsimp only
        cases setup.validateStoreSecrets (stagedStore.get (stagedStore.put w.state dir)).content data with
        | error message => exact trivial
        | ok _ =>
          have hafter : (setStaging (fun staging => { staging with store := closed staging.store })
              (stagedStore.put w.state dir)).staging = some ⟨source.manifest, closed w.state, source.vault⟩ := by
            show (((dir.staging.map _).map _ : Option (Staging ρ))) = _
            rw [hstaging]
            rfl
          refine (meets_modify _).mpr ⟨?_, target, w.state, ?_, hup, hle, hvalid, hcalm, hdone.2⟩
          · unfold DataDir.staged
            rw [hafter]
            rfl
          · unfold DataDir.staged
            rw [hafter]
            exact hdone.2
    · exact trivial
    · exact trivial

theorem copyToStaging_nil (hstaging : dir.staging = some {}) : ∃ copied : DataDir ρ,
    copyToStaging source ⟨dir, []⟩ = (.ok (), ⟨copied, []⟩) ∧
      copied.staging = some ⟨source.manifest, { database := source.database }, source.vault⟩ := by
  cases hvault : source.vault with
  | none =>
    refine ⟨setStaging (fun staging => { staging with store := { database := source.database } })
      (setStaging (fun staging => { staging with manifest := source.manifest }) dir), ?_, ?_⟩
    · unfold copyToStaging
      rw [hvault]
      rfl
    · unfold setStaging
      rw [hstaging]
      rfl
  | some vault =>
    refine ⟨setStaging (fun staging => { staging with vault := source.vault })
      (setStaging (fun staging => { staging with store := { database := source.database } })
        (setStaging (fun staging => { staging with manifest := source.manifest }) dir)), ?_, ?_⟩
    · unfold copyToStaging
      rw [hvault]
      rfl
    · unfold setStaging
      rw [hstaging, hvault]
      rfl

/-- Undisturbed, staging copies the backup and opens it. -/
theorem staged_of_stage (h : (do createStaging source; stageBackup setup source : RestoreOp ρ Unit) ⟨dir, []⟩ = (.ok (), ⟨now, []⟩)) :
    Staged setup source now := by
  have hmeets : Meets ((do createStaging source; stageBackup setup source : RestoreOp ρ Unit) ⟨dir, []⟩)
      (fun _ w => Staged setup source w.state) (fun _ _ => True) fun _ => True := by
    unfold createStaging stageBackup
    rw [meets_bind, meets_bind]
    cases validateManifest source.manifest with
    | error e => exact trivial
    | ok _ =>
      rw [meets_ofExcept_ok]
      split
      · exact trivial
      · next hdatabase =>
        have hsome : source.database ≠ none := fun hnone => hdatabase (hnone ▸ rfl)
        obtain ⟨copied, hcopy, hstaging⟩ := @copyToStaging_nil ρ source { dir with staging := some {} } rfl
        show Meets ((copyToStaging source >>= fun _ => validateBackup setup) ⟨{ dir with staging := some {} }, []⟩) _ _ _
        rw [meets_bind, hcopy]
        exact meets_validateBackup hstaging hsome
  rw [h] at hmeets
  exact hmeets

/-! ## All or nothing -/

/-- Removing the staging directory changes no live file, whatever comes of it. -/
theorem meets_removeStaging {P : DataDir ρ → Prop} (hP : ∀ now, P now → P { now with staging := none }) {w : World (DataDir ρ)}
    (h : P w.state) : Meets (removeStaging w) (fun _ w' => P w'.state) (fun _ _ => False) fun w' => P w'.state := by
  obtain ⟨now, outcomes⟩ := w
  exact (meets_bind _ _).mpr ((meets_attempt _).mpr (meets_write_goes (fun _ => hP now h) (fun _ _ => h) fun _ _ => h))

theorem meets_stage {outcomes : List Outcome} (hgoes : RestoreGoes setup source dir outcomes) :
    Meets ((do createStaging source; stageBackup setup source : RestoreOp ρ Unit) ⟨dir, outcomes⟩)
      (fun _ w => Untouched dir w.state ∧ Staged setup source w.state ∧ MovesGo w.state targets 0 w.outcomes)
      (fun _ w => Untouched dir w.state) fun w => Untouched dir w.state := by
  have hspares := @spares_stage ρ setup source dir ⟨dir, outcomes⟩ ⟨rfl, rfl⟩
  unfold RestoreGoes at hgoes
  rcases hrun : (do createStaging source; stageBackup setup source : RestoreOp ρ Unit) ⟨dir, outcomes⟩ with ⟨_ | e | _, w⟩
  · rw [hrun] at hgoes hspares
    exact ⟨hspares, staged_of_stage (givesUp_stage _ _ _ hrun), hgoes⟩
  · rw [hrun] at hspares
    exact hspares
  · rw [hrun] at hspares
    exact hspares

/-- Where the activation goes well, a restore shows the backup if it returns, and the former state or the backup if not. -/
theorem restore_all_or_nothing (setup : ServerSetup ρ) (source : Backup ρ) (dir : DataDir ρ) (outcomes : List Outcome)
    (hgoes : RestoreGoes setup source dir outcomes) : AllOrNothing setup source dir outcomes := by
  unfold AllOrNothing restore
  refine (meets_bind _ _).mpr (((meets_bind _ _).mp (meets_stage hgoes)).mono ?_ (fun _ _ h => .inl h.shown) fun _ h => .inl h.shown)
  intro _ w hstage
  refine (meets_bind _ _).mpr ((meets_attempt _).mpr ((meets_bind _ _).mpr (hstage.mono ?_ ?_ fun _ h => .inl h.shown)))
  · rintro _ w ⟨huntouched, hstaged, hmoves⟩
    have hformer : ∀ now, Untouched w.state now → now.shown setup = dir.shown setup := fun now h =>
      h.shown.trans huntouched.shown
    refine (meets_activateRestore hmoves).mono ?_ ?_ ?_
    · intro _ w' hinstalled
      exact (meets_removeStaging (fun _ h => h) hinstalled).mono (fun _ _ h => h.shown hstaged) (fun _ _ => False.elim)
        fun _ h => .inr (h.shown hstaged)
    · intro e w' hback
      exact (meets_bind _ _).mpr ((meets_removeStaging (fun _ h => h) hback).mono (fun _ _ h => .inl (hformer _ h))
        (fun _ _ => False.elim) fun _ h => .inl (hformer _ h))
    · intro w' h
      exact h.imp (hformer _) fun hinstalled => hinstalled.shown hstaged
  · intro e w' huntouched
    exact (meets_bind _ _).mpr ((meets_removeStaging (fun _ h => h) huntouched).mono (fun _ _ h => .inl h.shown)
      (fun _ _ => False.elim) fun _ h => .inl h.shown)

end

end

/-! ## Half a restore -/

def sampleSetup : ServerSetup (List Nat) where
  version := sampleVersion 2
  codec := sampleCodec
  key := sampleKey
  validateStoreSecrets _ _ := .ok ()

/-- A database of the present schema. -/
def sampleDatabase (row : Nat) : Database (List Nat) := ⟨⟨some [(1, "next"), (2, "next"), (3, "next")], [row]⟩, 3⟩

def sampleDir : DataDir (List Nat) where
  live
    | .database => some (some (sampleDatabase 7))
    | _ => none

def sampleBackup : Backup (List Nat) where
  manifest := some (some (backupFormat, backupVersion))
  database := some (some (sampleDatabase 8))
  vault := none

/-- The database is set aside, and its replacement cannot be renamed. -/
theorem restore_all_or_nothing_sample : AllOrNothing sampleSetup sampleBackup sampleDir (List.replicate 6 .done ++ [.failed]) :=
  restore_all_or_nothing sampleSetup sampleBackup sampleDir _ (by decide +kernel)

/-- A migration that was cut short has left its marker and the database from before it. -/
def markedDir : DataDir (List Nat) :=
  { sampleDir with migration := { backup := some (some ⟨⟨none, [0]⟩, 1⟩), marker := some (some (1, 3)) } }

/-- After a crash, when the database has been set aside, a start makes a new one. And where a migration was cut short, a
start replaces the database of a restore that returned. -/
theorem restore_half_done : ¬AllOrNothing sampleSetup sampleBackup sampleDir (List.replicate 5 .done ++ [.crashed]) ∧
    ¬AllOrNothing sampleSetup sampleBackup markedDir [] := by
  refine ⟨fun h => ?_, fun h => ?_⟩
  · have hcrash : (restore sampleSetup sampleBackup ⟨sampleDir, List.replicate 5 .done ++ [.crashed]⟩).1 = .crash := by
      decide +kernel
    have hformer : ((restore sampleSetup sampleBackup ⟨sampleDir, List.replicate 5 .done ++ [.crashed]⟩).2.state.shown
        sampleSetup).1.2 ≠ (sampleDir.shown sampleSetup).1.2 := by
      decide +kernel
    have hbackup : ((restore sampleSetup sampleBackup ⟨sampleDir, List.replicate 5 .done ++ [.crashed]⟩).2.state.shown
        sampleSetup).1.2 ≠ (sampleBackup.dataDir.shown sampleSetup).1.2 := by
      decide +kernel
    unfold AllOrNothing at h
    rcases hrun : restore sampleSetup sampleBackup ⟨sampleDir, List.replicate 5 .done ++ [.crashed]⟩ with ⟨result, w⟩
    rw [hrun] at h hcrash hformer hbackup
    obtain rfl : result = .crash := hcrash
    exact h.elim (fun heq => hformer (congrArg (·.1.2) heq)) fun heq => hbackup (congrArg (·.1.2) heq)
  · have hok : (restore sampleSetup sampleBackup ⟨markedDir, []⟩).1 = .ok () := by
      decide +kernel
    have hbackup : ((restore sampleSetup sampleBackup ⟨markedDir, []⟩).2.state.shown sampleSetup).1.2 ≠
        (sampleBackup.dataDir.shown sampleSetup).1.2 := by
      decide +kernel
    unfold AllOrNothing at h
    rcases hrun : restore sampleSetup sampleBackup ⟨markedDir, []⟩ with ⟨result, w⟩
    rw [hrun] at h hok hbackup
    obtain rfl : result = .ok () := hok
    exact hbackup (congrArg (·.1.2) h)

end Zenith.Server.Restore

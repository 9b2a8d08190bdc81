import Mathlib
import Zenith.Profiles.Reversible

/-!
# The gateway binding after a crash

`Interrupted`: the disks that a binding can be left on, wherever an attach, a refresh or a restore stopped.
Each of them is bound or not bound yet (`halfway_of_interrupted`), so that `restored_iff` says when a later
restore gives the profile back (`recovered_iff`).
-/

namespace Zenith.Profiles

open Zenith.Faults

/-- The disks that a binding of the profile `p` can be left on: wherever an attach, a refresh of the
catalog or a restore was cut short, any number of times. -/
inductive Interrupted (env : Env) (p : Disk) : Disk → Prop
  | attach {attach : LocalAttach} {outcomes : List Outcome} {result : Result LocalPoolError Unit}
      {w : World Disk} : NoFailure outcomes → attachLocalLocked env attach ⟨p, outcomes⟩ = (result, w) →
      Interrupted env p w.state
  | refresh {d : Disk} {catalogJson : String} {outcomes : List Outcome}
      {result : Result LocalPoolError Bool} {w : World Disk} : Interrupted env p d → NoFailure outcomes →
      refreshManagedModelCatalog env catalogJson ⟨d, outcomes⟩ = (result, w) → Interrupted env p w.state
  | restore {d : Disk} {outcomes : List Outcome} {w : World Disk} : Interrupted env p d →
      NoFailure outcomes → restoreLocalLocked env ⟨d, outcomes⟩ = (.crash, w) → Interrupted env p w.state

/-- What a crash can leave: no binding yet, or a bound profile. -/
def Halfway (env : Env) (p d : Disk) : Prop :=
  (d.files .backup = none ∧ d.files .config = p.files .config ∧ d.files .auth = p.files .auth) ∨
    ∃ document b, Bound env p document b d

section
variable {env : Env} {p d : Disk}

theorem restoreLocalLocked_absent {w : World Disk} (h : w.state.files .backup = none) :
    restoreLocalLocked env w = (.ok (), w) := by
  show Op.bind (localBackup env) _ w = _
  rw [Op.bind, localBackup_of_absent h]
  show Op.bind (Op.ofExcept (inspectRestore env w.state)) _ w = _
  rw [Op.bind, inspectRestore, h]
  rfl

theorem refreshManagedModelCatalog_absent {w : World Disk} {catalogJson : String}
    (h : w.state.files .backup = none) : refreshManagedModelCatalog env catalogJson w = (.ok false, w) := by
  show Op.bind (localBackup env) _ w = _
  rw [Op.bind, localBackup_of_absent h]
  show Op.bind (Op.ofExcept (parseBackupSnapshot env (w.state.files .backup))) _ w = _
  rw [Op.bind, h]
  rfl

theorem halfway_of_interrupted (h : env.Lawful) (hp : Unbound p) (hd : Interrupted env p d) :
    Halfway env p d := by
  induction hd with
  | @attach attach outcomes result w ho hrun =>
    have hmeets := attach_meets (w := ⟨p, outcomes⟩) attach h hp rfl ho (by simp)
    rw [hrun] at hmeets
    cases result with
    | ok =>
      obtain ⟨_, found, -, -, hw⟩ := hmeets
      exact .inr ⟨_, _, hw.bound⟩
    | error =>
      rw [hmeets.1]
      exact .inl ⟨hp.backup, rfl, rfl⟩
    | crash =>
      obtain ⟨-, found, -, hw | hw | ⟨b, hw⟩⟩ := hmeets
      · rw [hw]
        exact .inl ⟨hp.backup, rfl, rfl⟩
      · rw [hw]
        exact .inl ⟨hp.backup, rfl, rfl⟩
      · exact .inr ⟨_, b, hw⟩
  | @refresh d catalogJson outcomes result w _ ho hrun ih =>
    rcases ih with ⟨habsent, hsame⟩ | ⟨document, b, hb⟩
    · have hw := hrun.symm.trans (refreshManagedModelCatalog_absent (w := ⟨d, outcomes⟩) habsent)
      rw [congrArg (fun run => run.2.state) hw]
      exact .inl ⟨habsent, hsame⟩
    · have hmeets := refresh_meets (w := ⟨d, outcomes⟩) h hb ho catalogJson
      rw [hrun] at hmeets
      cases result with
      | ok | error | crash =>
        obtain ⟨⟨b', hb'⟩, -⟩ := hmeets
        exact .inr ⟨document, b', hb'⟩
  | @restore d outcomes w _ ho hrun ih =>
    rcases ih with ⟨habsent, hsame⟩ | ⟨document, b, hb⟩
    · exact nomatch hrun.symm.trans (restoreLocalLocked_absent (w := ⟨d, outcomes⟩) habsent)
    · have hmeets := restore_meets (w := ⟨d, outcomes⟩) h hb ho
      rw [hrun] at hmeets
      obtain ⟨⟨b', hb'⟩, -⟩ := hmeets
      exact .inr ⟨document, b', hb'⟩

/-- The condition for a later restore, on what the crash has left. -/
def Recoverable (env : Env) (p d : Disk) : Prop :=
  ∀ b document, d.files .backup = some (.text (env.writeBackup b)) →
    readConfig env (p.files .config) = .ok document → Restorable env p document b d

theorem restored_halfway_iff (h : env.Lawful) (hd : Halfway env p d)
    (hsha : Distinguished env (p.files .auth)) :
    (∃ d', (restoreLocalLocked env).calm d = (.ok (), d') ∧ AsBefore env p d') ↔ Recoverable env p d := by
  rcases hd with ⟨habsent, hconfig, hauth⟩ | ⟨document, b, hb⟩
  · refine iff_of_true ⟨d, ?_, by rw [hconfig], by rw [hconfig], hauth⟩ fun b _ hbackup => ?_
    · rw [Op.calm, restoreLocalLocked_absent habsent]
    · cases habsent.symm.trans hbackup
  · have hiff := restored_iff h hb hsha
    constructor
    · rintro ⟨d', hrestored, hbefore⟩ b' document' hbackup hread
      obtain rfl := Except.ok.inj (hread.symm.trans hb.config_before)
      have hwritten : env.writeBackup b' = env.writeBackup b := by
        simpa using hbackup.symm.trans hb.backup
      obtain rfl : b' = b := Except.ok.inj ((h.read_write b').symm.trans (hwritten ▸ h.read_write b))
      rcases (restore_meets (w := ⟨d, []⟩) (A := (· = .done)) h hb (within_nil _)).calm
        (fun w hC => by cases hC.2) with ⟨_, w, hok, -, config, -, hw⟩ | ⟨e, w, herror, -⟩
      · obtain rfl : d' = w.state := congrArg Prod.snd (hrestored.symm.trans hok)
        refine hiff.mp ⟨_, hrestored, hbefore, ?_, ?_, ?_⟩ <;> simp [hw, restoredDisk]
      · cases hrestored.symm.trans herror
    · intro hrecoverable
      obtain ⟨d', hrestored, hbefore, -⟩ := hiff.mpr (hrecoverable b document hb.backup hb.config_before)
      exact ⟨d', hrestored, hbefore⟩

theorem recovered_iff (h : env.Lawful) (hp : Unbound p) (hsha : Distinguished env (p.files .auth))
    (hd : Interrupted env p d) :
    (∃ d', (restoreLocalLocked env).calm d = (.ok (), d') ∧ AsBefore env p d') ↔ Recoverable env p d :=
  restored_halfway_iff h (halfway_of_interrupted h hp hd) hsha

theorem interrupted_attach (attach : LocalAttach) {outcomes : List Outcome} (ho : NoFailure outcomes) :
    Interrupted env p (attachLocalLocked env attach ⟨p, outcomes⟩).2.state :=
  .attach ho (Prod.mk.eta (p := attachLocalLocked env attach ⟨p, outcomes⟩)).symm

/-- An attach that was cut short once its backup was written. -/
theorem interrupted_sample (config auth : Option Content) :
    Interrupted sampleEnv (sampleDisk config auth)
      (attachLocalLocked sampleEnv sampleAttach ⟨sampleDisk config auth, [.done, .crashed]⟩).2.state :=
  interrupted_attach sampleAttach (by simp [Within])

theorem recovered_sample :
    (∃ d', (restoreLocalLocked sampleEnv).calm (attachLocalLocked sampleEnv sampleAttach
        ⟨sampleDisk (some (.text "")) (some (.text "\x7b\x7d")), [.done, .crashed]⟩).2.state = (.ok (), d') ∧
      AsBefore sampleEnv (sampleDisk (some (.text "")) (some (.text "\x7b\x7d"))) d') ↔
    Recoverable sampleEnv (sampleDisk (some (.text "")) (some (.text "\x7b\x7d")))
      (attachLocalLocked sampleEnv sampleAttach
        ⟨sampleDisk (some (.text "")) (some (.text "\x7b\x7d")), [.done, .crashed]⟩).2.state :=
  recovered_iff sampleEnv_lawful (unbound_sampleDisk _ _) distinguished_sample (interrupted_sample _ _)

/-- Without `config.toml`, a restore after the crash leaves an empty one. -/
theorem crash_leaves_config : ∃ d, Interrupted sampleEnv (sampleDisk none none) d ∧
    ¬∃ d', (restoreLocalLocked sampleEnv).calm d = (.ok (), d') ∧
      AsBefore sampleEnv (sampleDisk none none) d' := by
  refine ⟨_, interrupted_sample none none, fun hrestored => ?_⟩
  have hhalfway := halfway_of_interrupted sampleEnv_lawful (unbound_sampleDisk none none)
    (interrupted_sample none none)
  have hrecoverable := (restored_halfway_iff sampleEnv_lawful hhalfway nofun).mp hrestored
  exact nomatch (hrecoverable (pendingBackup sampleEnv sampleAttach sampleFound
    (firstBackup sampleEnv (sampleDisk none none) sampleFound true)) ∅ rfl rfl).config

end

end Zenith.Profiles

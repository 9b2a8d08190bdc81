import Mathlib
import Zenith.Secrets.Keyring

/-!
# Atomic saves

A save that returns can be read back, and one that gives up leaves what was stored. Two things go against it: a
short value that is not read as it was written, since white space is cut off and a manifest is followed, and a
value whose three read-backs fail and that cannot be taken back. `save_atomic` says that there is nothing else.

`cut` follows the failures: which of the next passwords cannot be read or written.
-/

namespace Zenith.Secrets

open Zenith.Faults Zenith.Text

/-! ## Where the failures are -/

/-- The outcomes after the first failure, if it is among the next `n`. -/
def cut : Nat → List Outcome → Option (List Outcome)
  | 0, _ => none
  | _ + 1, [] => none
  | _ + 1, .failed :: rest => some rest
  | n + 1, _ :: rest => cut n rest

/-- The outcomes after `attempts` runs that each fail at one of `n` passwords. -/
def cuts (n : Nat) : Nat → List Outcome → Option (List Outcome)
  | 0, outcomes => some outcomes
  | attempts + 1, outcomes => (cut n outcomes).bind (cuts n attempts)

theorem cut_nil (n : Nat) : cut n [] = none := by
  cases n <;> rfl

theorem cuts_nil (n attempts : Nat) : cuts n (attempts + 1) [] = none := by
  rw [cuts, cut_nil, Option.bind_none]

theorem cut_add (a b : Nat) (outcomes : List Outcome) :
    cut (a + b) outcomes = (cut a outcomes).or (cut b (outcomes.drop a)) := by
  induction a generalizing outcomes with
  | zero => rw [Nat.zero_add, List.drop_zero, cut, Option.none_or]
  | succ a ih =>
    rw [Nat.succ_add]
    cases outcomes with
    | nil => rw [List.drop_nil, cut_nil, cut_nil, cut_nil, Option.none_or]
    | cons outcome rest =>
      cases outcome with
      | failed => rfl
      | done => exact ih rest
      | crashed => exact ih rest

variable {outcomes rest : List Outcome}

theorem cut_suffix {n : Nat} (h : cut n outcomes = some rest) : rest <:+ outcomes := by
  induction n generalizing outcomes with
  | zero => exact nomatch h
  | succ n ih =>
    cases outcomes with
    | nil => exact nomatch h
    | cons outcome outcomes =>
      cases outcome with
      | failed => exact ⟨[.failed], by rw [← Option.some.inj h]; rfl⟩
      | done => exact (ih h).trans (List.suffix_cons _ _)
      | crashed => exact (ih h).trans (List.suffix_cons _ _)

theorem noCrash_suffix (h : NoCrash outcomes) (hrest : rest <:+ outcomes) : NoCrash rest :=
  fun outcome hmem => h outcome (hrest.subset hmem)

theorem noCrash_drop {outcomes : List Outcome} (h : NoCrash outcomes) (n : Nat) : NoCrash (outcomes.drop n) :=
  noCrash_suffix h (List.drop_suffix _ _)

section
variable {α β : Type} {k : Keyring} {outcomes : List Outcome} {Q : Unit → World Keyring → Prop}
  {E : KeyringError → World Keyring → Prop} {C : World Keyring → Prop}

/-- The rule of a write, by where the failures are. -/
theorem meets_write_cut {update : Keyring → Keyring} {e : KeyringError} (h : NoCrash outcomes)
    (hQ : cut 1 outcomes = none → Q () ⟨update k, outcomes.drop 1⟩)
    (hE : ∀ rest, cut 1 outcomes = some rest → E e ⟨k, rest⟩) : Meets (Op.write update e ⟨k, outcomes⟩) Q E C := by
  cases outcomes with
  | nil => exact hQ rfl
  | cons outcome rest =>
    cases outcome with
    | done => exact hQ rfl
    | failed => exact hE rest rfl
    | crashed => exact absurd rfl (h .crashed List.mem_cons_self)

/-- The operation reads `n` passwords and returns `value`. -/
def Yields (op : KeyringOp α) (k : Keyring) (n : Nat) (value : α) : Prop :=
  ∀ outcomes, NoCrash outcomes → Meets (op ⟨k, outcomes⟩)
    (fun value' w => cut n outcomes = none ∧ value' = value ∧ w = ⟨k, outcomes.drop n⟩)
    (fun _ w => ∃ rest, cut n outcomes = some rest ∧ w = ⟨k, rest⟩) (fun _ => False)

theorem yields_pure (value : α) : Yields (pure value) k 0 value := fun _ _ => ⟨rfl, rfl, rfl⟩

variable {op : KeyringOp α} {next : α → KeyringOp β} {value : α}

theorem Yields.bind {n m : Nat} {value' : β}
    (h : Yields op k n value) (hnext : Yields (next value) k m value') : Yields (op >>= next) k (n + m) value' := by
  intro outcomes hcalm
  rw [meets_bind]
  refine (h outcomes hcalm).mono ?_ ?_ fun _ hC => hC
  · rintro _ _ ⟨hcut, rfl, rfl⟩
    refine (hnext _ (noCrash_drop hcalm n)).mono ?_ ?_ fun _ hC => hC
    · rintro _ _ ⟨hcut', rfl, rfl⟩
      exact ⟨by rw [cut_add, hcut, hcut', Option.none_or], rfl, by rw [List.drop_drop]⟩
    · rintro _ _ ⟨rest, hcut', rfl⟩
      exact ⟨rest, by rw [cut_add, hcut, hcut', Option.none_or], rfl⟩
  · rintro _ _ ⟨rest, hcut, rfl⟩
    exact ⟨rest, by rw [cut_add, hcut, Option.some_or], rfl⟩

theorem yields_loadRaw (service user : String) : Yields (loadRawFromService service user) k 1 (k (service, user)) := by
  intro outcomes hcalm
  unfold loadRawFromService
  rw [meets_bind]
  exact meets_write_cut hcalm (fun hcut => ⟨hcut, rfl, rfl⟩) fun rest hcut => ⟨rest, hcut, rfl⟩

variable {service user generation : String} {piece : Nat → String}

/-- The chunks are there. -/
theorem yields_readChunks (indices : List Nat)
    (h : ∀ index ∈ indices, k (service, chunkUser user generation index) = some (piece index)) (value : String) :
    Yields (readChunks service user generation indices value) k indices.length
      (value ++ String.join (indices.map piece)) := by
  induction indices generalizing value with
  | nil =>
    have hjoin : value ++ String.join ([].map piece) = value := String.append_empty
    rw [hjoin]
    exact yields_pure value
  | cons index indices ih =>
    obtain ⟨hindex, hindices⟩ := List.forall_mem_cons.mp h
    have hjoin : value ++ String.join ((index :: indices).map piece) =
        value ++ piece index ++ String.join (indices.map piece) := by
      rw [List.map_cons, String.join_cons, String.append_assoc]
    rw [hjoin, List.length_cons, Nat.add_comm]
    refine (yields_loadRaw service (chunkUser user generation index)).bind ?_
    rw [hindex]
    exact ih hindices (value ++ piece index)

variable {service user stored : String}

/-- A value that is a password by itself. -/
theorem yields_loadSecret_direct (codec : Codec) (hentry : k (service, user) = some stored)
    (hplain : startsWith stored manifestPrefix = false) :
    Yields (loadSecretFromService codec service user) k 1 (if trim stored = "" then none else some (trim stored)) := by
  refine (yields_loadRaw service user).bind (m := 0) ?_
  rw [hentry]
  dsimp only
  rw [if_neg (by rw [hplain]; exact Bool.false_ne_true)]
  exact yields_pure _

variable {codec : Codec} {manifest : SecretManifest}

theorem yields_loadSecret_chunks (hentry : k (service, user) = some stored)
    (hmanifest : startsWith stored manifestPrefix = true) (hdecode : decodeManifest codec stored = .ok manifest)
    (h : ∀ index ∈ List.range manifest.count,
      k (service, chunkUser user manifest.generation index) = some (piece index))
    (hdigest : codec.sha256Hex (String.join ((List.range manifest.count).map piece)) = manifest.sha256) :
    Yields (loadSecretFromService codec service user) k (1 + manifest.count)
      (some (String.join ((List.range manifest.count).map piece))) := by
  refine (yields_loadRaw service user).bind ?_
  rw [hentry]
  dsimp only
  rw [if_pos hmanifest, hdecode]
  have hread := yields_readChunks (List.range manifest.count) h ""
  rw [List.length_range, String.empty_append] at hread
  refine hread.bind (m := 0) ?_
  rw [if_pos hdigest]
  exact yields_pure _

/-- The read-backs of a value that is there: they fail where each of them is cut. -/
theorem meets_verifyAttempts {service user expected : String} {n : Nat}
    (h : Yields (loadSecretFromService codec service user) k n (some expected)) (attempts : Nat)
    (lastError : Option KeyringError) (hcalm : NoCrash outcomes) :
    Meets (verifyAttempts codec service user expected attempts lastError ⟨k, outcomes⟩)
      (fun _ w => cuts n attempts outcomes = none ∧ w.state = k ∧ NoCrash w.outcomes)
      (fun _ w => ∃ rest, cuts n attempts outcomes = some rest ∧ w = ⟨k, rest⟩ ∧ NoCrash rest) (fun _ => False) := by
  induction attempts generalizing outcomes lastError with
  | zero => exact ⟨outcomes, rfl, rfl, hcalm⟩
  | succ attempts ih =>
    unfold verifyAttempts
    rw [meets_bind, meets_attempt]
    refine (h outcomes hcalm).mono ?_ ?_ fun _ hC => hC
    · rintro _ _ ⟨hcut, rfl, rfl⟩
      dsimp only
      rw [if_pos rfl]
      exact ⟨by rw [cuts, hcut, Option.bind_none], rfl, noCrash_drop hcalm n⟩
    · rintro _ _ ⟨rest, hcut, rfl⟩
      have hrest := noCrash_suffix hcalm (cut_suffix hcut)
      rw [cuts, hcut, Option.bind_some]
      exact ih _ hrest

/-! ## The entries of a generation -/

theorem toString_inj {a b : Nat} (h : toString a = toString b) : a = b := by
  have hdigits : Nat.toDigits 10 a = Nat.toDigits 10 b := by
    rw [← Nat.toList_repr, ← Nat.toList_repr]
    exact congrArg String.toList h
  rw [← Nat.ofDigitChars_toDigits (b := 10) (n := a) (by decide) (by decide), hdigits,
    Nat.ofDigitChars_toDigits (by decide) (by decide)]

theorem toList_chunkUser (user generation : String) (index : Nat) : (chunkUser user generation index).toList =
    user.toList ++ (":chunk:".toList ++ (generation.toList ++ (":".toList ++ (toString index).toList))) := by
  simp only [chunkUser, String.toList_append, List.append_assoc]

theorem chunkUser_ne (user generation : String) (index : Nat) : chunkUser user generation index ≠ user := by
  intro h
  have hlength := congrArg (fun text => text.toList.length) h
  have hinfix : ":chunk:".toList.length = 7 := by decide
  simp only [toList_chunkUser, List.length_append, hinfix] at hlength
  omega

/-- Generations of one length have different entries. -/
theorem chunkUser_inj {user generation generation' : String} {index index' : Nat}
    (hlength : generation.toList.length = generation'.toList.length)
    (h : chunkUser user generation index = chunkUser user generation' index') :
    generation = generation' ∧ index = index' := by
  have hlist := congrArg String.toList h
  rw [toList_chunkUser, toList_chunkUser] at hlist
  have hrest := List.append_cancel_left (List.append_cancel_left hlist)
  obtain ⟨hgeneration, htail⟩ := List.append_inj hrest hlength
  exact ⟨String.toList_injective hgeneration, toString_inj (String.toList_injective (List.append_cancel_left htail))⟩

theorem length_of_decode {stored : String}
    (h : decodeManifest codec stored = .ok manifest) :
    manifest.generation.toList.length = 32 ∧ 0 < manifest.count := by
  unfold decodeManifest at h
  cases hjson : (stripPrefix? stored manifestPrefix).bind codec.fromJson with
  | none =>
    rw [hjson] at h
    exact nomatch h
  | some found =>
    rw [hjson] at h
    dsimp only at h
    split at h
    · exact nomatch h
    · rename_i hvalid
      obtain rfl : found = manifest := Except.ok.inj h
      simp only [not_or] at hvalid
      obtain ⟨-, hcount, -, hgeneration, -⟩ := hvalid
      have hhex : isHex found.generation 32 = true := by simpa using hgeneration
      unfold isHex at hhex
      rw [Bool.and_eq_true, decide_eq_true_eq] at hhex
      exact ⟨hhex.1, Nat.pos_of_ne_zero hcount⟩

/-- The keyrings differ in the chunks of one generation at most. -/
def SameOutside (service user generation : String) (k k' : Keyring) : Prop :=
  ∀ key, (∀ index, key ≠ (service, chunkUser user generation index)) → k' key = k key

section
variable {service user generation : String} {k' k'' : Keyring}

theorem SameOutside.refl (k : Keyring) : SameOutside service user generation k k := fun _ _ => rfl

theorem SameOutside.trans (h : SameOutside service user generation k k')
    (h' : SameOutside service user generation k' k'') : SameOutside service user generation k k'' :=
  fun key hkey => (h' key hkey).trans (h key hkey)

theorem sameOutside_update (index : Nat) (value : Option String) :
    SameOutside service user generation k
      (Function.update k (service, chunkUser user generation index) value) :=
  fun _ hkey => Function.update_of_ne (hkey index) ..

theorem SameOutside.entry (h : SameOutside service user generation k k') : k' (service, user) = k (service, user) :=
  h _ fun index heq => chunkUser_ne user generation index (congrArg Prod.snd heq).symm

/-- The chunks of another generation. -/
theorem SameOutside.chunk (h : SameOutside service user generation k k') {other : String}
    (hlength : other.toList.length = generation.toList.length) (hne : other ≠ generation) (index : Nat) :
    k' (service, chunkUser user other index) = k (service, chunkUser user other index) :=
  h _ fun _ heq => hne (chunkUser_inj hlength (congrArg Prod.snd heq)).1

end

/-! ## Loads that nothing disturbs -/

/-- What a load returns when every password can be read. -/
def load (codec : Codec) (service user : String) (k : Keyring) : Result KeyringError (Option String) :=
  ((loadSecretFromService codec service user).calm k).1

/-- A read that nothing disturbs leaves the keyring. -/
def Reads (op : KeyringOp α) (k : Keyring) (result : Result KeyringError α) : Prop := op ⟨k, []⟩ = (result, ⟨k, []⟩)

theorem Yields.reads {n : Nat} (h : Yields op k n value) : Reads op k (.ok value) := by
  have hrun := h [] (within_nil _)
  unfold Reads
  rcases hop : op ⟨k, []⟩ with ⟨value' | e | _, w⟩ <;> rw [hop] at hrun
  · obtain ⟨-, rfl, rfl⟩ := hrun
    rw [List.drop_nil]
  · obtain ⟨rest, hcut, -⟩ := hrun
    rw [cut_nil] at hcut
    exact nomatch hcut
  · exact hrun.elim

variable {service user : String}

theorem Yields.load_eq {n : Nat} {value : Option String}
    (h : Yields (loadSecretFromService codec service user) k n value) : load codec service user k = .ok value := by
  have hreads := h.reads
  unfold Reads at hreads
  rw [load, Op.calm, hreads]

theorem Reads.bind {result : Result KeyringError β}
    (h : Reads op k (.ok value)) (hnext : Reads (next value) k result) : Reads (op >>= next) k result := by
  show Op.bind op next ⟨k, []⟩ = _
  rw [Op.bind, h]
  exact hnext

theorem Reads.bind_error {e : KeyringError} (h : Reads op k (.error e)) :
    Reads (op >>= next) k (.error e) := by
  show Op.bind op next ⟨k, []⟩ = _
  rw [Op.bind, h]

theorem reads_loadRaw (service user : String) : Reads (loadRawFromService service user) k (.ok (k (service, user))) := rfl

theorem reads_readChunks_missing {indices : List Nat}
    (h : ∃ index ∈ indices, k (service, chunkUser user generation index) = none) (value : String) :
    Reads (readChunks service user generation indices value) k (.error .missingChunk) := by
  induction indices generalizing value with
  | nil =>
    obtain ⟨_, hmem, -⟩ := h
    exact nomatch hmem
  | cons index indices ih =>
    refine (reads_loadRaw service (chunkUser user generation index)).bind ?_
    cases hchunk : k (service, chunkUser user generation index) with
    | none => rfl
    | some chunk =>
      obtain ⟨other, hmem, hother⟩ := h
      rcases List.mem_cons.mp hmem with rfl | hmem
      · rw [hchunk] at hother
        exact nomatch hother
      · exact ih ⟨other, hmem, hother⟩ _

theorem load_missing (hentry : k (service, user) = some stored) (hmanifest : startsWith stored manifestPrefix = true)
    (hdecode : decodeManifest codec stored = .ok manifest)
    (h : ∃ index ∈ List.range manifest.count, k (service, chunkUser user manifest.generation index) = none) :
    load codec service user k = .error .missingChunk := by
  have hreads : Reads (loadSecretFromService codec service user) k (.error .missingChunk) := by
    refine (reads_loadRaw service user).bind ?_
    rw [hentry]
    dsimp only
    rw [if_pos hmanifest, hdecode]
    have hchunks := reads_readChunks_missing h ""
    exact hchunks.bind_error
  unfold Reads at hreads
  rw [load, Op.calm, hreads]

def onEntry {α : Type} (entry : Option String) (missing : KeyringOp α) (found : String → KeyringOp α) : KeyringOp α :=
  match entry with
  | none => missing
  | some value => found value

/-- A load reads the entry and the chunks of its manifest. -/
theorem load_congr {k' : Keyring}
    (hentry : k' (service, user) = k (service, user))
    (hchunks : ∀ stored manifest, k (service, user) = some stored → decodeManifest codec stored = .ok manifest →
      ∀ index, k' (service, chunkUser user manifest.generation index) =
        k (service, chunkUser user manifest.generation index)) :
    load codec service user k' = load codec service user k := by
  have hread {generation : String} (h : ∀ index, k' (service, chunkUser user generation index) =
      k (service, chunkUser user generation index)) (indices : List Nat) (value : String) :
      (readChunks service user generation indices value ⟨k', []⟩).1 =
        (readChunks service user generation indices value ⟨k, []⟩).1 ∧
      (readChunks service user generation indices value ⟨k', []⟩).2 = ⟨k', []⟩ ∧
      (readChunks service user generation indices value ⟨k, []⟩).2 = ⟨k, []⟩ := by
    induction indices generalizing value with
    | nil => exact ⟨rfl, rfl, rfl⟩
    | cons index indices ih =>
      have hrun (k : Keyring) : readChunks service user generation (index :: indices) value ⟨k, []⟩ =
          (onEntry (k (service, chunkUser user generation index)) (Op.throw KeyringError.missingChunk) fun chunk => readChunks service user generation indices (value ++ chunk)) ⟨k, []⟩ := rfl
      rw [hrun, hrun, h index]
      cases k (service, chunkUser user generation index) with
      | none => exact ⟨rfl, rfl, rfl⟩
      | some chunk => exact ih _
  have hrun (k : Keyring) : loadSecretFromService codec service user ⟨k, []⟩ =
      (onEntry (k (service, user)) (return none : KeyringOp (Option String)) fun stored =>
        if startsWith stored manifestPrefix then do
          let manifest ← Op.ofExcept (decodeManifest codec stored)
          let value ← readChunks service user manifest.generation (List.range manifest.count) ""
          if codec.sha256Hex value = manifest.sha256 then return some value else Op.throw KeyringError.checksum
        else return if trim stored = "" then none else some (trim stored)) ⟨k, []⟩ := rfl
  rw [load, load, Op.calm, Op.calm, hrun, hrun, hentry]
  cases hstored : k (service, user) with
  | none => rfl
  | some stored =>
    dsimp only [onEntry]
    split
    · cases hdecode : decodeManifest codec stored with
      | error e => rfl
      | ok manifest =>
        obtain ⟨hresult, hworld', hworld⟩ := hread (hchunks stored manifest hstored hdecode) (List.range manifest.count) ""
        show (Op.bind (readChunks _ _ _ _ _) _ ⟨k', []⟩).1 = (Op.bind (readChunks _ _ _ _ _) _ ⟨k, []⟩).1
        unfold Op.bind
        rcases hchunk' : readChunks service user manifest.generation (List.range manifest.count) "" ⟨k', []⟩ with ⟨result', w'⟩
        rcases hchunk : readChunks service user manifest.generation (List.range manifest.count) "" ⟨k, []⟩ with ⟨result, w⟩
        rw [hchunk', hchunk] at hresult
        dsimp only at hresult
        subst hresult
        cases result' with
        | ok value =>
          dsimp only
          split <;> rfl
        | error e => rfl
        | crash => rfl
    · rfl

/-! ## Deletions -/

theorem meets_ignore {op : KeyringOp Unit} {w : World Keyring} : Meets (ignore op w) Q E C ↔
    Meets (op w) (fun _ w => Q () w) (fun _ w => Q () w) C := by
  unfold ignore
  rw [meets_bind, meets_attempt]
  exact Iff.rfl

section
variable {service user generation : String}

/-- What becomes of the chunks that are deleted. -/
structure Deleted (service user generation : String) (indices : List Nat) (k : Keyring) (outcomes : List Outcome)
    (w : World Keyring) : Prop where
  outside : SameOutside service user generation k w.state
  noCrash : NoCrash w.outcomes
  absent : ∀ key, k key = none → w.state key = none
  failed : outcomes.take indices.length = List.replicate indices.length .failed → w.state = k
  removed : outcomes.take indices.length ≠ List.replicate indices.length .failed →
    ∃ index ∈ indices, w.state (service, chunkUser user generation index) = none

theorem meets_deleteChunks (indices : List Nat) (firstError : Option KeyringError) (hcalm : NoCrash outcomes) :
    Meets (deleteChunks service user generation indices firstError ⟨k, outcomes⟩)
      (fun _ w => Deleted service user generation indices k outcomes w) (fun _ _ => False) (fun _ => False) := by
  induction indices generalizing k outcomes firstError with
  | nil => exact ⟨.refl k, hcalm, fun _ h => h, fun _ => rfl, fun h => absurd rfl h⟩
  | cons index indices ih =>
    unfold deleteChunks
    rw [meets_bind, meets_attempt]
    refine meets_write_cut hcalm (fun hcut => ?_) fun rest hcut => ?_
    · refine (ih firstError (noCrash_drop hcalm 1)).mono (fun _ w h => ?_) (fun _ _ hE => hE) fun _ hC => hC
      have hnone : w.state (service, chunkUser user generation index) = none :=
        h.absent _ (Function.update_self ..)
      refine ⟨(sameOutside_update index none).trans h.outside, h.noCrash, fun key hkey => h.absent key ?_, fun hall => ?_,
        fun _ => ⟨index, List.mem_cons_self, hnone⟩⟩
      · rw [Function.update_apply]
        split
        · rfl
        · exact hkey
      · -- The first deletion took effect.
        cases outcomes with
        | nil => exact nomatch hall
        | cons outcome rest =>
          obtain rfl : outcome = .failed := (List.cons.inj hall).1
          exact nomatch hcut
    · cases outcomes with
      | nil => exact nomatch hcut
      | cons outcome outcomes =>
        cases outcome with
        | done => exact nomatch hcut
        | crashed => exact nomatch hcut
        | failed =>
          obtain rfl : outcomes = rest := Option.some.inj hcut
          have hrest := noCrash_suffix hcalm (List.suffix_cons _ _)
          refine (ih (firstError.or (some .delete)) hrest).mono (fun _ w h => ?_) (fun _ _ hE => hE) fun _ hC => hC
          refine ⟨h.outside, h.noCrash, h.absent, fun hall => h.failed (List.cons.inj hall).2, fun hsome => ?_⟩
          obtain ⟨other, hmem, hother⟩ := h.removed fun hall => hsome (congrArg (Outcome.failed :: ·) hall)
          exact ⟨other, List.mem_cons_of_mem _ hmem, hother⟩

theorem meets_deleteManifestChunks {manifest : SecretManifest} (hcalm : NoCrash outcomes) :
    Meets (deleteManifestChunks service user manifest ⟨k, outcomes⟩)
      (fun _ w => Deleted service user manifest.generation (List.range manifest.count) k outcomes w)
      (fun _ _ => False) (fun _ => False) := by
  unfold deleteManifestChunks deleteManifestChunksResult
  rw [meets_ignore, meets_bind]
  refine (meets_deleteChunks (List.range manifest.count) none hcalm).mono (fun firstError w h => ?_)
    (fun _ _ hE => hE.elim) fun _ hC => hC
  cases firstError with
  | none => exact h
  | some e => exact h

/-- The chunks of a generation are deleted as far as possible. -/
theorem meets_deleteWritten (indices : List Nat) (hcalm : NoCrash outcomes) :
    Meets (deleteWritten service (indices.map (chunkUser user generation)) ⟨k, outcomes⟩)
      (fun _ w => SameOutside service user generation k w.state) (fun _ _ => False) (fun _ => False) := by
  induction indices generalizing k outcomes with
  | nil => exact .refl k
  | cons index indices ih =>
    rw [List.map_cons]
    unfold deleteWritten
    rw [meets_bind, meets_ignore]
    refine meets_write_cut hcalm (fun _ => ?_) fun rest hcut => ?_
    · refine (ih (noCrash_drop hcalm 1)).mono (fun _ w h => ?_) (fun _ _ hE => hE) fun _ hC => hC
      exact (sameOutside_update index none).trans h
    · exact ih (noCrash_suffix hcalm (cut_suffix hcut))

theorem meets_restoreRawSecret (previous : Option String) (hcalm : NoCrash outcomes) :
    Meets (restoreRawSecret service user previous ⟨k, outcomes⟩)
      (fun _ w => cut 1 outcomes = none ∧ w = ⟨Function.update k (service, user) previous, outcomes.drop 1⟩)
      (fun _ w => ∃ rest, cut 1 outcomes = some rest ∧ w = ⟨k, rest⟩) (fun _ => False) := by
  unfold restoreRawSecret
  cases previous with
  | none =>
    unfold deleteFromService
    exact meets_write_cut hcalm (fun hcut => ⟨hcut, rfl⟩) fun rest hcut => ⟨rest, hcut, rfl⟩
  | some value =>
    unfold setPassword
    exact meets_write_cut hcalm (fun hcut => ⟨hcut, rfl⟩) fun rest hcut => ⟨rest, hcut, rfl⟩

/-! ## The chunks of a value -/

/-- The keyring after the chunks from `start` on were written. -/
def putChunks (service user generation : String) (k : Keyring) : Nat → List String → Keyring
  | _, [] => k
  | start, chunk :: chunks =>
    putChunks service user generation (Function.update k (service, chunkUser user generation start) (some chunk))
      (start + 1) chunks

theorem sameOutside_putChunks (start : Nat) (chunks : List String) :
    SameOutside service user generation k (putChunks service user generation k start chunks) := by
  induction chunks generalizing k start with
  | nil => exact .refl k
  | cons chunk chunks ih => exact (sameOutside_update start (some chunk)).trans (ih (start + 1))

theorem putChunks_before {index start : Nat} (h : index < start) (chunks : List String) :
    putChunks service user generation k start chunks (service, chunkUser user generation index) =
      k (service, chunkUser user generation index) := by
  induction chunks generalizing k start with
  | nil => rfl
  | cons chunk chunks ih =>
    unfold putChunks
    rw [ih (by omega), Function.update_of_ne]
    intro heq
    have hsame := (chunkUser_inj rfl (congrArg Prod.snd heq)).2
    omega

theorem putChunks_get {index : Nat} (start : Nat) {chunks : List String} (h : index < chunks.length) :
    putChunks service user generation k start chunks (service, chunkUser user generation (start + index)) =
      some (chunks.getD index "") := by
  induction chunks generalizing k start index with
  | nil => exact absurd h (Nat.not_lt_zero _)
  | cons chunk chunks ih =>
    unfold putChunks
    cases index with
    | zero =>
      show putChunks service user generation _ _ chunks (service, chunkUser user generation start) = some chunk
      rw [putChunks_before (Nat.lt_succ_self start), Function.update_self]
    | succ index =>
      have hindex : start + (index + 1) = start + 1 + index := by
        omega
      rw [hindex, ih (start + 1) (Nat.lt_of_succ_lt_succ h)]
      rfl

theorem meets_writeChunks (chunks : List String) (written : Nat) (hcalm : NoCrash outcomes) :
    Meets (writeChunks service user generation chunks ((List.range written).map (chunkUser user generation)) ⟨k, outcomes⟩)
      (fun users w => cut chunks.length outcomes = none ∧
        users = (List.range (written + chunks.length)).map (chunkUser user generation) ∧
        w = ⟨putChunks service user generation k written chunks, outcomes.drop chunks.length⟩)
      (fun _ w => cut chunks.length outcomes ≠ none ∧ SameOutside service user generation k w.state)
      (fun _ => False) := by
  induction chunks generalizing k outcomes written with
  | nil => exact ⟨rfl, rfl, rfl⟩
  | cons chunk chunks ih =>
    have hlength : ((List.range written).map (chunkUser user generation)).length = written := by
      rw [List.length_map, List.length_range]
    have hcut := cut_add 1 chunks.length outcomes
    unfold writeChunks
    rw [hlength, meets_bind, meets_attempt, List.length_cons, Nat.add_comm]
    refine meets_write_cut hcalm (fun hdone => ?_) fun rest hfailed => ?_
    · have husers : (List.range written).map (chunkUser user generation) ++ [chunkUser user generation written] =
          (List.range (written + 1)).map (chunkUser user generation) := by
        rw [List.range_succ, List.map_append]
        rfl
      rw [hdone, Option.none_or] at hcut
      dsimp only
      rw [husers, hcut]
      refine (ih (written + 1) (noCrash_drop hcalm 1)).mono ?_ ?_ fun _ hC => hC
      · rintro _ _ ⟨hrest, rfl, rfl⟩
        refine ⟨hrest, ?_, ?_⟩
        · rw [Nat.add_assoc, Nat.add_comm 1]
        · rw [List.drop_drop]
          rfl
      · rintro _ w ⟨hrest, hsame⟩
        exact ⟨hrest, (sameOutside_update written (some chunk)).trans hsame⟩
    · rw [hfailed, Option.some_or] at hcut
      dsimp only
      rw [meets_bind]
      refine (meets_deleteWritten (List.range written) (noCrash_suffix hcalm (cut_suffix hfailed))).mono
        (fun _ w h => ?_) (fun _ _ hE => hE.elim) fun _ hC => hC
      exact ⟨by rw [hcut]; exact nofun, h⟩

end

end

/-! ## Splitting and manifests -/

/-- The characters that were taken so far. -/
def Split.text (split : Split) : List Char := split.chunks.flatMap String.toList ++ split.chunk

theorem text_push (split : Split) (c : Char) : (split.push c).text = split.text ++ [c] := by
  unfold Split.push Split.text
  split <;> simp

theorem text_foldl (split : Split) (chars : List Char) : (chars.foldl Split.push split).text = split.text ++ chars := by
  induction chars generalizing split with
  | nil => exact (List.append_nil _).symm
  | cons c chars ih => rw [List.foldl_cons, ih, text_push, List.append_assoc, List.singleton_append]

theorem toList_join (chunks : List String) : (String.join chunks).toList = chunks.flatMap String.toList := by
  induction chunks with
  | nil => rfl
  | cons chunk chunks ih => rw [String.join_cons, String.toList_append, List.flatMap_cons, ih]

/-- The chunks of a value are its text. -/
theorem join_splitSecret (value : String) : String.join (splitSecret value) = value := by
  refine String.toList_injective ?_
  have htext := text_foldl ⟨[], [], 0⟩ value.toList
  unfold Split.text at htext
  rw [toList_join]
  unfold splitSecret
  dsimp only
  split
  · rename_i hchunk
    rw [hchunk, List.append_nil] at htext
    exact htext
  · rw [List.flatMap_append, List.flatMap_singleton, String.toList_ofList]
    exact htext

theorem splitSecret_ne_nil {value : String} (h : value ≠ "") : splitSecret value ≠ [] := by
  intro hnil
  have hjoin := join_splitSecret value
  rw [hnil] at hjoin
  exact h hjoin.symm

theorem isPrefixOf?_append (lead rest : List Char) : lead.isPrefixOf? (lead ++ rest) = some rest := by
  induction lead with
  | nil => rfl
  | cons c lead ih => rw [List.cons_append, List.isPrefixOf?, if_pos (beq_self_eq_true c), ih]

theorem startsWith_append (lead rest : String) : startsWith (lead ++ rest) lead = true := by
  unfold startsWith
  rw [String.toList_append, List.isPrefixOf_iff_prefix]
  exact List.prefix_append _ _

theorem isPrefixOf?_of_not {lead text : List Char} (h : lead.isPrefixOf text = false) : lead.isPrefixOf? text = none := by
  induction lead generalizing text with
  | nil => exact nomatch h
  | cons c lead ih =>
    cases text with
    | nil => rfl
    | cons c' text =>
      rw [List.isPrefixOf?]
      rw [List.isPrefixOf] at h
      split
      · rename_i hc
        rw [hc, Bool.true_and] at h
        exact ih h
      · rfl

section
variable {codec : Codec} {generation value : String}

/-- What `serde_json` and SHA-256 do for the manifest of a save, and the generation is a UUID. -/
structure Written (codec : Codec) (generation value : String) : Prop where
  roundTrip : codec.fromJson (codec.toJson (manifestOf codec generation value)) = some (manifestOf codec generation value)
  generation : isHex generation 32 = true
  digest : isHex (codec.sha256Hex value) 64 = true

theorem decode_encode (h : Written codec generation value) (hvalue : value ≠ "")
    (hlimit : (splitSecret value).length ≤ maxChunks) :
    decodeManifest codec (encodeManifest codec (manifestOf codec generation value)) =
      .ok (manifestOf codec generation value) := by
  have hcount : (splitSecret value).length ≠ 0 := fun hzero => splitSecret_ne_nil hvalue (List.length_eq_zero_iff.mp hzero)
  unfold decodeManifest encodeManifest stripPrefix?
  rw [String.toList_append, isPrefixOf?_append, Option.map_some, String.ofList_toList, Option.bind_some, h.roundTrip]
  dsimp only
  refine if_neg ?_
  have hversion : (manifestOf codec generation value).version = manifestVersion := rfl
  have hgeneration : (manifestOf codec generation value).generation = generation := rfl
  have hsha256 : (manifestOf codec generation value).sha256 = codec.sha256Hex value := rfl
  have hlength : (manifestOf codec generation value).count = (splitSecret value).length := rfl
  rw [hversion, hgeneration, hsha256, hlength, h.generation, h.digest]
  simp only [ne_eq, not_true, false_or, Bool.not_true, Bool.false_eq_true, or_false, not_or, Nat.not_lt]
  exact ⟨hcount, hlimit⟩

theorem decode_plain {stored : String} (h : startsWith stored manifestPrefix = false) :
    decodeManifest codec stored = .error .manifest := by
  unfold decodeManifest stripPrefix?
  rw [isPrefixOf?_of_not h]
  rfl

/-- The pieces of a value, by their index. -/
theorem join_pieces (value : String) : String.join ((List.range (splitSecret value).length).map fun index =>
    (splitSecret value).getD index "") = value := by
  have hpieces : (List.range (splitSecret value).length).map (fun index => (splitSecret value).getD index "") =
      splitSecret value := by
    refine List.ext_getElem (by simp) fun index _ hindex => ?_
    simp [hindex]
  rw [hpieces, join_splitSecret]

end

/-! ## Saves -/

section
variable (codec : Codec) (generation service user value : String) (k : Keyring)

/-- The generation is new: no chunk has it, and no manifest names it. -/
structure Fresh : Prop where
  chunks : ∀ index, k (service, chunkUser user generation index) = none
  manifest : ∀ stored manifest, k (service, user) = some stored → decodeManifest codec stored = .ok manifest →
    manifest.generation ≠ generation

/-- The manifest of the entry, if it has one, names this generation. -/
def Current : Prop := ∀ stored manifest, k (service, user) = some stored → decodeManifest codec stored = .ok manifest →
  manifest.generation = generation

/-- One run of a save: where it returns, a load returns the value and no older chunk can be reached; where it gives
up, a load returns what it returned before. -/
def KeepsPromise (outcomes : List Outcome) : Prop :=
  Meets (saveToService codec generation service user value ⟨k, outcomes⟩)
    (fun _ w => load codec service user w.state = .ok (some value) ∧ Current codec generation service user w.state)
    (fun _ w => load codec service user w.state = load codec service user k) (fun _ => False)

/-- The promise is kept in this run and in an undisturbed one, which returns. -/
structure AtomicSave (outcomes : List Outcome) : Prop where
  promise : KeepsPromise codec generation service user value k outcomes
  calm : KeepsPromise codec generation service user value k []
  returns : ∃ w, saveToService codec generation service user value ⟨k, []⟩ = (.ok (), w)

end

/-- The value is in chunks, or is read as it was written. -/
def Storable (value : String) : Prop :=
  chunkUtf16Units < utf16Units value ∨ (trim value = value ∧ startsWith value manifestPrefix = false)

/-- The number of chunks that are written. -/
def chunkCount (value : String) : Nat := if utf16Units value ≤ chunkUtf16Units then 0 else (splitSecret value).length

/-- The outcomes after a write that restores the entry failed: everything was written, and the three read-backs were
cut short. -/
def stuck (chunks : Nat) (outcomes : List Outcome) : Option (List Outcome) :=
  if cut (chunks + 2) outcomes = none then
    (cuts (chunks + 1) readbackAttempts (outcomes.drop (chunks + 2))).bind (cut 1)
  else none

/-- What a load returns then: the new value, unless one of its chunks was deleted. -/
def leftBehind (value : String) (rest : List Outcome) : Result KeyringError (Option String) :=
  if rest.take (chunkCount value) = List.replicate (chunkCount value) .failed then .ok (some value)
  else .error .missingChunk

section
variable {codec : Codec} {generation service user value : String} {k : Keyring} {outcomes : List Outcome}

/-- What a run of a save comes to. -/
structure Returned (codec : Codec) (generation service user value : String) (outcomes : List Outcome) (k' : Keyring) :
    Prop where
  load : load codec service user k' = .ok (some value)
  current : Current codec generation service user k'
  unstuck : stuck (chunkCount value) outcomes = none

/-- It gives up for a failure, and takes everything back unless it is stuck. -/
def GaveUp (codec : Codec) (service user value : String) (k : Keyring) (outcomes : List Outcome) (k' : Keyring) : Prop :=
  outcomes ≠ [] ∧
    match stuck (chunkCount value) outcomes with
    | none => load codec service user k' = load codec service user k
    | some rest => load codec service user k' = leftBehind value rest

theorem gaveUp_early {k' : Keyring} {n : Nat} (hn : n ≤ chunkCount value + 2) (hcut : cut n outcomes ≠ none)
    (h : load codec service user k' = load codec service user k) : GaveUp codec service user value k outcomes k' := by
  refine ⟨fun hnil => hcut (by rw [hnil, cut_nil]), ?_⟩
  have hall : cut (chunkCount value + 2) outcomes ≠ none := by
    obtain ⟨m, hm⟩ := Nat.exists_eq_add_of_le hn
    rw [hm, cut_add]
    cases hfirst : cut n outcomes with
    | none => exact absurd hfirst hcut
    | some rest => exact nofun
  rw [stuck, if_neg hall]
  exact h

/-- The entry is put back. -/
theorem update_entry_restored (k : Keyring) (entry : Option String) :
    Function.update (Function.update k (service, user) entry) (service, user) (k (service, user)) = k := by
  rw [Function.update_idem, Function.update_eq_self]

/-- Chunks of the previous manifest are deleted as far as possible. -/
theorem meets_cleanUp (previous : Option SecretManifest) (hcalm : NoCrash outcomes) :
    Meets ((match previous with
      | some manifest => deleteManifestChunks service user manifest
      | none => (return : KeyringOp Unit)) ⟨k, outcomes⟩)
      (fun _ w => w.state = k ∨ ∃ manifest, previous = some manifest ∧
        SameOutside service user manifest.generation k w.state) (fun _ _ => False) (fun _ => False) := by
  cases previous with
  | none => exact .inl rfl
  | some manifest =>
    refine (meets_deleteManifestChunks hcalm).mono (fun _ w h => ?_) (fun _ _ hE => hE) fun _ hC => hC
    exact .inr ⟨manifest, rfl, h.outside⟩

/-- A short value that is read as it was written. -/
theorem saveShort_run (hshort : utf16Units value ≤ chunkUtf16Units) (hvalue : value ≠ "") (htrim : trim value = value)
    (hplain : startsWith value manifestPrefix = false) (hcalm : NoCrash outcomes) :
    Meets (saveToService codec generation service user value ⟨k, outcomes⟩)
      (fun _ w => Returned codec generation service user value outcomes w.state)
      (fun _ w => GaveUp codec service user value k outcomes w.state) (fun _ => False) := by
  have hcount : chunkCount value = 0 := if_pos hshort
  have hstored {k : Keyring} (hentry : k (service, user) = some value) :
      Yields (loadSecretFromService codec service user) k 1 (some value) := by
    have hyields := yields_loadSecret_direct codec hentry hplain
    rwa [htrim, if_neg hvalue] at hyields
  have hentry : Function.update k (service, user) (some value) (service, user) = some value := Function.update_self ..
  unfold saveToService
  rw [meets_bind]
  refine (yields_loadRaw service user outcomes hcalm).mono ?_ ?_ fun _ hC => hC
  case refine_2 =>
    rintro _ _ ⟨rest, hcut, rfl⟩
    exact gaveUp_early (n := 1) (by omega) (by rw [hcut]; exact nofun) rfl
  rintro _ _ ⟨hread, rfl, rfl⟩
  dsimp only
  rw [if_pos hshort, meets_bind]
  have hcut := cut_add 1 1 outcomes
  rw [hread, Option.none_or] at hcut
  refine meets_write_cut (noCrash_drop hcalm 1) (fun hset => ?_) fun rest hset => ?_
  case refine_2 =>
    exact gaveUp_early (n := 2) (by omega) (by rw [hcut, hset]; exact nofun) rfl
  rw [hset] at hcut
  have hstuck : stuck (chunkCount value) outcomes = (cuts 1 readbackAttempts (outcomes.drop 2)).bind (cut 1) := by
    rw [stuck, hcount, if_pos hcut]
  rw [List.drop_drop, meets_bind, meets_attempt]
  refine (meets_verifyAttempts (hstored hentry) readbackAttempts none (noCrash_drop hcalm 2)).mono ?_ ?_ fun _ hC => hC
  · rintro _ w ⟨hcuts, hstate, hw⟩
    obtain ⟨state, outcomes'⟩ := w
    obtain rfl : state = _ := hstate
    refine (meets_cleanUp _ hw).mono (fun _ w h => ?_) (fun _ _ hE => hE.elim) fun _ hC => hC
    have hkept : w.state (service, user) = some value := by
      rcases h with hsame | ⟨manifest, -, hsame⟩
      · rw [hsame, hentry]
      · rw [hsame.entry, hentry]
    refine ⟨(hstored hkept).load_eq, fun stored manifest hstored' hdecode => ?_, ?_⟩
    · obtain rfl := Option.some.inj (hkept.symm.trans hstored')
      rw [decode_plain hplain] at hdecode
      exact nomatch hdecode
    · rw [hstuck, hcuts, Option.bind_none]
  · rintro e _ ⟨rest, hcuts, rfl, hrest⟩
    have hfailure : outcomes ≠ [] := fun hnil => by
      rw [hnil, List.drop_nil, readbackAttempts, cuts_nil] at hcuts
      exact nomatch hcuts
    rw [hcuts, Option.bind_some] at hstuck
    dsimp only
    rw [meets_bind]
    refine (meets_restoreRawSecret _ hrest).mono ?_ ?_ fun _ hC => hC
    · rintro _ _ ⟨hrestored, rfl⟩
      refine ⟨hfailure, ?_⟩
      rw [hstuck, hrestored, update_entry_restored]
    · rintro _ _ ⟨rest', hfailed, rfl⟩
      refine ⟨hfailure, ?_⟩
      rw [hstuck, hfailed]
      show load codec service user _ = leftBehind value rest'
      rw [leftBehind, hcount, List.take_zero, List.replicate_zero, if_pos rfl]
      exact (hstored hentry).load_eq

attribute [local irreducible] Meets in
/-- A value in chunks. -/
theorem saveChunks_run (hlong : ¬utf16Units value ≤ chunkUtf16Units) (hvalue : value ≠ "")
    (hlimit : (splitSecret value).length ≤ maxChunks) (hwritten : Written codec generation value)
    (hfresh : Fresh codec generation service user k) (hcalm : NoCrash outcomes) :
    Meets (saveToService codec generation service user value ⟨k, outcomes⟩)
      (fun _ w => Returned codec generation service user value outcomes w.state)
      (fun _ w => GaveUp codec service user value k outcomes w.state) (fun _ => False) := by
  have hcount : chunkCount value = (splitSecret value).length := if_neg hlong
  let n := (splitSecret value).length
  let manifest := manifestOf codec generation value
  let encoded := encodeManifest codec manifest
  let written := Function.update (putChunks service user generation k 0 (splitSecret value)) (service, user) (some encoded)
  have hdecode : decodeManifest codec encoded = .ok manifest := decode_encode hwritten hvalue hlimit
  have hstarts : startsWith encoded manifestPrefix = true := startsWith_append ..
  -- A keyring with the manifest and the chunks.
  have hstored {k : Keyring} (hentry : k (service, user) = some encoded)
      (hchunks : ∀ index < n, k (service, chunkUser user generation index) = some ((splitSecret value).getD index "")) :
      Yields (loadSecretFromService codec service user) k (1 + n) (some value) := by
    have hyields := yields_loadSecret_chunks hentry hstarts hdecode
      (fun index hindex => hchunks index (List.mem_range.mp hindex)) (by
        show codec.sha256Hex (String.join ((List.range n).map _)) = codec.sha256Hex value
        rw [join_pieces])
    have hjoin : String.join ((List.range manifest.count).map fun index => (splitSecret value).getD index "") = value :=
      join_pieces value
    rwa [hjoin] at hyields
  have hentry : written (service, user) = some encoded := Function.update_self ..
  have hchunks (index : Nat) (hindex : index < n) :
      written (service, chunkUser user generation index) = some ((splitSecret value).getD index "") := by
    have hne : (service, chunkUser user generation index) ≠ (service, user) := fun heq =>
      chunkUser_ne user generation index (congrArg Prod.snd heq)
    have hget : putChunks service user generation k 0 (splitSecret value) (service, chunkUser user generation (0 + index)) =
        some ((splitSecret value).getD index "") := putChunks_get 0 hindex
    rw [Nat.zero_add] at hget
    exact (Function.update_of_ne hne ..).trans hget
  have hgeneration : generation.toList.length = 32 := by
    have hhex := hwritten.generation
    unfold isHex at hhex
    rw [Bool.and_eq_true, decide_eq_true_eq] at hhex
    exact hhex.1
  -- The chunks of the generation do not matter to what was stored.
  have hbefore {k' : Keyring} (hsame : SameOutside service user generation k k') :
      load codec service user k' = load codec service user k := by
    refine load_congr hsame.entry fun stored other hother hdecode index => ?_
    have hlength := (length_of_decode hdecode).1
    exact hsame.chunk (hlength.trans hgeneration.symm) (hfresh.manifest stored other hother hdecode) index
  unfold saveToService
  rw [meets_bind]
  refine (yields_loadRaw service user outcomes hcalm).mono ?_ ?_ fun _ hC => hC
  case refine_2 =>
    rintro _ _ ⟨rest, hcut, rfl⟩
    exact gaveUp_early (n := 1) (by omega) (by rw [hcut]; exact nofun) rfl
  rintro _ _ ⟨hread, rfl, rfl⟩
  dsimp only
  rw [if_neg hlong, if_neg (Nat.not_lt.mpr hlimit), meets_bind]
  have hcut := cut_add 1 n outcomes
  rw [hread, Option.none_or] at hcut
  refine (meets_writeChunks (splitSecret value) 0 (noCrash_drop hcalm 1)).mono ?_ ?_ fun _ hC => hC
  case refine_2 =>
    rintro _ w ⟨hfailed, hsame⟩
    exact gaveUp_early (n := 1 + n) (by omega) (by rw [hcut]; exact hfailed) (hbefore hsame)
  rintro users _ ⟨hchunksDone, husers, rfl⟩
  rw [hchunksDone] at hcut
  have hputs : SameOutside service user generation k (putChunks service user generation k 0 (splitSecret value)) :=
    sameOutside_putChunks 0 (splitSecret value)
  have hcut' := cut_add (1 + n) 1 outcomes
  rw [hcut, Option.none_or] at hcut'
  rw [List.drop_drop, meets_bind, meets_attempt]
  refine meets_write_cut (noCrash_drop hcalm _) (fun hset => ?_) fun rest hset => ?_
  case refine_2 =>
    dsimp only
    rw [meets_bind, husers]
    refine (meets_deleteWritten _ (noCrash_suffix (noCrash_drop hcalm _) (cut_suffix hset))).mono
      (fun _ w h => ?_) (fun _ _ hE => hE.elim) fun _ hC => hC
    rw [meets_throw]
    exact gaveUp_early (n := 1 + n + 1) (by omega) (by rw [hcut', hset]; exact nofun) (hbefore (hputs.trans h))
  rw [hset] at hcut'
  have hall : cut (chunkCount value + 2) outcomes = none := by
    have hsum : chunkCount value + 2 = 1 + n + 1 := by
      omega
    rw [hsum, hcut']
  have hstuck : stuck (chunkCount value) outcomes =
      (cuts (1 + n) readbackAttempts (outcomes.drop (1 + n + 1))).bind (cut 1) := by
    have hsum : chunkCount value + 2 = 1 + n + 1 := by
      omega
    have hreads : chunkCount value + 1 = 1 + n := by
      omega
    rw [stuck, if_pos hall, hsum, hreads]
  rw [List.drop_drop]
  dsimp only
  rw [meets_bind, meets_attempt]
  refine (meets_verifyAttempts (hstored hentry hchunks) readbackAttempts none (noCrash_drop hcalm _)).mono ?_ ?_
    fun _ hC => hC
  · rintro _ w ⟨hcuts, hstate, hw⟩
    obtain ⟨state, outcomes'⟩ := w
    obtain rfl : state = written := hstate
    refine (meets_cleanUp _ hw).mono (fun _ w h => ?_) (fun _ _ hE => hE.elim) fun _ hC => hC
    have hkept : w.state (service, user) = some encoded ∧
        ∀ index < n, w.state (service, chunkUser user generation index) = some ((splitSecret value).getD index "") := by
      rcases h with hsame | ⟨previous, hprevious, hsame⟩
      · rw [hsame]
        exact ⟨hentry, hchunks⟩
      · -- The previous manifest names another generation.
        obtain ⟨stored, hstoredBefore, hdecoded⟩ := Option.bind_eq_some_iff.mp hprevious
        have hdecodePrevious : decodeManifest codec stored = .ok previous := by
          cases hresult : decodeManifest codec stored with
          | error e =>
            rw [hresult] at hdecoded
            exact nomatch hdecoded
          | ok found =>
            rw [hresult] at hdecoded
            exact congrArg Except.ok (Option.some.inj hdecoded)
        have hne := hfresh.manifest stored previous hstoredBefore hdecodePrevious
        have hlength := (length_of_decode hdecodePrevious).1
        refine ⟨hsame.entry.trans hentry, fun index hindex => ?_⟩
        exact (hsame.chunk (hgeneration.trans hlength.symm) (Ne.symm hne) index).trans (hchunks index hindex)
    refine ⟨(hstored hkept.1 hkept.2).load_eq, fun stored other hother hdecodeOther => ?_, ?_⟩
    · obtain rfl := Option.some.inj (hkept.1.symm.trans hother)
      obtain rfl := Except.ok.inj (hdecode.symm.trans hdecodeOther)
      rfl
    · rw [hstuck, hcuts, Option.bind_none]
  · rintro e _ ⟨rest, hcuts, rfl, hrest⟩
    have hfailure : outcomes ≠ [] := fun hnil => by
      rw [hnil, List.drop_nil, readbackAttempts, cuts_nil] at hcuts
      exact nomatch hcuts
    rw [hcuts, Option.bind_some] at hstuck
    dsimp only
    rw [meets_bind, meets_attempt]
    refine (meets_restoreRawSecret _ hrest).mono ?_ ?_ fun _ hC => hC
    · rintro _ _ ⟨hrestored, rfl⟩
      rw [hrestored] at hstuck
      rw [meets_bind]
      refine (meets_deleteManifestChunks (noCrash_drop hrest 1)).mono (fun _ w h => ?_) (fun _ _ hE => hE.elim)
        fun _ hC => hC
      have hput : Function.update written (service, user) (k (service, user)) =
          putChunks service user generation k 0 (splitSecret value) := by
        rw [← hputs.entry, update_entry_restored]
      rw [meets_bind, meets_ofExcept_ok, meets_throw]
      refine ⟨hfailure, ?_⟩
      rw [hstuck]
      refine hbefore (hputs.trans ?_)
      rw [← hput]
      exact h.outside
    · rintro _ _ ⟨rest', hfailed, rfl⟩
      rw [hfailed] at hstuck
      rw [meets_bind]
      refine (meets_deleteManifestChunks (noCrash_suffix hrest (cut_suffix hfailed))).mono (fun _ w h => ?_)
        (fun _ _ hE => hE.elim) fun _ hC => hC
      rw [meets_bind, meets_ofExcept_error]
      refine ⟨hfailure, ?_⟩
      rw [hstuck]
      show load codec service user w.state = leftBehind value rest'
      have hindices : (List.range manifest.count).length = chunkCount value := by
        rw [List.length_range, hcount]
        rfl
      rw [leftBehind]
      split
      · rename_i hallFailed
        rw [← hindices] at hallFailed
        rw [h.failed hallFailed]
        exact (hstored hentry hchunks).load_eq
      · rename_i hsome
        rw [← hindices] at hsome
        obtain ⟨index, hindex, hnone⟩ := h.removed hsome
        exact load_missing (h.outside.entry.trans hentry) hstarts hdecode ⟨index, hindex, hnone⟩

/-! ## Values that are not read as they were written -/

/-- An undisturbed load leaves the keyring, and is not cut short. -/
theorem reads_load (codec : Codec) (service user : String) (k : Keyring) :
    Reads (loadSecretFromService codec service user) k (load codec service user k) ∧
      load codec service user k ≠ .crash := by
  have hchunks (generation : String) (indices : List Nat) (value : String) :
      ∃ result, Reads (readChunks service user generation indices value) k result ∧ result ≠ .crash := by
    induction indices generalizing value with
    | nil => exact ⟨.ok value, rfl, nofun⟩
    | cons index indices ih =>
      cases hchunk : k (service, chunkUser user generation index) with
      | none =>
        refine ⟨.error .missingChunk, (reads_loadRaw service _).bind ?_, nofun⟩
        rw [hchunk]
        rfl
      | some chunk =>
        obtain ⟨result, hresult, hcrash⟩ := ih (value ++ chunk)
        refine ⟨result, (reads_loadRaw service _).bind ?_, hcrash⟩
        rw [hchunk]
        exact hresult
  have hload : ∃ result, Reads (loadSecretFromService codec service user) k result ∧ result ≠ .crash := by
    cases hentry : k (service, user) with
    | none =>
      refine ⟨.ok none, (reads_loadRaw service user).bind ?_, nofun⟩
      rw [hentry]
      rfl
    | some stored =>
      cases hstarts : startsWith stored manifestPrefix with
      | false =>
        have hread := (yields_loadSecret_direct codec hentry hstarts).reads
        exact ⟨_, hread, nofun⟩
      | true =>
        cases hdecode : decodeManifest codec stored with
        | error e =>
          refine ⟨.error e, (reads_loadRaw service user).bind ?_, nofun⟩
          rw [hentry]
          dsimp only
          rw [if_pos hstarts, hdecode]
          rfl
        | ok manifest =>
          obtain ⟨result, hresult, hcrash⟩ := hchunks manifest.generation (List.range manifest.count) ""
          have hbody {result : Result KeyringError (Option String)}
              (h : Reads (readChunks service user manifest.generation (List.range manifest.count) "" >>= fun value =>
                if codec.sha256Hex value = manifest.sha256 then return some value else Op.throw .checksum) k result) :
              Reads (loadSecretFromService codec service user) k result := by
            refine (reads_loadRaw service user).bind ?_
            rw [hentry]
            dsimp only
            rw [if_pos hstarts, hdecode]
            exact h
          cases result with
          | ok value =>
            by_cases hdigest : codec.sha256Hex value = manifest.sha256
            · exact ⟨.ok (some value), hbody (hresult.bind (by rw [if_pos hdigest]; rfl)), nofun⟩
            · exact ⟨.error .checksum, hbody (hresult.bind (by rw [if_neg hdigest]; rfl)), nofun⟩
          | error e => exact ⟨.error e, hbody hresult.bind_error, nofun⟩
          | crash => exact absurd rfl hcrash
  obtain ⟨result, hresult, hcrash⟩ := hload
  have hsame : load codec service user k = result := by
    unfold Reads at hresult
    rw [load, Op.calm, hresult]
  rw [hsame]
  exact ⟨hresult, hcrash⟩

/-- Undisturbed, the read-backs go by what a load returns. -/
theorem verify_calm (codec : Codec) (service user : String) (k : Keyring) (expected : String) (attempts : Nat) (lastError : Option KeyringError) :
    (load codec service user k = .ok (some expected) →
      verifyAttempts codec service user expected (attempts + 1) lastError ⟨k, []⟩ = (.ok (), ⟨k, []⟩)) ∧
    (load codec service user k ≠ .ok (some expected) →
      ∃ e, verifyAttempts codec service user expected (attempts + 1) lastError ⟨k, []⟩ = (.error e, ⟨k, []⟩)) := by
  obtain ⟨hreads, hcrash⟩ := reads_load codec service user k
  unfold Reads at hreads
  have hattempt (attempts : Nat) (lastError : Option KeyringError) :
      verifyAttempts codec service user expected (attempts + 1) lastError ⟨k, []⟩ =
        match load codec service user k with
        | .ok value => (if value = some expected then Op.pure () else
            verifyAttempts codec service user expected attempts none) ⟨k, []⟩
        | .error e => verifyAttempts codec service user expected attempts (some e) ⟨k, []⟩
        | .crash => (.crash, ⟨k, []⟩) := by
    show Op.bind (Op.attempt _) _ ⟨k, []⟩ = _
    rw [Op.bind, Op.attempt, hreads]
    cases load codec service user k with
    | ok value =>
      dsimp only
      split <;> rfl
    | error e => rfl
    | crash => rfl
  refine ⟨fun h => ?_, fun h => ?_⟩
  · rw [hattempt, h]
    dsimp only
    rw [if_pos rfl]
    rfl
  · have hnever (attempts : Nat) (lastError : Option KeyringError) :
        ∃ e, verifyAttempts codec service user expected attempts lastError ⟨k, []⟩ = (.error e, ⟨k, []⟩) := by
      induction attempts generalizing lastError with
      | zero => exact ⟨_, rfl⟩
      | succ attempts ih =>
        rw [hattempt]
        cases hresult : load codec service user k with
        | ok value =>
          dsimp only
          rw [if_neg fun heq => h (by rw [hresult, heq])]
          exact ih none
        | error e => exact ih (some e)
        | crash => exact absurd hresult hcrash
    exact hnever (attempts + 1) lastError

/-- An undisturbed save of a short value that returns leaves it in the entry, where a load reads it. -/
theorem saveShort_calm (hshort : utf16Units value ≤ chunkUtf16Units) {w : World Keyring}
    (hrun : saveToService codec generation service user value ⟨k, []⟩ = (.ok (), w)) :
    w.state (service, user) = some value ∧
      load codec service user (Function.update k (service, user) (some value)) = .ok (some value) := by
  let written := Function.update k (service, user) (some value)
  have hentry : written (service, user) = some value := Function.update_self ..
  obtain ⟨hverified, hunverified⟩ := verify_calm codec service user written value 2 none
  have hrunTo {Q : Unit → World Keyring → Prop}
      (h : Meets (verifyAttempts codec service user value 3 none ⟨written, []⟩)
        (fun _ w => Meets ((match (k (service, user)).bind fun stored => (decodeManifest codec stored).toOption with
          | some manifest => deleteManifestChunks service user manifest
          | none => (return : KeyringOp Unit)) w) Q (fun _ _ => True) (fun _ => False))
        (fun e w => Meets ((restoreRawSecret service user (k (service, user)) >>= fun _ => (Op.throw e : KeyringOp Unit)) w)
          Q (fun _ _ => True) (fun _ => False)) (fun _ => False)) :
      Meets (saveToService codec generation service user value ⟨k, []⟩) Q (fun _ _ => True) (fun _ => False) := by
    unfold saveToService
    rw [meets_bind]
    refine (yields_loadRaw service user [] (within_nil _)).mono ?_ (fun _ _ _ => trivial) fun _ hC => hC
    rintro _ _ ⟨-, rfl, rfl⟩
    dsimp only
    rw [if_pos hshort, meets_bind]
    refine meets_write_cut (within_nil _) (fun _ => ?_) fun _ _ => trivial
    rw [meets_bind, meets_attempt]
    exact h
  by_cases hload : load codec service user written = .ok (some value)
  · refine ⟨?_, hload⟩
    have hmeets : Meets (saveToService codec generation service user value ⟨k, []⟩)
        (fun _ w => w.state (service, user) = some value) (fun _ _ => True) (fun _ => False) := by
      refine hrunTo ?_
      rw [hverified hload]
      refine (meets_cleanUp _ (within_nil _)).mono (fun _ w h => ?_) (fun _ _ hE => hE.elim) fun _ hC => hC
      rcases h with hsame | ⟨manifest, -, hsame⟩
      · rw [hsame, hentry]
      · rw [hsame.entry, hentry]
    rw [hrun] at hmeets
    exact hmeets
  · obtain ⟨e, hunverified⟩ := hunverified hload
    have hmeets : Meets (saveToService codec generation service user value ⟨k, []⟩)
        (fun _ _ => False) (fun _ _ => True) (fun _ => False) := by
      refine hrunTo ?_
      rw [hunverified]
      show Meets ((restoreRawSecret service user (k (service, user)) >>= fun _ => Op.throw e) ⟨written, []⟩) _ _ _
      rw [meets_bind]
      exact (meets_restoreRawSecret _ (within_nil _)).mono (fun _ _ _ => trivial) (fun _ _ _ => trivial) fun _ hC => hC
    rw [hrun] at hmeets
    exact hmeets.elim

/-- A value that an undisturbed save keeps is read as it was written. -/
theorem storable_of_calm (hfresh : Fresh codec generation service user k)
    (hpromise : KeepsPromise codec generation service user value k [])
    (hreturns : ∃ w, saveToService codec generation service user value ⟨k, []⟩ = (.ok (), w)) : Storable value := by
  by_cases hshort : utf16Units value ≤ chunkUtf16Units
  · obtain ⟨w, hrun⟩ := hreturns
    obtain ⟨hkept, hload⟩ := saveShort_calm hshort hrun
    unfold KeepsPromise at hpromise
    rw [hrun] at hpromise
    obtain ⟨-, hcurrent⟩ := hpromise
    have hentry : Function.update k (service, user) (some value) (service, user) = some value := Function.update_self ..
    cases hstarts : startsWith value manifestPrefix with
    | false =>
      have hdirect := (yields_loadSecret_direct codec hentry hstarts).load_eq
      have hsame := Result.ok.inj (hdirect.symm.trans hload)
      split at hsame
      · exact nomatch hsame
      · exact .inr ⟨Option.some.inj hsame, hstarts⟩
    | true =>
      cases hdecode : decodeManifest codec value with
      | error e =>
        have hreads : Reads (loadSecretFromService codec service user)
            (Function.update k (service, user) (some value)) (.error e) := by
          refine (reads_loadRaw service user).bind ?_
          rw [hentry]
          dsimp only
          rw [if_pos hstarts, hdecode]
          rfl
        have hfailed := hreads.symm.trans (reads_load codec service user _).1
        rw [hload] at hfailed
        exact nomatch congrArg Prod.fst hfailed
      | ok manifest =>
        -- Its chunks would have the new generation, of which there are none.
        have hgeneration := hcurrent value manifest hkept hdecode
        have hmissing := load_missing hentry hstarts hdecode ⟨0, List.mem_range.mpr (length_of_decode hdecode).2, by
          have hne : (service, chunkUser user manifest.generation 0) ≠ (service, user) := fun heq =>
            chunkUser_ne user manifest.generation 0 (congrArg Prod.snd heq)
          rw [Function.update_of_ne hne, hgeneration]
          exact hfresh.chunks 0⟩
        exact nomatch hmissing.symm.trans hload
  · exact .inl (Nat.lt_of_not_le hshort)

theorem save_run (hvalue : value ≠ "") (hlimit : (splitSecret value).length ≤ maxChunks)
    (hwritten : Written codec generation value) (hfresh : Fresh codec generation service user k)
    (hstorable : Storable value) (hcalm : NoCrash outcomes) :
    Meets (saveToService codec generation service user value ⟨k, outcomes⟩)
      (fun _ w => Returned codec generation service user value outcomes w.state)
      (fun _ w => GaveUp codec service user value k outcomes w.state) (fun _ => False) := by
  by_cases hshort : utf16Units value ≤ chunkUtf16Units
  · obtain ⟨htrim, hplain⟩ := hstorable.resolve_left (Nat.not_lt.mpr hshort)
    exact saveShort_run hshort hvalue htrim hplain hcalm
  · exact saveChunks_run hshort hvalue hlimit hwritten hfresh hcalm

theorem save_atomic (hvalue : value ≠ "") (hlimit : (splitSecret value).length ≤ maxChunks)
    (hwritten : Written codec generation value) (hfresh : Fresh codec generation service user k)
    (hcalm : NoCrash outcomes) :
    AtomicSave codec generation service user value k outcomes ↔
      Storable value ∧ ∀ rest, stuck (chunkCount value) outcomes = some rest →
        load codec service user k = leftBehind value rest := by
  constructor
  · intro h
    have hstorable := storable_of_calm hfresh h.calm h.returns
    refine ⟨hstorable, fun rest hstuck => ?_⟩
    have hboth := (save_run hvalue hlimit hwritten hfresh hstorable hcalm).and h.promise
    rcases hrun : saveToService codec generation service user value ⟨k, outcomes⟩ with ⟨_ | e | _, w⟩ <;>
      rw [hrun] at hboth
    · obtain ⟨hreturned, -⟩ := hboth
      rw [hreturned.unstuck] at hstuck
      exact nomatch hstuck
    · obtain ⟨⟨-, hgaveUp⟩, hsame⟩ := hboth
      rw [hstuck] at hgaveUp
      exact hsame.symm.trans hgaveUp
    · exact hboth.1.elim
  · rintro ⟨hstorable, hback⟩
    have hpromise {outcomes : List Outcome} (hcalm : NoCrash outcomes)
        (hback : ∀ rest, stuck (chunkCount value) outcomes = some rest →
          load codec service user k = leftBehind value rest) :
        KeepsPromise codec generation service user value k outcomes := by
      refine (save_run hvalue hlimit hwritten hfresh hstorable hcalm).mono (fun _ w h => ⟨h.load, h.current⟩)
        (fun _ w h => ?_) fun _ hC => hC
      obtain ⟨-, hgaveUp⟩ := h
      cases hstuck : stuck (chunkCount value) outcomes with
      | none =>
        rw [hstuck] at hgaveUp
        exact hgaveUp
      | some rest =>
        rw [hstuck] at hgaveUp
        exact hgaveUp.trans (hback rest hstuck).symm
    have hunstuck : stuck (chunkCount value) [] = none := by
      rw [stuck, List.drop_nil, readbackAttempts, cuts_nil, cut_nil, if_pos rfl]
      rfl
    refine ⟨hpromise hcalm hback, hpromise (within_nil _) fun rest hstuck => ?_, ?_⟩
    · rw [hunstuck] at hstuck
      exact nomatch hstuck
    · have hrun := save_run hvalue hlimit hwritten hfresh hstorable (within_nil _)
      rcases hsave : saveToService codec generation service user value ⟨k, []⟩ with ⟨_ | e | _, w⟩ <;>
        rw [hsave] at hrun
      · exact ⟨w, rfl⟩
      · exact absurd rfl hrun.1
      · exact hrun.elim

end

def sampleGeneration : String := "0123456789abcdef0123456789abcdef"

def sampleDigest : String := "2bb80d537b1da3e38bd30361aa855686bde0eacd7162fef6a25fe97bf527a25b"

/-- The manifest of the value "secret". -/
def sampleManifest : SecretManifest := ⟨1, sampleGeneration, 1, sampleDigest⟩

def manifestJson (manifest : SecretManifest) : String :=
  "\x7b\"version\":" ++ toString manifest.version ++ ",\"generation\":\"" ++ manifest.generation ++ "\",\"count\":" ++
    toString manifest.count ++ ",\"sha256\":\"" ++ manifest.sha256 ++ "\"\x7d"

def sampleCodec : Codec where
  toJson := manifestJson
  fromJson text := if text = manifestJson sampleManifest then some sampleManifest else none
  sha256Hex _ := sampleDigest

/-- A first read-back that fails. -/
theorem save_atomic_sample : AtomicSave sampleCodec sampleGeneration "service" "user" "secret" (fun _ => none)
    [.done, .done, .failed] := by
  have hunstuck : stuck (chunkCount "secret") [.done, .done, .failed] = none := by
    decide
  refine (save_atomic (by decide) (by decide) ⟨?_, by decide, by decide⟩ ⟨fun _ => rfl, fun _ _ h =>
    (Option.some_ne_none _ h.symm).elim⟩ ?_).mpr
    ⟨.inr ⟨by decide, by decide⟩, fun rest hstuck => ?_⟩
  · have hcount : (splitSecret "secret").length = 1 := by
      decide
    have hmanifest : manifestOf sampleCodec sampleGeneration "secret" = sampleManifest := by
      unfold manifestOf
      rw [hcount]
      rfl
    rw [hmanifest]
    unfold sampleCodec
    dsimp only
    rw [if_pos rfl]
  · intro outcome hmem
    fin_cases hmem <;> decide
  · rw [hunstuck] at hstuck
    exact nomatch hstuck

/-- An entry that holds a short value. -/
def holding (value : String) : Keyring := fun key => if key = ("service", "user") then some value else none

/-- White space at the front is not read back. Where the read-backs fail, and the write that restores the entry, the
value of the save that failed is in its place. -/
theorem save_not_atomic :
    ¬AtomicSave sampleCodec sampleGeneration "service" "user" " key" (holding "old") [] ∧
    ¬AtomicSave sampleCodec sampleGeneration "service" "user" "key" (holding "old")
      [.done, .done, .failed, .failed, .failed, .failed] := by
  refine ⟨fun h => ?_, fun h => ?_⟩
  · obtain ⟨w, hrun⟩ := h.returns
    have herror : (saveToService sampleCodec sampleGeneration "service" "user" " key" ⟨holding "old", []⟩).1 =
        .error .unverified := by
      decide
    rw [hrun] at herror
    exact nomatch herror
  · have hpromise := h.promise
    have hleft : load sampleCodec "service" "user" (saveToService sampleCodec sampleGeneration "service" "user" "key"
        ⟨holding "old", [.done, .done, .failed, .failed, .failed, .failed]⟩).2.state = .ok (some "key") := by
      decide
    have hbefore : load sampleCodec "service" "user" (holding "old") = .ok (some "old") := by
      decide
    have herror : (saveToService sampleCodec sampleGeneration "service" "user" "key"
        ⟨holding "old", [.done, .done, .failed, .failed, .failed, .failed]⟩).1 = .error .save := by
      decide
    unfold KeepsPromise at hpromise
    rcases hrun : saveToService sampleCodec sampleGeneration "service" "user" "key"
      ⟨holding "old", [.done, .done, .failed, .failed, .failed, .failed]⟩ with ⟨result, w⟩
    rw [hrun] at hpromise hleft herror
    obtain rfl : result = .error .save := herror
    have hsame : load sampleCodec "service" "user" w.state = load sampleCodec "service" "user" (holding "old") := hpromise
    rw [hleft, hbefore] at hsame
    exact absurd hsame (by decide)

end Zenith.Secrets

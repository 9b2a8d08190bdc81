import Mathlib

/-!
# Framing a chunked byte stream

A consumer of a chunked stream buffers what it gets and hands over one frame after the other: while
`boundary` finds the end of a frame in the buffer, the bytes up to it are taken off and handled.
Once the handler is `terminal`, the buffer is dropped and everything that follows is ignored.

`Delivered` says of a list of frames that `boundary` finds exactly their ends, whatever part of the
stream is in the buffer. For such a stream `pushAll_eq_handleAll` is the whole story: however it is
cut into chunks, the consumer ends where handling the frames one by one ends. For other streams
`pushAll_core` still says that some list of frames, `framesOf`, is handled.

`findInfix` is the search for a delimiter that boundaries are made of.
-/

namespace Zenith.Framing

variable {α σ : Type}

/-! ## Searching for a delimiter -/

section
variable [DecidableEq α]

/-- The first position at which the pattern stands, as in `windows(n).position(..)`. -/
def findInfix (pattern : List α) : List α → Option Nat
  | [] => if pattern = [] then some 0 else none
  | a :: l => if pattern <+: a :: l then some 0 else (findInfix pattern l).map (· + 1)

theorem findInfix_cons_of_not {pattern : List α} {a : α} {l : List α}
    (h : ¬ pattern <+: a :: l) :
    findInfix pattern (a :: l) = (findInfix pattern l).map (· + 1) := by
  rw [findInfix, if_neg h]

theorem findInfix_of_lead {pattern : List α} {l : List α} (h : pattern <+: l) :
    findInfix pattern l = some 0 := by
  cases l with
  | nil => rw [findInfix, if_pos (List.prefix_nil.mp h)]
  | cons a l => rw [findInfix, if_pos h]

/-- What stands before the pattern's first element cannot be its start. -/
theorem findInfix_append_of_not_mem {first : α} {pattern skipped : List α} (l : List α)
    (h : first ∉ skipped) :
    findInfix (first :: pattern) (skipped ++ l) =
      (findInfix (first :: pattern) l).map (· + skipped.length) := by
  induction skipped with
  | nil =>
    rw [List.nil_append]
    cases findInfix (first :: pattern) l <;> rfl
  | cons a skipped ih =>
    rw [List.mem_cons, not_or] at h
    rw [List.cons_append, findInfix_cons_of_not (by
      intro hlead
      exact h.1 (List.cons_prefix_cons.mp hlead).1), ih h.2]
    cases findInfix (first :: pattern) l with
    | none => rfl
    | some n => exact congrArg some (Nat.add_assoc n skipped.length 1)

theorem findInfix_of_not_mem {first : α} {pattern l : List α} (h : first ∉ l) :
    findInfix (first :: pattern) l = none := by
  have hnil := @findInfix_append_of_not_mem α _ first pattern l [] h
  rw [List.append_nil] at hnil
  exact hnil

theorem findInfix_le {pattern l : List α} {n : Nat} (h : findInfix pattern l = some n) :
    n + pattern.length ≤ l.length := by
  induction l generalizing n with
  | nil =>
    rw [findInfix] at h
    split at h
    case isTrue hnil =>
      cases h
      rw [hnil, List.length_nil]
    case isFalse => exact nomatch h
  | cons a l ih =>
    rw [findInfix] at h
    split at h
    case isTrue hlead =>
      cases h
      rw [Nat.zero_add]
      exact hlead.length_le
    case isFalse =>
      obtain ⟨m, hm, rfl⟩ := Option.map_eq_some_iff.mp h
      have := ih hm
      rw [List.length_cons]
      omega

/-- The pattern stands where it is found. -/
theorem findInfix_suffix {pattern l : List α} {n : Nat} (h : findInfix pattern l = some n) :
    pattern <:+ l.take (n + pattern.length) := by
  induction l generalizing n with
  | nil =>
    rw [findInfix] at h
    split at h
    case isTrue hnil =>
      rw [hnil]
      exact List.nil_suffix
    case isFalse => exact nomatch h
  | cons a l ih =>
    rw [findInfix] at h
    split at h
    case isTrue hlead =>
      cases h
      rw [Nat.zero_add, ← List.prefix_iff_eq_take.mp hlead]
    case isFalse =>
      obtain ⟨m, hm, rfl⟩ := Option.map_eq_some_iff.mp h
      rw [Nat.add_right_comm, List.take_succ_cons]
      exact (ih hm).trans (List.suffix_cons _ _)

/-- The first position does not change when the list goes on. -/
theorem findInfix_append_of_some {pattern l : List α} {n : Nat} (h : findInfix pattern l = some n)
    (rest : List α) : findInfix pattern (l ++ rest) = some n := by
  induction l generalizing n with
  | nil =>
    rw [findInfix] at h
    split at h
    case isTrue hnil =>
      cases h
      exact findInfix_of_lead (hnil ▸ List.nil_prefix)
    case isFalse => exact nomatch h
  | cons a l ih =>
    by_cases hlead : pattern <+: a :: l
    · rw [findInfix_of_lead hlead] at h
      cases h
      exact findInfix_of_lead (hlead.trans (List.prefix_append _ _))
    · rw [findInfix_cons_of_not hlead] at h
      obtain ⟨m, hm, rfl⟩ := Option.map_eq_some_iff.mp h
      rw [List.cons_append, findInfix_cons_of_not, ih hm]
      · rfl
      · intro hlonger
        have hle := findInfix_le hm
        refine hlead (List.prefix_of_prefix_length_le hlonger (List.prefix_append _ rest) ?_)
        rw [List.length_cons]
        omega

/-- A position that lies within a part of the list is found in that part. -/
theorem findInfix_of_append {pattern l rest : List α} {n : Nat}
    (h : findInfix pattern (l ++ rest) = some n) (hle : n + pattern.length ≤ l.length) :
    findInfix pattern l = some n := by
  induction l generalizing n with
  | nil =>
    rw [List.length_nil] at hle
    obtain ⟨rfl, hlen⟩ : n = 0 ∧ pattern.length = 0 := by omega
    rw [findInfix, if_pos (List.length_eq_zero_iff.mp hlen)]
  | cons a l ih =>
    by_cases hlead : pattern <+: a :: (l ++ rest)
    · rw [List.cons_append, findInfix_of_lead hlead] at h
      cases h
      refine findInfix_of_lead (List.prefix_of_prefix_length_le hlead ?_ (by omega))
      exact List.prefix_append (a :: l) rest
    · rw [List.cons_append, findInfix_cons_of_not hlead] at h
      obtain ⟨m, hm, rfl⟩ := Option.map_eq_some_iff.mp h
      rw [List.length_cons] at hle
      rw [findInfix_cons_of_not, ih hm (by omega)]
      · rfl
      · exact fun hshort => hlead (hshort.trans (List.prefix_append (a :: l) rest))

theorem findInfix_ne_none {pattern : List α} (before after : List α) :
    findInfix pattern (before ++ (pattern ++ after)) ≠ none := by
  induction before with
  | nil =>
    rw [List.nil_append, findInfix_of_lead (List.prefix_append _ _)]
    exact Option.some_ne_none 0
  | cons a before ih =>
    rw [List.cons_append, findInfix]
    split
    · exact Option.some_ne_none 0
    · exact fun hnone => ih (Option.map_eq_none_iff.mp hnone)

/-- The delimiter at the end of a frame is not in a part of it. -/
theorem findInfix_part {pattern l part : List α}
    (h : (findInfix pattern l).map (· + pattern.length) = some l.length) (hlead : part <+: l)
    (hlt : part.length < l.length) : findInfix pattern part = none := by
  cases hpart : findInfix pattern part with
  | none => rfl
  | some n =>
    have hle := findInfix_le hpart
    obtain ⟨rest, rfl⟩ := hlead
    rw [findInfix_append_of_some hpart rest, Option.map_some, Option.some.injEq] at h
    omega

/-- A part of the stream has no delimiter that the whole stream does not have. -/
theorem findInfix_none_of_lead {pattern l whole : List α} (hlead : l <+: whole)
    (h : findInfix pattern whole = none) : findInfix pattern l = none := by
  obtain ⟨rest, rfl⟩ := hlead
  cases hl : findInfix pattern l with
  | none => rfl
  | some n =>
    rw [findInfix_append_of_some hl rest] at h
    exact nomatch h

end

/-! ## The consumer -/

/-- A consumer with its buffer. -/
structure Framed (α σ : Type) where
  core : σ
  pending : List α := []

section
variable (boundary : List α → Option Nat) (handle : σ → List α → σ) (terminal : σ → Bool)

/-- Takes frames off the buffer while there are any. Each one has at least one element, so the
length of the buffer is enough fuel. -/
def drain : Nat → Framed α σ → Framed α σ
  | 0, s => s
  | fuel + 1, s =>
    match boundary s.pending with
    | none => s
    | some n =>
      let core := handle s.core (s.pending.take n)
      if terminal core then { core, pending := [] }
      else drain fuel { core, pending := s.pending.drop n }

/-- A chunk arrives. -/
def push (s : Framed α σ) (chunk : List α) : Framed α σ :=
  if terminal s.core then s
  else drain boundary handle terminal (s.pending ++ chunk).length
    { s with pending := s.pending ++ chunk }

def pushAll (s : Framed α σ) (chunks : List (List α)) : Framed α σ :=
  chunks.foldl (push boundary handle terminal) s

/-- The frames are handled one by one, up to the one that is terminal. -/
def handleAll (s : σ) : List (List α) → σ
  | [] => s
  | frame :: frames => if terminal s then s else handleAll (handle s frame) frames

/-- `boundary` finds the end of each frame as soon as it is in the buffer, and not before,
whatever part of the following frames is there too. -/
structure Delivered (frames : List (List α)) : Prop where
  complete : ∀ frame rest following, frame :: rest <:+ frames → following <+: rest.flatten →
    boundary (frame ++ following) = some frame.length
  incomplete : ∀ frame ∈ frames, ∀ part, part <+: frame → part.length < frame.length →
    boundary part = none
  nonempty : ∀ frame ∈ frames, frame ≠ []

end

section
variable {boundary : List α → Option Nat} {handle : σ → List α → σ} {terminal : σ → Bool}

theorem Delivered.suffix {frames rest : List (List α)} (h : Delivered boundary frames)
    (hsuffix : rest <:+ frames) : Delivered boundary rest where
  complete frame rest' following hrest :=
    h.complete frame rest' following (hrest.trans hsuffix)
  incomplete frame hmem := h.incomplete frame (hsuffix.subset hmem)
  nonempty frame hmem := h.nonempty frame (hsuffix.subset hmem)

theorem handleAll_of_terminal {s : σ} (h : terminal s = true) (frames : List (List α)) :
    handleAll handle terminal s frames = s := by
  cases frames with
  | nil => rfl
  | cons frame frames => rw [handleAll, if_pos h]

theorem handleAll_append (s : σ) (frames frames' : List (List α)) :
    handleAll handle terminal s (frames ++ frames') =
      handleAll handle terminal (handleAll handle terminal s frames) frames' := by
  induction frames generalizing s with
  | nil => rfl
  | cons frame frames ih =>
    by_cases h : terminal s = true
    · rw [handleAll_of_terminal h, handleAll_of_terminal h, handleAll_of_terminal h]
    · rw [List.cons_append, handleAll, if_neg h, ih, handleAll, if_neg h]

/-- Where a consumer is after some of the stream: it is through with the frames before `rest`, and
the buffer has the start of `rest`, less than a frame. -/
def At (handle : σ → List α → σ) (terminal : σ → Bool) (s₀ : σ) (frames : List (List α))
    (future : List α) (s : Framed α σ) : Prop :=
  ∃ before rest, frames = before ++ rest ∧ s.core = handleAll handle terminal s₀ before ∧
    ((terminal s.core = true ∧ s.pending = []) ∨
      (terminal s.core = false ∧ s.pending ++ future = rest.flatten ∧
        ∀ frame ∈ rest.head?, s.pending.length < frame.length))

theorem drain_at (handle : σ → List α → σ) {frames : List (List α)}
    (h : Delivered boundary frames) {core : σ}
    {pending future : List α} {fuel : Nat} (hfuel : pending.length ≤ fuel)
    (hcore : terminal core = false) (hbytes : pending ++ future = frames.flatten)
    (hempty : boundary [] = none) :
    At handle terminal core frames future
      (drain boundary handle terminal fuel { core, pending }) := by
  induction frames generalizing core pending fuel with
  | nil =>
    obtain ⟨rfl, rfl⟩ := List.append_eq_nil_iff.mp hbytes
    have hstop : drain boundary handle terminal fuel { core, pending := [] } =
        { core, pending := [] } := by
      cases fuel with
      | zero => rfl
      | succ fuel => simp only [drain, hempty]
    rw [hstop]
    exact ⟨[], [], rfl, rfl, .inr ⟨hcore, rfl, nofun⟩⟩
  | cons frame frames ih =>
    by_cases hlen : pending.length < frame.length
    · -- Less than a frame is in the buffer.
      have hlead : pending <+: frame := by
        refine List.prefix_of_prefix_length_le ⟨future, rfl⟩ ?_ hlen.le
        rw [hbytes]
        exact List.prefix_append _ _
      have hnone := h.incomplete frame List.mem_cons_self pending hlead hlen
      have hstop : drain boundary handle terminal fuel { core, pending } = { core, pending } := by
        cases fuel with
        | zero => rfl
        | succ fuel => simp only [drain, hnone]
      rw [hstop]
      refine ⟨[], frame :: frames, rfl, rfl, .inr ⟨hcore, hbytes, ?_⟩⟩
      rintro _ ⟨⟩
      exact hlen
    · -- The first frame is complete: it is taken off.
      rw [Nat.not_lt] at hlen
      obtain ⟨following, rfl⟩ : frame <+: pending := by
        refine List.prefix_of_prefix_length_le ?_ (⟨future, hbytes⟩ : pending <+: _) hlen
        exact List.prefix_append _ _
      have hrest : following ++ future = frames.flatten := by
        rw [List.append_assoc, List.flatten_cons] at hbytes
        exact List.append_cancel_left hbytes
      have hsome := h.complete frame frames following (List.suffix_refl _) ⟨future, hrest⟩
      have hpos : 0 < frame.length := List.length_pos_iff.mpr (h.nonempty frame List.mem_cons_self)
      obtain ⟨fuel, rfl⟩ : ∃ fuel', fuel = fuel' + 1 := by
        rw [List.length_append] at hfuel
        exact ⟨fuel - 1, by omega⟩
      simp only [drain, hsome, List.take_left, List.drop_left]
      by_cases hterminal : terminal (handle core frame) = true
      · rw [if_pos hterminal]
        refine ⟨[frame], frames, rfl, ?_, .inl ⟨hterminal, rfl⟩⟩
        rw [handleAll, hcore]
        rfl
      · rw [if_neg hterminal]
        rw [Bool.not_eq_true] at hterminal
        rw [List.length_append] at hfuel
        have hfuel' : following.length ≤ fuel := by omega
        obtain ⟨before, rest, hsplit, hdone, hstate⟩ :=
          ih (h.suffix (List.suffix_cons _ _)) hfuel' hterminal hrest
        refine ⟨frame :: before, rest, by rw [hsplit]; rfl, ?_, hstate⟩
        rw [hdone, handleAll, hcore]
        rfl

theorem push_at {frames : List (List α)} (h : Delivered boundary frames)
    (hempty : boundary [] = none) {s₀ : σ} {s : Framed α σ} {chunk future : List α}
    (hat : At handle terminal s₀ frames (chunk ++ future) s) :
    At handle terminal s₀ frames future (push boundary handle terminal s chunk) := by
  obtain ⟨before, rest, rfl, hcore, ⟨hterminal, hpending⟩ | ⟨hterminal, hbytes, -⟩⟩ := hat
  · rw [push, if_pos hterminal]
    exact ⟨before, rest, rfl, hcore, .inl ⟨hterminal, hpending⟩⟩
  · rw [push, if_neg (by rw [hterminal]; exact Bool.false_ne_true)]
    rw [← List.append_assoc] at hbytes
    obtain ⟨before', rest', rfl, hcore', hstate⟩ :=
      drain_at handle (h.suffix (List.suffix_append _ _)) le_rfl hterminal hbytes hempty
    refine ⟨before ++ before', rest', (List.append_assoc _ _ _).symm, ?_, hstate⟩
    rw [hcore', handleAll_append, hcore]

/-- However the stream is cut into chunks, the frames are handled one by one. -/
theorem pushAll_eq_handleAll {frames : List (List α)} (h : Delivered boundary frames)
    (hempty : boundary [] = none) (s₀ : σ) {chunks : List (List α)}
    (hchunks : chunks.flatten = frames.flatten) :
    pushAll boundary handle terminal { core := s₀ } chunks =
      { core := handleAll handle terminal s₀ frames } := by
  have hpushed : ∀ (chunks : List (List α)) (s : Framed α σ),
      At handle terminal s₀ frames chunks.flatten s →
      At handle terminal s₀ frames [] (pushAll boundary handle terminal s chunks) := by
    intro chunks
    induction chunks with
    | nil => exact fun s hat => hat
    | cons chunk chunks ih => exact fun s hat => ih _ (push_at h hempty hat)
  have hend : At handle terminal s₀ frames []
      (pushAll boundary handle terminal { core := s₀ } chunks) := by
    refine hpushed chunks { core := s₀ } ⟨[], frames, rfl, rfl, ?_⟩
    cases hterminal : terminal s₀ with
    | true => exact .inl ⟨rfl, rfl⟩
    | false =>
      refine .inr ⟨rfl, hchunks, fun frame hframe => ?_⟩
      exact List.length_pos_iff.mpr (h.nonempty frame (List.mem_of_mem_head? hframe))
  generalize pushAll boundary handle terminal { core := s₀ } chunks = s at hend
  obtain ⟨core, pending⟩ := s
  obtain ⟨before, rest, rfl, hcore, ⟨hterminal, hpending⟩ | ⟨-, hpending, hshort⟩⟩ := hend
  · dsimp only at hcore hterminal hpending
    rw [handleAll_append, ← hcore, handleAll_of_terminal hterminal, hpending]
  · cases rest with
    | nil =>
      dsimp only at hcore hpending
      rw [List.append_nil, List.flatten_nil] at hpending
      rw [List.append_nil, ← hcore, hpending]
    | cons frame rest =>
      have hlt := hshort frame rfl
      dsimp only at hpending hlt
      rw [List.append_nil, List.flatten_cons] at hpending
      rw [hpending, List.length_append] at hlt
      omega

/-! ## Consumers in general -/

/-- The frames that a chunked stream is taken apart into. -/
def framesOf (boundary : List α → Option Nat) (chunks : List (List α)) : List (List α) :=
  (pushAll boundary (fun frames frame => frames ++ [frame]) (fun _ => false) { core := [] }
    chunks).core

/-- The bytes after the last of these frames. -/
def restOf (boundary : List α → Option Nat) (chunks : List (List α)) : List α :=
  (pushAll boundary (fun frames frame => frames ++ [frame]) (fun _ => false) { core := [] }
    chunks).pending

/-- `R` relates what a consumer is to the frames it was given: a frame keeps it so, and a consumer
that has ended takes no more frames. -/
structure Tracked (handle : σ → List α → σ) (terminal : σ → Bool) (R : σ → List (List α) → Prop) :
    Prop where
  frame : ∀ s frames frame, R s frames → terminal s = false →
    R (handle s frame) (frames ++ [frame])
  ended : ∀ s frames frame, R s frames → terminal s = true → R s (frames ++ [frame])

/-- A consumer `s` and the collector `t`, with the same bytes in their buffers. -/
def Tracks (terminal : σ → Bool) (R : σ → List (List α) → Prop) (s : Framed α σ)
    (t : Framed α (List (List α))) : Prop :=
  R s.core t.core ∧ (terminal s.core = true ∨ s.pending = t.pending)

theorem Tracked.of_terminal {R : σ → List (List α) → Prop} (h : Tracked handle terminal R) {s : σ}
    (hterminal : terminal s = true) {frames frames' : List (List α)} (hR : R s frames)
    (hlead : frames <+: frames') : R s frames' := by
  obtain ⟨more, rfl⟩ := hlead
  induction more using List.reverseRecOn with
  | nil => rwa [List.append_nil]
  | append_singleton more frame ih =>
    rw [← List.append_assoc]
    exact h.ended s _ frame ih hterminal

theorem collected_drain (boundary : List α → Option Nat) (fuel : Nat) (t : Framed α (List (List α))) :
    t.core <+: (drain boundary (fun frames frame => frames ++ [frame]) (fun _ => false) fuel t).core := by
  induction fuel generalizing t with
  | zero => exact List.prefix_rfl
  | succ fuel ih =>
    rw [drain]
    split
    case h_1 => exact List.prefix_rfl
    case h_2 n _ =>
      dsimp only
      rw [if_neg Bool.false_ne_true]
      exact (List.prefix_append _ _).trans (ih { core := t.core ++ [t.pending.take n], pending := _ })

theorem Tracked.drain {R : σ → List (List α) → Prop} (h : Tracked handle terminal R)
    {s : Framed α σ} {t : Framed α (List (List α))} (hR : R s.core t.core)
    (hterminal : terminal s.core = false) (hpending : s.pending = t.pending) (fuel : Nat) :
    Tracks terminal R (drain boundary handle terminal fuel s)
      (drain boundary (fun frames frame => frames ++ [frame]) (fun _ => false) fuel t) := by
  induction fuel generalizing s t with
  | zero => exact ⟨hR, .inr hpending⟩
  | succ fuel ih =>
    rw [Framing.drain, Framing.drain, ← hpending]
    cases hn : boundary s.pending with
    | none => exact ⟨hR, .inr hpending⟩
    | some n =>
      dsimp only
      rw [if_neg Bool.false_ne_true]
      have hframe := h.frame s.core t.core (s.pending.take n) hR hterminal
      by_cases hnext : terminal (handle s.core (s.pending.take n)) = true
      · rw [if_pos hnext]
        have hlead := collected_drain boundary fuel
          { core := t.core ++ [s.pending.take n], pending := s.pending.drop n }
        exact ⟨h.of_terminal hnext hframe hlead, .inl hnext⟩
      · rw [if_neg hnext]
        rw [Bool.not_eq_true] at hnext
        exact ih hframe hnext rfl

/-- A chunk keeps a consumer and the collector together. -/
theorem Tracked.push {R : σ → List (List α) → Prop} (h : Tracked handle terminal R)
    (boundary : List α → Option Nat) {s : Framed α σ} {t : Framed α (List (List α))} (hs : Tracks terminal R s t) (chunk : List α) :
    Tracks terminal R (push boundary handle terminal s chunk)
      (push boundary (fun frames frame => frames ++ [frame]) (fun _ => false) t chunk) := by
  rw [Framing.push, Framing.push, if_neg Bool.false_ne_true]
  by_cases hterminal : terminal s.core = true
  · rw [if_pos hterminal]
    exact ⟨h.of_terminal hterminal hs.1
      (collected_drain boundary _ { t with pending := t.pending ++ chunk }), .inl hterminal⟩
  · rw [if_neg hterminal]
    have hpending : s.pending = t.pending := hs.2.resolve_left hterminal
    rw [Bool.not_eq_true] at hterminal
    rw [hpending]
    exact @Tracked.drain α σ boundary handle terminal R h { s with pending := t.pending ++ chunk }
      { t with pending := t.pending ++ chunk } hs.1 hterminal rfl _

/-- Whatever the chunks are, the consumer handles the frames they are taken apart into. -/
theorem pushAll_core (s₀ : σ) (chunks : List (List α)) :
    (pushAll boundary handle terminal { core := s₀ } chunks).core =
      handleAll handle terminal s₀ (framesOf boundary chunks) := by
  have hhandled : Tracked handle terminal
      (fun s frames => s = handleAll handle terminal s₀ frames) := by
    constructor
    · rintro s frames frame rfl hterminal
      rw [handleAll_append, handleAll, if_neg (by rw [hterminal]; exact Bool.false_ne_true)]
      rfl
    · rintro s frames frame rfl hterminal
      rw [handleAll_append, handleAll_of_terminal hterminal]
  have hpushed : ∀ (chunks : List (List α)) (s : Framed α σ) (t : Framed α (List (List α))),
      Tracks terminal (fun s frames => s = handleAll handle terminal s₀ frames) s t →
      Tracks terminal (fun s frames => s = handleAll handle terminal s₀ frames)
        (pushAll boundary handle terminal s chunks)
        (pushAll boundary (fun frames frame => frames ++ [frame]) (fun _ => false) t chunks) := by
    intro chunks
    induction chunks with
    | nil => exact fun s t h => h
    | cons chunk chunks ih => exact fun s t h => ih _ _ (hhandled.push boundary h chunk)
  exact (hpushed chunks { core := s₀ } { core := [] } ⟨rfl, .inr rfl⟩).1

theorem framesOf_append (boundary : List α → Option Nat) (chunks more : List (List α)) :
    framesOf boundary chunks <+: framesOf boundary (chunks ++ more) := by
  induction more using List.reverseRecOn with
  | nil => rw [List.append_nil]
  | append_singleton more chunk ih =>
    refine ih.trans ?_
    rw [← List.append_assoc, framesOf, framesOf, pushAll, pushAll, List.foldl_concat]
    generalize List.foldl _ _ (chunks ++ more) = t
    rw [push, if_neg Bool.false_ne_true]
    exact collected_drain boundary _ { t with pending := t.pending ++ chunk }

theorem collected_flatten (boundary : List α → Option Nat) (fuel : Nat)
    (t : Framed α (List (List α))) :
    (drain boundary (fun frames frame => frames ++ [frame]) (fun _ => false) fuel t).core.flatten ++
        (drain boundary (fun frames frame => frames ++ [frame]) (fun _ => false) fuel t).pending =
      t.core.flatten ++ t.pending := by
  induction fuel generalizing t with
  | zero => rfl
  | succ fuel ih =>
    rw [drain]
    split
    case h_1 => rfl
    case h_2 n _ =>
      dsimp only
      rw [if_neg Bool.false_ne_true, ih]
      simp

/-- The frames and the rest are all that came. -/
theorem framesOf_flatten (boundary : List α → Option Nat) (chunks : List (List α)) :
    (framesOf boundary chunks).flatten ++ restOf boundary chunks = chunks.flatten := by
  induction chunks using List.reverseRecOn with
  | nil => rfl
  | append_singleton chunks chunk ih =>
    rw [List.flatten_append, List.flatten_singleton, ← ih, framesOf, framesOf, restOf, restOf, pushAll,
      List.foldl_concat, pushAll]
    generalize List.foldl _ _ chunks = t
    rw [push, if_neg Bool.false_ne_true, collected_flatten, List.append_assoc]

theorem collected_mem (boundary : List α → Option Nat) (fuel : Nat)
    (t : Framed α (List (List α))) {frame : List α}
    (h : frame ∈
      (drain boundary (fun frames frame => frames ++ [frame]) (fun _ => false) fuel t).core) :
    frame ∈ t.core ∨ ∃ buffer n, boundary buffer = some n ∧ frame = buffer.take n := by
  induction fuel generalizing t with
  | zero => exact .inl h
  | succ fuel ih =>
    rw [drain] at h
    split at h
    case h_1 => exact .inl h
    case h_2 n hn =>
      dsimp only at h
      rw [if_neg Bool.false_ne_true] at h
      rcases ih _ h with hmem | hfound
      · rcases List.mem_append.mp hmem with hold | hnew
        · exact .inl hold
        · exact .inr ⟨t.pending, n, hn, List.mem_singleton.mp hnew⟩
      · exact .inr hfound

/-- Every frame was cut off at a boundary. -/
theorem mem_framesOf {boundary : List α → Option Nat} {chunks : List (List α)} {frame : List α}
    (h : frame ∈ framesOf boundary chunks) :
    ∃ buffer n, boundary buffer = some n ∧ frame = buffer.take n := by
  induction chunks using List.reverseRecOn with
  | nil => exact nomatch h
  | append_singleton chunks chunk ih =>
    rw [framesOf, pushAll, List.foldl_concat, push, if_neg Bool.false_ne_true] at h
    rcases collected_mem boundary _ _ h with hold | hfound
    · exact ih hold
    · exact hfound

end

end Zenith.Framing

import Proximity.Proofs.Staging

/-!
# Streams of vectors

Whatever a host does with a transfer — announcing, adding, flushing, in any order, with
vectors of any width — what comes out is the vectors that went with the first one since the
last announcement.  Memory limit, announced number and flushes decide when vectors are
moved and nothing else, and they bound how many wait.

The design fact is that the width and the number of vectors to a flush are fixed by the
first vector and cannot change before the next announcement.  So a transfer is at any time
a cut of the accepted vectors into those that were moved and those that wait, with room for
at least one more, and unless a flush was asked for the first part is made of full flushes.

## Main definitions

* `Transfer.Call`, `Transfer.run` — calls of a host.
* `Transfer.Session` — what a host can tell of its calls without looking at the transfer.
* `Transfer.Follows` — a transfer that agrees with a session.

## Main results

* `Transfer.Follows.note` — the step.
* `Transfer.run_follows` — the run.
* `Transfer.run_lossless` — what a host can rely on.
-/

namespace Proximity

namespace Transfer

variable {E : Type}

/-! ## Calls and sessions -/

/-- A call of a host on a transfer. -/
inductive Call (E : Type) where
  | announce (total : Nat)
  | add (vector : Array E)
  | flush

/-- Makes a call. -/
def perform (t : Transfer E) : Call E → Transfer E
  | .announce total => t.announce total
  | .add vector => (t.add vector).1
  | .flush => t.flush

/-- Makes calls one after the other. -/
def run (t : Transfer E) (calls : List (Call E)) : Transfer E := calls.foldl perform t

/-- A vector goes with the vectors before it: it has the width of the first one, and the
first one has some width. -/
def Fits : List (Array E) → Array E → Prop
  | [], vector => vector.size ≠ 0
  | first :: _, vector => vector.size = first.size

instance : ∀ (rows : List (Array E)) (vector : Array E), Decidable (Fits rows vector)
  | [], vector => inferInstanceAs (Decidable (vector.size ≠ 0))
  | first :: _, vector => inferInstanceAs (Decidable (vector.size = first.size))

/-- What a host can tell of its calls since the last announcement. -/
structure Session (E : Type) where
  /-- The number announced, zero if none was. -/
  announced : Nat
  /-- The vectors that went with those before them. -/
  rows : List (Array E)
  /-- A flush was asked for. -/
  flushed : Bool

/-- The session after one more call. -/
def Session.note (s : Session E) : Call E → Session E
  | .announce total => ⟨total, [], false⟩
  | .add vector => if Fits s.rows vector then { s with rows := s.rows ++ [vector] } else s
  | .flush => { s with flushed := true }

/-- The session of some calls. -/
def session (calls : List (Call E)) : Session E := calls.foldl Session.note ⟨0, [], false⟩

/-- Vectors to a flush, for vectors of a width: all that were announced if there is no
limit, else as many as the limit takes, but at least one and at most all. -/
def flushSizeFor (kind : Kind) (limit announced width : Nat) : Nat :=
  if limit = 0 then max announced 1
  else min (max (limit / (width * kind.bytesPerElement)) 1) (max announced 1)

theorem flushSize_eq (t : Transfer E) (width : Nat) :
    t.flushSize width = flushSizeFor t.kind t.memoryLimit t.announced width := rfl

theorem flushSizeFor_pos (kind : Kind) (limit announced width : Nat) :
    0 < flushSizeFor kind limit announced width := by
  rw [flushSizeFor]
  split <;> omega

/-- Fewer vectors than to a flush stay below the limit. -/
theorem bytes_lt_limit {kind : Kind} {limit announced width count : Nat} (hlimit : limit ≠ 0)
    (hcount : count < flushSizeFor kind limit announced width) :
    count * width * kind.bytesPerElement < limit := by
  rw [flushSizeFor, if_neg hlimit] at hcount
  by_cases hone : limit / (width * kind.bytesPerElement) ≤ 1
  · obtain rfl : count = 0 := by omega
    rw [Nat.zero_mul, Nat.zero_mul]
    exact Nat.pos_of_ne_zero hlimit
  · have hlt : count < limit / (width * kind.bytesPerElement) := by omega
    have hpos : 0 < width * kind.bytesPerElement := by
      refine Nat.pos_of_ne_zero fun hzero => ?_
      rw [hzero, Nat.div_zero] at hlt
      omega
    rw [Nat.mul_assoc]
    calc count * (width * kind.bytesPerElement)
        < limit / (width * kind.bytesPerElement) * (width * kind.bytesPerElement) :=
          Nat.mul_lt_mul_of_pos_right hlt hpos
      _ ≤ limit := Nat.div_mul_le_self _ _

/-! ## What an addition does -/

variable {t : Transfer E} {rows : List (Array E)} {vector : Array E}

/-- A vector that goes with accepted ones has a width, which is the width of all of them. -/
theorem Holds.of_fits (h : t.Holds rows) (hfits : Fits rows vector) :
    vector.size ≠ 0 ∧ ∀ row ∈ rows, row.size = vector.size := by
  cases rows with
  | nil => exact ⟨hfits, fun row hrow => absurd hrow List.not_mem_nil⟩
  | cons first rest =>
      have hsize : vector.size = first.size := hfits
      obtain ⟨hpos, hwidth⟩ := h.uniform first List.mem_cons_self
      refine ⟨hsize ▸ hpos, fun row hrow => ?_⟩
      have hrowWidth := (h.uniform row hrow).2
      rw [hwidth] at hrowWidth
      rw [hsize]
      exact (Option.some.inj hrowWidth).symm

theorem Holds.add_of_fits (h : t.Holds rows) (hfits : Fits rows vector) :
    t.add vector = (t.stage vector.size vector, .ok ()) := by
  obtain ⟨hpos, hsame⟩ := h.of_fits hfits
  rw [Transfer.add, h.widthFor_eq hpos hsame]

theorem Holds.add_of_not_fits (h : t.Holds rows) (hfits : ¬ Fits rows vector) :
    ∃ e, t.add vector = (t, .error e) := by
  have hwidth : ∃ e, t.widthFor vector.size = .error e := by
    rw [widthFor, h.width]
    cases rows with
    | nil =>
        have hsize : vector.size = 0 := Decidable.not_not.1 hfits
        exact ⟨_, if_pos hsize⟩
    | cons first rest =>
        have hsize : first.size ≠ vector.size := fun heq => hfits heq.symm
        exact ⟨_, if_neg hsize⟩
  obtain ⟨e, he⟩ := hwidth
  exact ⟨e, by rw [Transfer.add, he]⟩

/-! ## Transfers and sessions -/

/-- A transfer holds some vectors that were moved and others that wait. -/
structure Cut (kind : Kind) (limit announced : Nat) (t : Transfer E)
    (moved waiting : List (Array E)) : Prop where
  kind_eq : t.kind = kind
  limit_eq : t.memoryLimit = limit
  announced_eq : t.announced = announced
  holds : t.Holds (moved ++ waiting)
  stored_eq : t.stored = backToBack moved
  pending_eq : t.pending = backToBack waiting
  pendingCount_eq : t.pendingCount = waiting.length
  perFlush_eq : t.perFlush = t.unitLength.map (flushSizeFor kind limit announced)

variable {kind : Kind} {limit announced : Nat} {moved waiting : List (Array E)}

theorem announce_cut (hkind : t.kind = kind) (hlimit : t.memoryLimit = limit) (total : Nat) :
    Cut kind limit total (t.announce total) [] [] :=
  ⟨hkind, hlimit, rfl, announce_holds t total, rfl, rfl, rfl, rfl⟩

/-- **A flush** moves what waits, and is counted if something does. -/
theorem Cut.flush (h : Cut kind limit announced t moved waiting) :
    Cut kind limit announced t.flush (moved ++ waiting) [] ∧
      t.flush.flushes = t.flushes + if waiting = [] then 0 else 1 := by
  obtain ⟨hholds, hstored, hunit, hkind⟩ := h.holds.flush
  by_cases hnone : waiting = []
  · subst hnone
    have hcount : t.pendingCount = 0 := h.pendingCount_eq
    have hself : t.flush = t := by rw [Transfer.flush, if_pos hcount]
    rw [hself, List.append_nil, if_pos rfl]
    exact ⟨h, rfl⟩
  · have hcount : t.pendingCount ≠ 0 := by
      rw [h.pendingCount_eq]
      exact fun hzero => hnone (List.length_eq_zero_iff.1 hzero)
    rw [if_neg hnone]
    rw [Transfer.flush, if_neg hcount] at hholds hstored ⊢
    refine ⟨⟨h.kind_eq, h.limit_eq, h.announced_eq, ?_, hstored, rfl, rfl, h.perFlush_eq⟩, rfl⟩
    rwa [List.append_nil]

/-- A transfer with one more vector waiting. -/
def wait (t : Transfer E) (perFlush : Nat) (vector : Array E) : Transfer E :=
  { t with
    unitLength := some vector.size
    perFlush := some perFlush
    pending := t.pending ++ vector
    pendingCount := t.pendingCount + 1 }

theorem stage_eq (t : Transfer E) (vector : Array E) :
    t.stage vector.size vector =
      let perFlush := t.perFlush.getD (t.flushSize vector.size)
      if perFlush ≤ (t.wait perFlush vector).pendingCount then (t.wait perFlush vector).flush
      else t.wait perFlush vector := rfl

/-- A vector waits after the others. -/
theorem Cut.wait (h : Cut kind limit announced t moved waiting)
    (hfits : Fits (moved ++ waiting) vector) :
    Cut kind limit announced (t.wait (flushSizeFor kind limit announced vector.size) vector)
      moved (waiting ++ [vector]) := by
  obtain ⟨hpos, hsame⟩ := h.holds.of_fits hfits
  refine ⟨h.kind_eq, h.limit_eq, h.announced_eq, ?_, h.stored_eq, ?_, ?_, rfl⟩
  · rw [← List.append_assoc]
    exact h.holds.wait hpos hsame _
  · rw [backToBack_append_singleton, ← h.pending_eq]
    rfl
  · rw [List.length_append, ← h.pendingCount_eq]
    rfl

/-- The size of a flush stays what it was, or is fixed by the first vector. -/
theorem Cut.perFlush (h : Cut kind limit announced t moved waiting)
    (hfits : Fits (moved ++ waiting) vector) :
    t.perFlush.getD (t.flushSize vector.size) =
      flushSizeFor kind limit announced vector.size := by
  obtain ⟨-, hsame⟩ := h.holds.of_fits hfits
  rw [h.perFlush_eq, flushSize_eq, h.kind_eq, h.limit_eq, h.announced_eq, h.holds.width]
  cases hrows : moved ++ waiting with
  | nil => rfl
  | cons first rest =>
      have hfirst := hsame first (by rw [hrows]; exact List.mem_cons_self)
      simp [hfirst]

/-- **A vector that is staged** waits after the others, unless as many wait then as make up
a flush, which moves them all. -/
theorem Cut.stage (h : Cut kind limit announced t moved waiting)
    (hfits : Fits (moved ++ waiting) vector) :
    (flushSizeFor kind limit announced vector.size ≤ waiting.length + 1 ∧
      Cut kind limit announced (t.stage vector.size vector) (moved ++ (waiting ++ [vector])) [] ∧
      (t.stage vector.size vector).flushes = t.flushes + 1) ∨
    (waiting.length + 1 < flushSizeFor kind limit announced vector.size ∧
      Cut kind limit announced (t.stage vector.size vector) moved (waiting ++ [vector]) ∧
      (t.stage vector.size vector).flushes = t.flushes) := by
  have hwait := h.wait hfits
  have hcount := hwait.pendingCount_eq
  rw [List.length_append, List.length_singleton] at hcount
  rw [stage_eq, h.perFlush hfits]
  dsimp only
  rw [hcount]
  by_cases hfull : flushSizeFor kind limit announced vector.size ≤ waiting.length + 1
  · obtain ⟨hmoved, hcounted⟩ := hwait.flush
    rw [if_neg (by simp)] at hcounted
    rw [if_pos hfull]
    exact .inl ⟨hfull, hmoved, hcounted⟩
  · rw [if_neg hfull]
    exact .inr ⟨Nat.lt_of_not_le hfull, hwait, rfl⟩

/-- A transfer agrees with a session. -/
structure Follows (kind : Kind) (limit : Nat) (t : Transfer E) (s : Session E)
    (moved waiting : List (Array E)) : Prop where
  cut : Cut kind limit s.announced t moved waiting
  rows_eq : s.rows = moved ++ waiting
  /-- There is room for one more vector, or else a flush would have come before. -/
  room : ∀ width, (∀ row ∈ s.rows, row.size = width) →
    waiting.length < flushSizeFor kind limit s.announced width
  /-- Unless a flush was asked for, vectors were moved in full flushes. -/
  full : ∀ width, (∀ row ∈ s.rows, row.size = width) → s.flushed = false →
    moved.length = t.flushes * flushSizeFor kind limit s.announced width

variable {s : Session E}

theorem announce_follows (hkind : t.kind = kind) (hlimit : t.memoryLimit = limit)
    (total : Nat) : Follows kind limit (t.announce total) ⟨total, [], false⟩ [] [] where
  cut := announce_cut hkind hlimit total
  rows_eq := rfl
  room _ _ := flushSizeFor_pos _ _ _ _
  full _ _ _ := (Nat.zero_mul _).symm

/-- A vector that goes with the others is taken. -/
theorem Follows.add (h : Follows kind limit t s moved waiting) (hfits : Fits s.rows vector) :
    ∃ moved' waiting', Follows kind limit (t.add vector).1
      { s with rows := s.rows ++ [vector] } moved' waiting' := by
  rw [h.rows_eq] at hfits
  have hlast : ∀ {width}, (∀ row ∈ s.rows ++ [vector], row.size = width) →
      vector.size = width ∧ ∀ row ∈ s.rows, row.size = width := fun hwidth =>
    ⟨hwidth vector (by simp), fun row hrow => hwidth row (List.mem_append_left _ hrow)⟩
  rw [h.cut.holds.add_of_fits hfits]
  -- The vector completes a flush, which empties the waiting part, or finds room in it.
  obtain ⟨hfull, hcut, hflushes⟩ | ⟨hroom, hcut, hflushes⟩ := h.cut.stage hfits
  · refine ⟨_, _, hcut, ?_, fun _ _ => flushSizeFor_pos _ _ _ _, fun width hwidth hunasked => ?_⟩
    · rw [h.rows_eq, List.append_assoc, List.append_nil]
    · obtain ⟨rfl, hbefore⟩ := hlast hwidth
      have hmoved := h.full _ hbefore hunasked
      have hwaiting := h.room _ hbefore
      dsimp only at hflushes ⊢
      rw [hflushes, Nat.succ_mul, ← hmoved, List.length_append, List.length_append,
        List.length_singleton]
      omega
  · refine ⟨_, _, hcut, ?_, fun width hwidth => ?_, fun width hwidth hunasked => ?_⟩
    · rw [h.rows_eq, List.append_assoc]
    · obtain ⟨rfl, -⟩ := hlast hwidth
      rwa [List.length_append, List.length_singleton]
    · obtain ⟨rfl, hbefore⟩ := hlast hwidth
      dsimp only at hflushes ⊢
      rw [hflushes]
      exact h.full _ hbefore hunasked

/-- **A call** keeps a transfer in agreement with the session. -/
theorem Follows.note (h : Follows kind limit t s moved waiting) (call : Call E) :
    ∃ moved' waiting', Follows kind limit (t.perform call) (s.note call) moved' waiting' := by
  cases call with
  | announce total => exact ⟨[], [], announce_follows h.cut.kind_eq h.cut.limit_eq total⟩
  | add vector =>
      rw [perform, Session.note]
      by_cases hfits : Fits s.rows vector
      · rw [if_pos hfits]
        exact h.add hfits
      · have hholds := h.cut.holds
        rw [← h.rows_eq] at hholds
        obtain ⟨e, he⟩ := hholds.add_of_not_fits hfits
        rw [if_neg hfits, he]
        exact ⟨moved, waiting, h⟩
  | flush =>
      refine ⟨moved ++ waiting, [], h.cut.flush.1, ?_, fun _ _ => flushSizeFor_pos _ _ _ _, ?_⟩
      · rw [List.append_nil]
        exact h.rows_eq
      · intro _ _ hunasked
        cases hunasked

/-- **A run of calls** leaves a transfer in agreement with the session. -/
theorem run_follows (kind : Kind) (limit : Nat) (calls : List (Call E)) :
    ∃ moved waiting, Follows kind limit ((start kind limit).run calls) (session calls)
      moved waiting := by
  -- From any transfer that agrees with a session, by induction on the calls.
  have hrun : ∀ {t : Transfer E} {s : Session E} {moved waiting : List (Array E)}
      (calls : List (Call E)), Follows kind limit t s moved waiting →
      ∃ moved' waiting', Follows kind limit (t.run calls) (calls.foldl Session.note s)
        moved' waiting' := by
    intro t s moved waiting calls h
    induction calls generalizing t s moved waiting with
    | nil => exact ⟨moved, waiting, h⟩
    | cons call calls ih =>
        obtain ⟨moved', waiting', hnext⟩ := h.note call
        exact ih hnext
  exact hrun calls (announce_follows rfl rfl 0 (t := start kind limit))

/-! ## What a host can rely on -/

theorem size_backToBack {width : Nat} {rows : List (Array E)}
    (h : ∀ row ∈ rows, row.size = width) : (backToBack rows).size = rows.length * width := by
  rw [backToBack, size_foldl_rows h, Array.size_empty, Nat.zero_add]

/-- One transfer was made of another, and moved vectors if and only if it counts a flush. -/
def CountsMove (t t' : Transfer E) : Prop :=
  t'.flushes = t.flushes + if t'.stored.size = t.stored.size then 0 else 1

/-- The vectors of a transfer are of one width, if it holds some. -/
theorem Cut.uniform (h : Cut kind limit announced t moved waiting) :
    ∃ width, ∀ row ∈ moved ++ waiting, row.size = width := by
  cases hunit : t.unitLength with
  | none =>
      refine ⟨0, fun row hrow => ?_⟩
      have hrow := (h.holds.uniform row hrow).2
      rw [hunit] at hrow
      cases hrow
  | some width =>
      refine ⟨width, fun row hrow => ?_⟩
      have hrow := (h.holds.uniform row hrow).2
      rw [hunit] at hrow
      exact (Option.some.inj hrow).symm

/-- Vectors that are moved make the store grow. -/
theorem Cut.stored_grows (h : Cut kind limit announced t moved waiting)
    {t' : Transfer E} {more rest : List (Array E)} (hmore : more ≠ [])
    (h' : Cut kind limit announced t' (moved ++ more) rest) :
    t'.stored.size ≠ t.stored.size := by
  obtain ⟨width, hwidth⟩ := h'.uniform
  obtain ⟨row, hrow⟩ := List.exists_mem_of_ne_nil more hmore
  have hrow' : row ∈ moved ++ more ++ rest := by simp [hrow]
  have hpos : 0 < width := by
    rw [← hwidth row hrow']
    exact Nat.pos_of_ne_zero (h'.holds.uniform row hrow').1
  have hlen : 0 < more.length := List.length_pos_of_mem hrow
  have hlonger : moved.length < moved.length + more.length := by omega
  have hgrows := Nat.mul_lt_mul_of_pos_right hlonger hpos
  have hbefore : ∀ row ∈ moved ++ more, row.size = width := fun row hrow =>
    hwidth row (List.mem_append_left rest hrow)
  rw [h'.stored_eq, h.stored_eq, size_backToBack hbefore,
    size_backToBack fun row hrow => hbefore row (List.mem_append_left more hrow),
    List.length_append]
  exact Nat.ne_of_gt hgrows

/-- A flush counts if and only if something was waiting. -/
theorem Cut.flush_countsMove (h : Cut kind limit announced t moved waiting) :
    CountsMove t t.flush := by
  obtain ⟨hmoved, hflushes⟩ := h.flush
  rw [CountsMove, hflushes]
  by_cases hnone : waiting = []
  · subst hnone
    have hsame : t.flush.stored = t.stored := by
      rw [hmoved.stored_eq, h.stored_eq, List.append_nil]
    rw [if_pos rfl, if_pos (congrArg Array.size hsame)]
  · rw [if_neg hnone, if_neg (h.stored_grows hnone hmoved)]

/-- An addition counts a flush if and only if it filled one up. -/
theorem Cut.add_countsMove (h : Cut kind limit announced t moved waiting) (vector : Array E) :
    CountsMove t (t.add vector).1 := by
  rw [CountsMove]
  by_cases hfits : Fits (moved ++ waiting) vector
  · rw [h.holds.add_of_fits hfits]
    dsimp only
    obtain ⟨-, hcut, hflushes⟩ | ⟨-, hcut, hflushes⟩ := h.stage hfits
    · have hmore : waiting ++ [vector] ≠ [] := by simp
      rw [hflushes, if_neg (h.stored_grows hmore hcut)]
    · have hsame : (t.stage vector.size vector).stored = t.stored := by
        rw [hcut.stored_eq, h.stored_eq]
      rw [hflushes, if_pos (congrArg Array.size hsame), Nat.add_zero]
  · obtain ⟨e, he⟩ := h.holds.add_of_not_fits hfits
    rw [he, if_pos rfl, Nat.add_zero]

/-- What a transfer is turned into: the vectors of the session. -/
theorem Follows.toBuffer (h : Follows kind limit t s moved waiting) :
    t.dimension? = s.rows.head?.map (·.size * kind.dimensionsPerElement) ∧
      t.toBuffer = (⟨.transferred, backToBack s.rows⟩,
        s.rows.head?.map (·.size * kind.dimensionsPerElement)) := by
  have hdimension : t.unitLength.map (· * kind.dimensionsPerElement) =
      s.rows.head?.map (·.size * kind.dimensionsPerElement) := by
    rw [h.cut.holds.width, h.rows_eq, Option.map_map]
    rfl
  obtain ⟨-, hstored, hunit, hkind⟩ := h.cut.holds.flush
  constructor
  · rw [dimension?, h.cut.kind_eq, hdimension]
  · rw [Transfer.toBuffer, hstored, dimension?, hunit, hkind, h.cut.kind_eq, hdimension,
      h.rows_eq]

theorem Follows.count (h : Follows kind limit t s moved waiting) : t.count = s.rows.length := by
  rw [Transfer.count, h.rows_eq]
  cases hunit : t.unitLength with
  | none =>
      have hwidth := h.cut.holds.width
      rw [hunit, eq_comm, Option.map_eq_none_iff, List.head?_eq_none_iff] at hwidth
      rw [hwidth]
      rfl
  | some width =>
      have huniform : ∀ row ∈ moved ++ waiting, row.size ≠ 0 ∧ row.size = width := by
        intro row hrow
        obtain ⟨hpos, hwidth⟩ := h.cut.holds.uniform row hrow
        exact ⟨hpos, (Option.some.inj (hunit.symm.trans hwidth)).symm⟩
      have hpos : 0 < width := by
        have hwidth := h.cut.holds.width
        rw [hunit] at hwidth
        obtain ⟨first, hfirst, rfl⟩ := Option.map_eq_some_iff.1 hwidth.symm
        exact Nat.pos_of_ne_zero (huniform first (List.mem_of_mem_head? hfirst)).1
      have hmoved : ∀ row ∈ moved, row.size = width := fun row hrow =>
        (huniform row (List.mem_append_left waiting hrow)).2
      dsimp only
      rw [h.cut.stored_eq, h.cut.pendingCount_eq, size_backToBack hmoved,
        Nat.mul_div_cancel _ hpos, List.length_append]

/-- A vector is refused if and only if it does not go with the others, and then nothing
changes. -/
theorem Follows.refuses (h : Follows kind limit t s moved waiting) (vector : Array E) :
    ((∃ e, (t.add vector).2 = .error e) ↔ ¬ Fits s.rows vector) ∧
      ∀ e, (t.add vector).2 = .error e → (t.add vector).1 = t := by
  have hholds := h.cut.holds
  rw [← h.rows_eq] at hholds
  by_cases hfits : Fits s.rows vector
  · rw [hholds.add_of_fits hfits]
    exact ⟨⟨nofun, fun hnot => absurd hfits hnot⟩, nofun⟩
  · obtain ⟨e, he⟩ := hholds.add_of_not_fits hfits
    rw [he]
    exact ⟨⟨fun _ => hfits, fun _ => ⟨e, rfl⟩⟩, fun _ _ => rfl⟩

theorem not_fits_iff (rows : List (Array E)) (vector : Array E) :
    ¬ Fits rows vector ↔ (rows = [] ∧ vector.size = 0) ∨
      ∃ first, rows.head? = some first ∧ vector.size ≠ first.size := by
  cases rows with
  | nil => simp [Fits]
  | cons first rest => simp [Fits]

/-- **Waiting vectors** are fewer than make up a flush, and stay below the limit. -/
theorem Follows.pending (h : Follows kind limit t s moved waiting) :
    (∀ width, (∀ row ∈ s.rows, row.size = width) →
      t.pendingCount < flushSizeFor kind limit s.announced width) ∧
      (limit ≠ 0 → t.pending.size * kind.bytesPerElement < limit) := by
  refine ⟨fun width hwidth => h.cut.pendingCount_eq ▸ h.room width hwidth, fun hlimit => ?_⟩
  obtain ⟨width, hwidth⟩ := h.cut.uniform
  have hwaiting : ∀ row ∈ waiting, row.size = width := fun row hrow =>
    hwidth row (List.mem_append_right moved hrow)
  rw [h.cut.pending_eq, size_backToBack hwaiting]
  exact bytes_lt_limit hlimit (h.room width (h.rows_eq ▸ hwidth))

/-- Unless a flush was asked for, flushes are the full ones. -/
theorem Follows.flushes (h : Follows kind limit t s moved waiting) {width : Nat}
    (hwidth : ∀ row ∈ s.rows, row.size = width) (hunasked : s.flushed = false) :
    t.flushes = s.rows.length / flushSizeFor kind limit s.announced width := by
  rw [h.rows_eq, List.length_append, h.full width hwidth hunasked, Nat.mul_comm,
    Nat.mul_add_div (flushSizeFor_pos _ _ _ _), Nat.div_eq_of_lt (h.room width hwidth),
    Nat.add_zero]

/-- **Transfers lose nothing and keep to their limit.**  After any calls a transfer holds
the vectors `s.rows` that went with the first one since the last announcement: it is turned
into these, counts these and has the dimension of the first of them.  It refuses a vector
that has no element and would be the first, or that has not the width of the first, which
changes nothing; it takes every other one.

Fewer vectors wait than make up a flush, so with a limit less than that many bytes.  Flushes
are counted when they move something; unless one was asked for, there is one for every full
flush of vectors.  An announcement makes the transfer that it makes of a fresh one. -/
theorem run_lossless (kind : Kind) (limit : Nat) (calls : List (Call E)) :
    let t := (start kind limit).run calls
    let s := session calls
    let dimension := s.rows.head?.map (·.size * kind.dimensionsPerElement)
    (t.toBuffer = (⟨.transferred, backToBack s.rows⟩, dimension) ∧
      t.dimension? = dimension ∧ t.count = s.rows.length) ∧
    (∀ vector, ((∃ e, (t.add vector).2 = .error e) ↔
        (s.rows = [] ∧ vector.size = 0) ∨
          ∃ first, s.rows.head? = some first ∧ vector.size ≠ first.size) ∧
      ∀ e, (t.add vector).2 = .error e → (t.add vector).1 = t) ∧
    (∀ width, (∀ row ∈ s.rows, row.size = width) →
      t.pendingCount < flushSizeFor kind limit s.announced width ∧
      (s.flushed = false →
        t.flushes = s.rows.length / flushSizeFor kind limit s.announced width)) ∧
    (limit ≠ 0 → t.pending.size * kind.bytesPerElement < limit) ∧
    (CountsMove t t.flush ∧ ∀ vector, CountsMove t (t.add vector).1) ∧
    ∀ total, t.announce total = (start kind limit).announce total := by
  intro t s dimension
  obtain ⟨moved, waiting, h⟩ := run_follows kind limit calls
  obtain ⟨hdimension, hbuffer⟩ := h.toBuffer
  obtain ⟨hroom, hbytes⟩ := h.pending
  refine ⟨⟨hbuffer, hdimension, h.count⟩, fun vector => ?_, fun width hwidth => ?_, hbytes,
    ⟨h.cut.flush_countsMove, h.cut.add_countsMove⟩, fun total => ?_⟩
  · rw [← not_fits_iff]
    exact h.refuses vector
  · exact ⟨hroom width hwidth, h.flushes hwidth⟩
  · rw [announce, h.cut.kind_eq, h.cut.limit_eq]
    rfl

/-- Three vectors of two bytes among refused ones, five bytes to wait. -/
theorem run_lossless_threeVectors :
    let calls : List (Call UInt8) :=
      [.add #[9], .announce 3, .add #[], .add #[1, 2], .add #[3], .add #[3, 4], .add #[5, 6]]
    let t := (start .binary 5).run calls
    t.toBuffer = (⟨.transferred, #[1, 2, 3, 4, 5, 6]⟩, some 16) ∧ t.count = 3 ∧
      (∃ e, (t.add #[7]).2 = .error e) ∧ t.pendingCount < 2 ∧ t.flushes = 1 ∧
      t.pending.size * Kind.binary.bytesPerElement < 5 ∧ CountsMove t t.flush ∧
      t.announce 4 = (start .binary 5).announce 4 := by
  intro calls t
  have hrows : (session calls).rows = [#[1, 2], #[3, 4], #[5, 6]] := by decide
  obtain ⟨⟨hbuffer, -, hcount⟩, hrefuses, hroom, hbytes, ⟨hflush, -⟩, hannounce⟩ :=
    run_lossless .binary 5 calls
  have hwidth : ∀ row ∈ (session calls).rows, row.size = 2 := by
    rw [hrows]
    decide
  obtain ⟨hpending, hflushes⟩ := hroom 2 hwidth
  rw [hrows] at hbuffer hcount hflushes hrefuses
  have hseven := (hrefuses #[7]).1.2 (.inr ⟨#[1, 2], rfl, by decide⟩)
  have hone := (hflushes rfl).trans (by decide : _ = 1)
  exact ⟨hbuffer, hcount, hseven, hpending, hone, hbytes (by decide), hflush, hannounce 4⟩

end Transfer

end Proximity

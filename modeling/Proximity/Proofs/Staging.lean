import Proximity.Host.VectorFile
import Proximity.Proofs.Checks
import Proximity.Proofs.Vectors

/-!
# Staging rows

What a transfer holds is a list of rows: the elements it has moved to its store,
followed by the ones that wait, are those of the rows back to back.  Moving them
changes nothing about that, so neither the memory limit nor the announced number
of vectors matters for what comes out in the end.  A transfer takes rows of one
width only, and none that is empty.

## Main results

* `backToBack`, `vectorsOf_backToBack` — rows of one width, cut again.
* `Transfer.Holds`, `Transfer.Holds.add` — the rows that a transfer holds.
* `VectorFile.Uniform` — files whose rows have one width.
* `VectorFile.of_stage`, `VectorFile.Uniform.stage` — what staging a file gives,
  and when it can be staged.
-/

namespace Proximity

variable {E : Type}

/-! ## Rows back to back -/

/-- The elements of some rows, back to back. -/
def backToBack (rows : List (Array E)) : Array E := rows.foldl (· ++ ·) #[]

theorem backToBack_append_singleton (rows : List (Array E)) (row : Array E) :
    backToBack (rows ++ [row]) = backToBack rows ++ row := by
  simp [backToBack, List.foldl_append]

/-- The dimension of vectors of some width goes with that width. -/
theorem Kind.unitLength_of_width (kind : Kind) {width : Nat} (h : width ≠ 0) :
    kind.unitLength (width * kind.dimensionsPerElement) = .ok width := by
  cases kind with
  | float => simp [unitLength, dimensionsPerElement, h]
  | binary =>
      have hbits : width * 8 ≠ 0 := Nat.mul_ne_zero h (by decide)
      simp [unitLength, dimensionsPerElement, hbits]

/-- Rows of one width are the cut of their elements. -/
theorem vectorsOf_backToBack {unitLength : Nat} (hpos : 0 < unitLength) {rows : List (Array E)}
    (hrows : ∀ row ∈ rows, row.size = unitLength) :
    vectorsOf unitLength (backToBack rows) = rows := by
  -- Behind whole vectors the cut goes on where the rows do.
  have hfold : ∀ (rows : List (Array E)) (done : Array E), (∀ row ∈ rows, row.size = unitLength) →
      done.size % unitLength = 0 →
      vectorsOf unitLength (rows.foldl (· ++ ·) done) = vectorsOf unitLength done ++ rows := by
    intro rows
    induction rows with
    | nil => simp
    | cons row rows ih =>
        intro done hrows hdone
        obtain ⟨hrow, hrest⟩ := List.forall_mem_cons.1 hrows
        have hself : vectorsOf unitLength row = [row] := by
          subst hrow
          exact vectorsOf_self hpos
        rw [List.foldl_cons, ih _ hrest (append_size_mod hdone (by rw [hrow, Nat.mod_self])),
          vectorsOf_append hpos hdone, hself, List.append_assoc]
        rfl
  have hcut := hfold rows #[] hrows (Nat.zero_mod _)
  rwa [vectorsOf_empty, List.nil_append] at hcut

/-! ## Transfers -/

namespace Transfer

/-- The rows that a transfer holds: all of one width, stored or waiting. -/
structure Holds (t : Transfer E) (rows : List (Array E)) : Prop where
  elements : t.stored ++ t.pending = backToBack rows
  settled : t.pendingCount = 0 → t.pending = #[]
  width : t.unitLength = rows.head?.map Array.size
  uniform : ∀ row ∈ rows, row.size ≠ 0 ∧ t.unitLength = some row.size

variable {t t' : Transfer E} {rows : List (Array E)} {row : Array E}

/-- A fresh start holds nothing, whatever was announced. -/
theorem announce_holds (t : Transfer E) (total : Nat) : (t.announce total).Holds [] :=
  ⟨rfl, fun _ => rfl, rfl, fun _ h => absurd h List.not_mem_nil⟩

/-- A flush moves everything that waits, and that is all. -/
theorem Holds.flush (h : t.Holds rows) :
    t.flush.Holds rows ∧ t.flush.stored = backToBack rows ∧ t.flush.unitLength = t.unitLength ∧
      t.flush.kind = t.kind := by
  rw [Transfer.flush]
  split
  · rename_i hnone
    have helements := h.elements
    rw [h.settled hnone, Array.append_empty] at helements
    exact ⟨h, helements, rfl, rfl⟩
  · exact ⟨⟨by simpa using h.elements, fun _ => rfl, h.width, h.uniform⟩, h.elements, rfl, rfl⟩

/-- What is taken has the width of the other rows, and some width. -/
private theorem of_widthFor {unitLength : Nat} (h : t.Holds rows)
    (hwidth : t.widthFor row.size = .ok unitLength) :
    unitLength = row.size ∧ row.size ≠ 0 ∧ ∀ other ∈ rows, other.size = row.size := by
  rw [widthFor] at hwidth
  cases hunit : t.unitLength with
  | none =>
      rw [hunit] at hwidth
      dsimp only at hwidth
      split at hwidth
      · cases hwidth
      · refine ⟨(Except.ok.inj hwidth).symm, ‹_›, fun other hother => ?_⟩
        have hother := (h.uniform other hother).2
        rw [hunit] at hother
        cases hother
  | some expected =>
      rw [hunit] at hwidth
      dsimp only at hwidth
      split at hwidth
      · rename_i heq
        subst heq
        obtain ⟨first, hfirst, hsize⟩ := Option.map_eq_some_iff.1 (h.width.symm.trans hunit)
        have hpos := (h.uniform first (List.mem_of_mem_head? hfirst)).1
        refine ⟨(Except.ok.inj hwidth).symm, hsize ▸ hpos, fun other hother => ?_⟩
        exact Option.some.inj ((h.uniform other hother).2.symm.trans hunit)
      · cases hwidth

/-- A row of the width of the others has the width that is expected. -/
theorem Holds.widthFor_eq (h : t.Holds rows) (hpos : row.size ≠ 0)
    (hsame : ∀ other ∈ rows, other.size = row.size) : t.widthFor row.size = .ok row.size := by
  rw [widthFor, h.width]
  cases rows with
  | nil => exact if_neg hpos
  | cons first rest =>
      have hfirst := hsame first List.mem_cons_self
      simp [hfirst]

/-- A row of the width of the others is taken. -/
theorem Holds.takes (h : t.Holds rows) (hpos : row.size ≠ 0)
    (hsame : ∀ other ∈ rows, other.size = row.size) : ∃ t', t.add row = (t', .ok ()) :=
  ⟨t.stage row.size row, by rw [Transfer.add, h.widthFor_eq hpos hsame]⟩

/-- A row waits after the others. -/
theorem Holds.wait (h : t.Holds rows) (hpos : row.size ≠ 0)
    (hsame : ∀ other ∈ rows, other.size = row.size) (perFlush : Option Nat) :
    Holds
      { t with
        unitLength := some row.size
        perFlush := perFlush
        pending := t.pending ++ row
        pendingCount := t.pendingCount + 1 } (rows ++ [row]) where
  elements := by rw [backToBack_append_singleton, ← h.elements, Array.append_assoc]
  settled hcount := absurd hcount (Nat.succ_ne_zero _)
  width := by
    cases rows with
    | nil => rfl
    | cons first rest => exact congrArg some (hsame first List.mem_cons_self).symm
  uniform other hother := by
    rcases List.mem_append.1 hother with hold | hnew
    · exact ⟨(h.uniform other hold).1, congrArg some (hsame other hold).symm⟩
    · obtain rfl := List.mem_singleton.1 hnew
      exact ⟨hpos, rfl⟩

/-- A row that was taken is held after the others. -/
theorem Holds.add (h : t.Holds rows) (hadd : t.add row = (t', .ok ())) :
    t'.Holds (rows ++ [row]) ∧ t'.kind = t.kind := by
  rw [Transfer.add] at hadd
  split at hadd
  · cases (Prod.mk.inj hadd).2
  · rename_i unitLength hwidth
    obtain ⟨rfl, hpos, hsame⟩ := of_widthFor h hwidth
    obtain rfl := (Prod.mk.inj hadd).1
    have hwait := h.wait hpos hsame (some (t.perFlush.getD (t.flushSize row.size)))
    rw [stage]
    dsimp only
    split
    · obtain ⟨hflush, -, -, hkind⟩ := hwait.flush
      exact ⟨hflush, hkind⟩
    · exact ⟨hwait, rfl⟩

end Transfer

/-! ## Files -/

namespace VectorFile

variable [HostElement E]

/-- The rows of a file have one width, and some width. -/
def Uniform (file : VectorFile E) : Prop :=
  ∀ row ∈ file.rows, row.size ≠ 0 ∧ file.rows.head?.map Array.size = some row.size

/-- The dimension of the first row, if there is one. -/
def dimension? (file : VectorFile E) : Option Nat :=
  file.rows.head?.map fun row => row.size * (HostElement.kind E).dimensionsPerElement

/-- Rows end to end, cut at the width of their dimension, are the rows. -/
theorem Uniform.vectorsOf_eq {file : VectorFile E} (h : file.Uniform) {dimension unitLength : Nat}
    (hdimension : file.dimension? = some dimension)
    (hwidth : (HostElement.kind E).unitLength dimension = .ok unitLength) :
    vectorsOf unitLength (backToBack file.rows) = file.rows := by
  obtain ⟨first, hfirst, rfl⟩ := Option.map_eq_some_iff.1 hdimension
  obtain ⟨hpos, -⟩ := h first (List.mem_of_mem_head? hfirst)
  rw [Kind.unitLength_of_width _ hpos] at hwidth
  obtain rfl := Except.ok.inj hwidth
  refine vectorsOf_backToBack (Nat.pos_of_ne_zero hpos) fun row hrow => ?_
  have hsize := (h row hrow).2
  rw [hfirst] at hsize
  exact (Option.some.inj hsize).symm

theorem Uniform.size_div_eq {file : VectorFile E} (h : file.Uniform) {dimension unitLength : Nat}
    (hdimension : file.dimension? = some dimension)
    (hwidth : (HostElement.kind E).unitLength dimension = .ok unitLength) :
    (backToBack file.rows).size / unitLength = file.rows.length := by
  rw [← length_vectorsOf, h.vectorsOf_eq hdimension hwidth]

omit [HostElement E] in
/-- Rows that were staged in turn are held in order. -/
theorem stageRows_holds {t t' : Transfer E} {before rows : List (Array E)} {place : Nat}
    (h : t.Holds before) (hrows : stageRows t place rows = .ok t') :
    t'.Holds (before ++ rows) ∧ t'.kind = t.kind := by
  induction rows generalizing t before place with
  | nil =>
      obtain rfl := Except.ok.inj hrows
      rw [List.append_nil]
      exact ⟨h, rfl⟩
  | cons row rows ih =>
      rw [stageRows] at hrows
      split at hrows
      · cases hrows
      · rename_i next hadd
        obtain ⟨hnext, hkind⟩ := h.add hadd
        obtain ⟨hall, hsame⟩ := ih hnext hrows
        rw [List.append_assoc] at hall
        exact ⟨hall, hsame.trans hkind⟩

omit [HostElement E] in
/-- Rows of the width of those that a transfer holds are all taken. -/
theorem stageRows_succeeds {t : Transfer E} {before rows : List (Array E)} {place : Nat}
    (h : t.Holds before)
    (hrows : ∀ row ∈ before ++ rows, row.size ≠ 0 ∧ ∀ other ∈ before ++ rows,
      other.size = row.size) : ∃ t', stageRows t place rows = .ok t' := by
  induction rows generalizing t before place with
  | nil => exact ⟨t, rfl⟩
  | cons row rows ih =>
      obtain ⟨hpos, hsame⟩ := hrows row (by simp)
      obtain ⟨next, hadd⟩ := h.takes hpos fun other hother => hsame other (by simp [hother])
      rw [stageRows, hadd]
      exact ih (h.add hadd).1 (by simpa using hrows)

/-- **What staging a file gives**: its ids, and its rows back to back, whatever
the memory limit is.  The rows are of one width, which gives the dimension. -/
theorem of_stage {file : VectorFile E} {memoryLimit : Nat} {staged : StagedVectors}
    (h : file.stage memoryLimit = .ok staged) :
    staged = ⟨file.ids.toArray, HostElement.vectors ⟨.transferred, backToBack file.rows⟩,
      file.dimension?⟩ ∧ file.Uniform := by
  obtain ⟨t, ht, h⟩ := Except.bind_eq_ok_iff.1 h
  obtain ⟨hholds, hkind⟩ := stageRows_holds (Transfer.announce_holds _ _) ht
  rw [List.nil_append] at hholds
  obtain ⟨-, hstored, hunit, hflushed⟩ := hholds.flush
  obtain rfl := Except.ok.inj h
  constructor
  · have hdimension : t.flush.dimension? = file.dimension? := by
      rw [Transfer.dimension?, hunit, hflushed, hkind, hholds.width, Option.map_map]
      rfl
    simp only [hstored, hdimension]
  · exact fun row hrow => ⟨(hholds.uniform row hrow).1, hholds.width ▸ (hholds.uniform row hrow).2⟩

/-- A file whose rows have one width can be staged, under any memory limit. -/
theorem Uniform.stage {file : VectorFile E} (h : file.Uniform) (memoryLimit : Nat) :
    file.stage memoryLimit = .ok ⟨file.ids.toArray,
      HostElement.vectors ⟨.transferred, backToBack file.rows⟩, file.dimension?⟩ := by
  let empty : Transfer E := .start (HostElement.kind E) memoryLimit
  have hstart := Transfer.announce_holds empty file.rows.length
  obtain ⟨t, ht⟩ : ∃ t, stageRows (empty.announce file.rows.length) 0 file.rows = .ok t :=
    stageRows_succeeds hstart fun row hrow => ⟨(h row hrow).1, fun other hother =>
      Option.some.inj ((h other hother).2.symm.trans (h row hrow).2)⟩
  obtain ⟨staged, hstaged⟩ : ∃ staged, file.stage memoryLimit = .ok staged := by
    rw [VectorFile.stage, ht]
    exact ⟨_, rfl⟩
  rw [hstaged, (of_stage hstaged).1]

end VectorFile

end Proximity

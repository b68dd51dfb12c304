import Proximity.Files.Store
import Proximity.Proofs.Checks

/-!
# What a write does to a file tree

A path is followed through directories only, so the places that paths lead to
stay the same as long as the directories do.  Of the steps of a write only the
first one makes directories; the others put, move and remove files.  Two
consequences matter to hosts: a write that succeeds leaves exactly its bytes
where its path leads, and whether it succeeds does not depend on what is
written.

## Main results

* `FileTree.SameDirectories` — trees in which all paths lead to the same places.
* `FileTree.bytes?_store` — what a write that succeeded leaves at its path.
* `FileTree.store_outcome`, `FileTree.store_outcome_eq` — what decides over a
  write.
-/

namespace Proximity.FileTree

variable {t t' : FileTree} {p q : Place} {path : String} {bytes : List UInt8}

/-! ## Entries -/

/-- Whether something is always a directory: the start, the directories around
it, and the root. -/
def IsFixed (p : Place) : Prop := p.isAbove = true ∨ p = Place.root

instance : Decidable (IsFixed p) := inferInstanceAs (Decidable (_ ∨ _))

theorem entry?_of_fixed (h : IsFixed p) : t.entry? p = some .directory := if_pos h

theorem entry?_of_not_fixed (h : ¬ IsFixed p) : t.entry? p = t.entries.lookup p := if_neg h

private theorem lookup_filter_ne (entries : List (Place × Entry)) (p q : Place) :
    (entries.filter fun e => e.1 != p).lookup q = if q = p then none else entries.lookup q := by
  induction entries with
  | nil => simp
  | cons e entries ih =>
      obtain ⟨place, entry⟩ := e
      by_cases hplace : place = p
      · rw [List.filter_cons_of_neg (by simp [hplace]), ih, List.lookup_cons]
        by_cases hq : q = p
        · simp [hq]
        · have hne : (q == place) = false := by simp [hplace, hq]
          simp [hq, hne]
      · rw [List.filter_cons_of_pos (by simp [hplace]), List.lookup_cons, List.lookup_cons, ih]
        by_cases hq : q = p
        · have hne : (q == place) = false := by simp [hq, Ne.symm hplace]
          rw [hne, if_pos hq]
        · simp only [if_neg hq]

/-- Nothing but a fixed directory is left at a place that was erased. -/
theorem entry?_erase (t : FileTree) (p q : Place) :
    entry? (t.erase p) q = if q = p ∧ ¬ IsFixed q then none else t.entry? q := by
  by_cases hfixed : IsFixed q
  · simp [entry?_of_fixed, hfixed]
  · rw [entry?_of_not_fixed hfixed, entry?_of_not_fixed hfixed, erase, lookup_filter_ne]
    simp [hfixed]

/-- A place that is not fixed holds what was put there last. -/
theorem entry?_set (t : FileTree) (p q : Place) (entry : Entry) :
    entry? (t.set p entry) q = if q = p ∧ ¬ IsFixed q then some entry else t.entry? q := by
  by_cases hfixed : IsFixed q
  · simp [entry?_of_fixed, hfixed]
  · have herase := entry?_erase t p q
    rw [entry?_of_not_fixed hfixed] at herase
    rw [entry?_of_not_fixed hfixed, set, List.lookup_cons, herase]
    by_cases hq : q = p
    · simp [hq, hq ▸ hfixed]
    · have hne : (q == p) = false := by simp [hq]
      simp [hq, hne]

/-! ## Directories -/

/-- Two trees have the same directories. -/
def SameDirectories (t t' : FileTree) : Prop := ∀ p, t'.isDirectory p = t.isDirectory p

theorem SameDirectories.trans {t'' : FileTree} (h : SameDirectories t t')
    (h' : SameDirectories t' t'') : SameDirectories t t'' := fun p => (h' p).trans (h p)

theorem not_fixed_of_not_directory (h : t.isDirectory p = false) : ¬ IsFixed p := by
  intro hfixed
  simp [isDirectory, entry?_of_fixed hfixed] at h

/-- A file put where no directory is leaves the directories as they are. -/
theorem sameDirectories_set (h : t.isDirectory p = false) (bytes : List UInt8) :
    SameDirectories t (t.set p (.file bytes)) := by
  intro q
  by_cases hq : q = p ∧ ¬ IsFixed q
  · obtain ⟨rfl, hfixed⟩ := hq
    rw [h]
    simp [isDirectory, entry?_set, hfixed]
  · rw [isDirectory, entry?_set, if_neg hq, ← isDirectory]

/-- What is erased where no directory is leaves the directories as they are. -/
theorem sameDirectories_erase (h : t.isDirectory p = false) : SameDirectories t (t.erase p) := by
  intro q
  by_cases hq : q = p ∧ ¬ IsFixed q
  · obtain ⟨rfl, hfixed⟩ := hq
    rw [h]
    simp [isDirectory, entry?_erase, hfixed]
  · rw [isDirectory, entry?_erase, if_neg hq, ← isDirectory]

/-- Steps lead to the same place through the same directories. -/
theorem SameDirectories.follow? (h : SameDirectories t t') (p : Place) (steps : List String) :
    t'.follow? p steps = t.follow? p steps := by
  induction steps generalizing p with
  | nil => rfl
  | cons step steps ih => simp only [FileTree.follow?, h p, ih]

theorem SameDirectories.place? (h : SameDirectories t t') (path : String) :
    t'.place? path = t.place? path := by
  simp only [FileTree.place?, h.follow?]

theorem SameDirectories.placeForFile? (h : SameDirectories t t') (path : String) :
    t'.placeForFile? path = t.placeForFile? path := by
  have hdirectory : t'.isDirectory = t.isDirectory := funext h
  simp only [FileTree.placeForFile?, h.place?, hdirectory]

/-! ## Files -/

/-- Where a file can be put, the path leads there, and no directory is there. -/
theorem placeForFile?_eq_some_iff :
    t.placeForFile? path = some p ↔
      (Route.ofPath path).asDirectory = false ∧ t.place? path = some p ∧
        t.isDirectory p = false := by
  by_cases hslash : (Route.ofPath path).asDirectory = true
  · simp [placeForFile?, hslash]
  · simp [placeForFile?, hslash, Option.filter_eq_some_iff]

/-- A path leads to the file that is where it leads. -/
theorem bytes?_eq_some_of_place (hplace : t.placeForFile? path = some p)
    (hentry : t.entry? p = some (.file bytes)) : t.bytes? path = some bytes := by
  obtain ⟨hslash, hplace, -⟩ := placeForFile?_eq_some_iff.1 hplace
  simp [bytes?, find?, hplace, hentry, hslash]

theorem find?_of_bytes? (h : t.bytes? path = some bytes) : t.find? path = some (.file bytes) := by
  rw [bytes?] at h
  split at h
  · rename_i found hfound
    rw [hfound, Option.some.inj h]
  · cases h

/-- Moving a file that was just put somewhere leaves the directories as they
are. -/
theorem sameDirectories_move (hp : t.isDirectory p = false) (hq : t.isDirectory q = false)
    (bytes : List UInt8) :
    SameDirectories t (((t.set p (.file bytes)).erase p).set q (.file bytes)) := by
  have hset := sameDirectories_set hp bytes
  have herase := hset.trans (sameDirectories_erase ((hset p).trans hp))
  exact herase.trans (sameDirectories_set ((herase q).trans hq) bytes)

/-- A file that was just put somewhere can be moved wherever a file can be
put. -/
theorem move?_set (h : t.isDirectory p = false) (path : String) (bytes : List UInt8) :
    (t.set p (.file bytes)).move? p path = (t.placeForFile? path).map fun target =>
      ((t.set p (.file bytes)).erase p).set target (.file bytes) := by
  have hentry : entry? (t.set p (.file bytes)) p = some (.file bytes) := by
    rw [entry?_set, if_pos ⟨rfl, not_fixed_of_not_directory h⟩]
  rw [move?, hentry, (sameDirectories_set h bytes).placeForFile?]
  cases t.placeForFile? path <;> rfl

/-- The file that was moved is where the path leads now. -/
theorem bytes?_move (hp : t.isDirectory p = false) (hq : t.placeForFile? path = some q)
    (bytes : List UInt8) :
    (((t.set p (.file bytes)).erase p).set q (.file bytes)).bytes? path = some bytes := by
  have hfree := (placeForFile?_eq_some_iff.1 hq).2.2
  have hplace := (sameDirectories_move hp hfree bytes).placeForFile? path
  refine bytes?_eq_some_of_place (hplace.trans hq) ?_
  rw [entry?_set, if_pos ⟨rfl, not_fixed_of_not_directory hfree⟩]

/-! ## Writes -/

/-- A temporary file that was renamed is where the path leads. -/
theorem bytes?_writeAndRename {sync : Bool} {refused : Option WriteStage}
    (h : t.writeAndRename path bytes sync refused = (t', .ok ())) :
    t'.bytes? path = some bytes := by
  rw [writeAndRename] at h
  split at h
  · cases (Prod.mk.inj h).2
  · split at h
    · cases (Prod.mk.inj h).2
    · rename_i temporary htemporary
      have hfree := (placeForFile?_eq_some_iff.1 htemporary).2.2
      split at h
      · cases (Prod.mk.inj h).2
      · dsimp only at h
        rw [move?_set hfree] at h
        split at h
        · cases (Prod.mk.inj h).2
        · split at h
          · cases (Prod.mk.inj h).2
          · cases htarget : t.placeForFile? path with
            | none =>
                rw [htarget] at h
                cases (Prod.mk.inj h).2
            | some target =>
                rw [htarget] at h
                obtain rfl := (Prod.mk.inj h).1
                exact bytes?_move hfree htarget bytes

/-- What is written does not decide whether it can be written. -/
theorem writeAndRename_outcome (t : FileTree) (path : String) (bytes bytes' : List UInt8)
    (sync : Bool) (refused : Option WriteStage) :
    (t.writeAndRename path bytes sync refused).2 =
      (t.writeAndRename path bytes' sync refused).2 := by
  rw [writeAndRename, writeAndRename]
  by_cases hcreate : refused = some .create
  · rw [if_pos hcreate, if_pos hcreate]
  · rw [if_neg hcreate, if_neg hcreate]
    cases htemporary : t.placeForFile? (temporaryPath path) with
    | none => rfl
    | some temporary =>
        have hfree := (placeForFile?_eq_some_iff.1 htemporary).2.2
        dsimp only
        rw [move?_set hfree, move?_set hfree]
        split
        · rfl
        · split
          · rfl
          · split
            · rfl
            · cases t.placeForFile? path <;> rfl

/-- What is stored does not decide whether it can be stored. -/
theorem store_outcome (t : FileTree) (path : String) (bytes bytes' : List UInt8) (sync : Bool)
    (refused : Option WriteStage) :
    (t.store path bytes sync refused).2 = (t.store path bytes' sync refused).2 := by
  rw [store, store]
  split
  · rfl
  · split
    · rfl
    · rename_i made _
      have houtcome := writeAndRename_outcome made path bytes bytes' sync refused
      cases hone : made.writeAndRename path bytes sync refused with
      | mk one outcome =>
          cases hother : made.writeAndRename path bytes' sync refused with
          | mk other outcome' =>
              rw [hone, hother] at houtcome
              obtain rfl : outcome = outcome' := houtcome
              cases outcome <;> rfl

private theorem writeAndRename_eq_error {e : Error} {sync : Bool} {refused : Option WriteStage}
    (h : (t.writeAndRename path bytes sync refused).2 = .error e) :
    ∃ path, e = .persistence path := by
  rw [writeAndRename] at h
  split at h
  · exact ⟨_, (Except.error.inj h).symm⟩
  · split at h
    · exact ⟨_, (Except.error.inj h).symm⟩
    · split at h
      · exact ⟨_, (Except.error.inj h).symm⟩
      · dsimp only at h
        split at h
        · exact ⟨_, (Except.error.inj h).symm⟩
        · split at h
          · exact ⟨_, (Except.error.inj h).symm⟩
          · split at h
            · exact ⟨_, (Except.error.inj h).symm⟩
            · cases h

/-- A write that fails says at which path. -/
theorem store_eq_error {e : Error} {sync : Bool} {refused : Option WriteStage}
    (h : (t.store path bytes sync refused).2 = .error e) : ∃ path, e = .persistence path := by
  rw [store] at h
  split at h
  · exact ⟨_, (Except.error.inj h).symm⟩
  · split at h
    · exact ⟨_, (Except.error.inj h).symm⟩
    · split at h
      · cases h
      · rename_i hwrite
        obtain rfl := Except.error.inj h
        exact writeAndRename_eq_error (congrArg Prod.snd hwrite)

/-- The path at which a write fails, if it fails. -/
def failsAt? (t : FileTree) (path : String) (sync : Bool) (refused : Option WriteStage) :
    Option String :=
  match (t.store path [] sync refused).2 with
  | .error (.persistence path) => some path
  | _ => none

/-- A write fails exactly where it would fail with nothing to write. -/
theorem store_outcome_eq (t : FileTree) (path : String) (bytes : List UInt8) (sync : Bool)
    (refused : Option WriteStage) :
    (t.store path bytes sync refused).2 =
      (match t.failsAt? path sync refused with
        | some failed => .error (.persistence failed)
        | none => .ok ()) := by
  rw [store_outcome t path bytes [], failsAt?]
  cases houtcome : (t.store path [] sync refused).2 with
  | ok u => rfl
  | error e =>
      obtain ⟨failed, rfl⟩ := store_eq_error houtcome
      rfl

/-- Where both the temporary file and the file can be put, in directories that
are there, a machine that refuses nothing writes. -/
theorem failsAt?_eq_none (hparent : t.makeDirectories (Route.parentPath path) = (t, true))
    (htemporary : t.placeForFile? (temporaryPath path) = some p)
    (hpath : t.placeForFile? path = some q) (sync : Bool) : t.failsAt? path sync none = none := by
  have hfree := (placeForFile?_eq_some_iff.1 htemporary).2.2
  have hwrite : (t.writeAndRename path [] sync none).2 = .ok () := by
    rw [writeAndRename, htemporary]
    simp [move?_set hfree, hpath]
  have hstore : (t.store path [] sync none).2 = .ok () := by
    rw [store, hparent]
    cases hwritten : t.writeAndRename path [] sync none with
    | mk written outcome =>
        rw [hwritten] at hwrite
        obtain rfl : outcome = .ok () := hwrite
        simp [hwritten]
  rw [failsAt?, hstore]

/-- **A write that succeeded** leaves exactly its bytes where its path leads. -/
theorem bytes?_store {sync : Bool} {refused : Option WriteStage}
    (h : t.store path bytes sync refused = (t', .ok ())) : t'.bytes? path = some bytes := by
  rw [store] at h
  split at h
  · cases (Prod.mk.inj h).2
  · split at h
    · cases (Prod.mk.inj h).2
    · split at h
      · rename_i hwrite
        obtain rfl := (Prod.mk.inj h).1
        exact bytes?_writeAndRename hwrite
      · cases (Prod.mk.inj h).2

end Proximity.FileTree

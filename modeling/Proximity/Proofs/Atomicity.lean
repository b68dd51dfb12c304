import Proximity.Proofs.Places

/-!
# What a write leaves behind

A write makes directories, puts a file beside its path and moves it there; when it
fails it removes the file beside its path.  So it touches two places, and one of them
only if it succeeds.  All else that it changes is that directories come to be on the
way to the directory around its path, and those stay when it fails later.

For the path itself that is harmless: what it led to before a write that failed, it
leads to afterwards.  Only a path that goes up again may lead nowhere before and to a
new directory afterwards, since its way then leads over the place where it ends.

## Main definitions

* `FileTree.Written` — the ways in which a write can end.
* `FileTree.Restored` — what a write that failed leaves behind.

## Main results

* `FileTree.store_written` — every write ends in one of these ways.
* `FileTree.Written.entry?`, `FileTree.Written.find?` — what a write does not touch.
* `FileTree.Written.bytes?_temporaryPath` — no file is left beside the path.
* `FileTree.store_restores` — writes that fail.
-/

namespace Proximity.FileTree

variable {t t' made : FileTree} {p q target : Place} {path other : String} {bytes : List UInt8}
  {sync : Bool} {refused : Option WriteStage} {outcome : Except Error Unit}

/-! ## Removing a file -/

private theorem removeFile_cases (t : FileTree) (path : String) :
    (t.bytes? path = none ∧ t.removeFile path = t) ∨
      (∃ content, t.entry? (destination path) = some (.file content)) ∧
        t.removeFile path = t.erase (destination path) := by
  cases hplace : t.place? path with
  | none =>
      have hfind : t.find? path = none := by rw [find?, hplace]; rfl
      exact .inl ⟨by rw [bytes?, hfind], by rw [removeFile, hplace]⟩
  | some p =>
      obtain rfl := eq_destination hplace
      cases hfind : t.find? path with
      | none => exact .inl ⟨by rw [bytes?, hfind], by rw [removeFile, hplace, hfind]⟩
      | some entry =>
          cases entry with
          | directory => exact .inl ⟨by rw [bytes?, hfind], by rw [removeFile, hplace, hfind]⟩
          | file content =>
              refine .inr ⟨?_, by rw [removeFile, hplace, hfind]⟩
              rw [find?, hplace, Option.bind_some] at hfind
              split at hfind
              · rename_i found hentry
                exact ⟨found, hentry⟩
              · exact ⟨content, hfind⟩

theorem entry?_removeFile (hq : q ≠ destination path) :
    entry? (t.removeFile path) q = t.entry? q := by
  rcases removeFile_cases t path with ⟨-, hsame⟩ | ⟨-, herase⟩
  · rw [hsame]
  · rw [herase, entry?_erase, if_neg fun h => hq h.1]

theorem sameDirectories_removeFile (t : FileTree) (path : String) :
    SameDirectories t (t.removeFile path) := by
  rcases removeFile_cases t path with ⟨-, hsame⟩ | ⟨⟨content, hentry⟩, herase⟩
  · rw [hsame]
    exact fun _ => rfl
  · rw [herase]
    refine sameDirectories_erase ?_
    rw [isDirectory, hentry]
    rfl

/-- A path leads to no file where there is nothing. -/
theorem bytes?_eq_none (h : t.entry? (destination path) = none) : t.bytes? path = none := by
  have hfind : t.find? path = none := by
    rw [find?]
    cases hplace : t.place? path with
    | none => rfl
    | some p =>
        obtain rfl := eq_destination hplace
        rw [Option.bind_some, h]
  rw [bytes?, hfind]

/-- A path leads to no file after its file was removed. -/
theorem bytes?_removeFile (t : FileTree) (path : String) :
    (t.removeFile path).bytes? path = none := by
  rcases removeFile_cases t path with ⟨hnone, hsame⟩ | ⟨⟨content, hentry⟩, herase⟩
  · rw [hsame]
    exact hnone
  · have hfree : t.isDirectory (destination path) = false := by
      rw [isDirectory, hentry]
      rfl
    rw [herase]
    refine bytes?_eq_none ?_
    rw [entry?_erase, if_pos ⟨rfl, not_fixed_of_not_directory hfree⟩]

/-! ## The course of a write -/

/-- The ways in which a write can end: the tree that it leaves, and its outcome. -/
inductive Written (t : FileTree) (path : String) (bytes : List UInt8)
    (refused : Option WriteStage) : FileTree → Except Error Unit → Prop where
  /-- The machine refuses to make the directories. -/
  | refusedParents (e : Error) :
      refused = some .makeParents → Written t path bytes refused t (.error e)
  /-- Not all directories can be made. -/
  | noParents {made : FileTree} (e : Error) :
      t.makeDirectories (Route.parentPath path) = (made, false) →
      Written t path bytes refused made (.error e)
  /-- The temporary file cannot be created. -/
  | notCreated {made : FileTree} (e : Error) :
      t.makeDirectories (Route.parentPath path) = (made, true) →
      Written t path bytes refused (made.removeFile (temporaryPath path)) (.error e)
  /-- The temporary file is created, but not all bytes are written or it cannot be
  renamed. -/
  | notRenamed {made : FileTree} {p : Place} (content : List UInt8) (e : Error) :
      t.makeDirectories (Route.parentPath path) = (made, true) →
      made.placeForFile? (temporaryPath path) = some p →
      Written t path bytes refused
        ((made.set p (.file content)).removeFile (temporaryPath path)) (.error e)
  /-- The temporary file is renamed. -/
  | renamed {made : FileTree} {p target : Place} :
      t.makeDirectories (Route.parentPath path) = (made, true) →
      made.placeForFile? (temporaryPath path) = some p →
      made.placeForFile? path = some target →
      Written t path bytes refused
        (((made.set p (.file bytes)).erase p).set target (.file bytes)) (.ok ())

private theorem writeAndRename_cases (t : FileTree) (path : String) (bytes : List UInt8)
    (sync : Bool) (refused : Option WriteStage) :
    (∃ e, t.writeAndRename path bytes sync refused = (t, .error e)) ∨
    (∃ p content e, t.placeForFile? (temporaryPath path) = some p ∧
      t.writeAndRename path bytes sync refused = (t.set p (.file content), .error e)) ∨
    ∃ p target, t.placeForFile? (temporaryPath path) = some p ∧
      t.placeForFile? path = some target ∧
      t.writeAndRename path bytes sync refused =
        (((t.set p (.file bytes)).erase p).set target (.file bytes), .ok ()) := by
  rw [writeAndRename]
  by_cases hcreate : refused = some .create
  · rw [if_pos hcreate]
    exact .inl ⟨_, rfl⟩
  · rw [if_neg hcreate]
    cases htemporary : t.placeForFile? (temporaryPath path) with
    | none => exact .inl ⟨_, rfl⟩
    | some p =>
        have hfree := (placeForFile?_eq_some_iff.1 htemporary).2.2
        dsimp only
        rw [move?_set hfree]
        split
        · exact .inr (.inl ⟨p, _, _, rfl, rfl⟩)
        · split
          · exact .inr (.inl ⟨p, _, _, rfl, rfl⟩)
          · split
            · exact .inr (.inl ⟨p, _, _, rfl, rfl⟩)
            · cases htarget : t.placeForFile? path with
              | none => exact .inr (.inl ⟨p, _, _, rfl, rfl⟩)
              | some target => exact .inr (.inr ⟨p, target, rfl, rfl, rfl⟩)

/-- Every write ends in one of these ways. -/
theorem store_written (t : FileTree) (path : String) (bytes : List UInt8) (sync : Bool)
    (refused : Option WriteStage) :
    t.Written path bytes refused (t.store path bytes sync refused).1
      (t.store path bytes sync refused).2 := by
  rw [store]
  split
  · exact .refusedParents _ ‹_›
  · split
    · exact .noParents _ ‹_›
    · rename_i made hmade
      rcases writeAndRename_cases made path bytes sync refused with
        ⟨e, hwrite⟩ | ⟨p, content, e, htemporary, hwrite⟩ | ⟨p, target, htemporary, htarget, hwrite⟩
      · rw [hwrite]
        exact .notCreated e hmade
      · rw [hwrite]
        exact .notRenamed content e hmade htemporary
      · rw [hwrite]
        exact .renamed hmade htemporary htarget

/-- A machine that refuses nothing writes if the temporary file and the path both have
a place. -/
theorem store_eq (hmade : t.makeDirectories (Route.parentPath path) = (made, true))
    (htemporary : made.placeForFile? (temporaryPath path) = some p) (bytes : List UInt8)
    (sync : Bool) :
    t.store path bytes sync none =
      match made.placeForFile? path with
      | none =>
        ((made.set p (.file bytes)).removeFile (temporaryPath path), .error (.persistence path))
      | some target => (((made.set p (.file bytes)).erase p).set target (.file bytes), .ok ()) := by
  have hfree := (placeForFile?_eq_some_iff.1 htemporary).2.2
  rw [store, if_neg (by decide), hmade]
  dsimp only
  rw [writeAndRename, if_neg (by decide), htemporary]
  dsimp only
  rw [move?_set hfree, if_neg (by simp), if_neg (by decide)]
  cases made.placeForFile? path <;> rfl

namespace Written

/-- A write leaves all directories. -/
theorem directories (h : t.Written path bytes refused t' outcome) : Extends t t' := by
  have hmaking : ∀ {made : FileTree} {done : Bool},
      t.makeDirectories (Route.parentPath path) = (made, done) → Extends t made := by
    intro made done hmade
    have hmore := t.extends_makeDirectories (Route.parentPath path)
    rw [hmade] at hmore
    exact hmore
  cases h with
  | refusedParents e _ => exact .refl t
  | noParents e hmade => exact hmaking hmade
  | notCreated e hmade =>
      exact (hmaking hmade).trans (sameDirectories_removeFile _ _).extends
  | notRenamed content e hmade htemporary =>
      have hfree := (placeForFile?_eq_some_iff.1 htemporary).2.2
      have hset := sameDirectories_set hfree content
      exact (hmaking hmade).trans (hset.trans (sameDirectories_removeFile _ _)).extends
  | renamed hmade htemporary htarget =>
      have hfree := (placeForFile?_eq_some_iff.1 htemporary).2.2
      have hplace := (placeForFile?_eq_some_iff.1 htarget).2.2
      exact (hmaking hmade).trans (sameDirectories_move hfree hplace bytes).extends

/-- Away from its temporary file, and from its path if it succeeds, a write changes
nothing but for directories that it makes on the way to the directory around its
path. -/
theorem entry? (h : t.Written path bytes refused t' outcome)
    (htemporary : q ≠ destination (temporaryPath path))
    (hpath : outcome = .ok () → q ≠ destination path) :
    t'.entry? q = t.entry? q ∨
      t.entry? q = none ∧ t'.entry? q = some .directory ∧
        q ∈ waypoints (Route.parentPath path) := by
  have hmaking : ∀ {made : FileTree} {done : Bool},
      t.makeDirectories (Route.parentPath path) = (made, done) →
      t'.entry? q = made.entry? q →
      t'.entry? q = t.entry? q ∨
        t.entry? q = none ∧ t'.entry? q = some .directory ∧
          q ∈ waypoints (Route.parentPath path) := by
    intro made done hmade hsame
    have hentry := t.entry?_makeDirectories (Route.parentPath path) q
    rw [hmade, ← hsame] at hentry
    exact hentry
  cases h with
  | refusedParents e _ => exact .inl rfl
  | noParents e hmade => exact hmaking hmade rfl
  | notCreated e hmade =>
      refine hmaking hmade ?_
      rw [entry?_removeFile htemporary]
  | notRenamed content e hmade hplace =>
      obtain rfl := eq_destination_of_placeForFile? hplace
      refine hmaking hmade ?_
      rw [entry?_removeFile htemporary, entry?_set, if_neg fun h => htemporary h.1]
  | renamed hmade hplace htarget =>
      obtain rfl := eq_destination_of_placeForFile? hplace
      obtain rfl := eq_destination_of_placeForFile? htarget
      refine hmaking hmade ?_
      rw [entry?_set, if_neg fun h => hpath rfl h.1, entry?_erase,
        if_neg fun h => htemporary h.1, entry?_set, if_neg fun h => htemporary h.1]

/-- What is at such a place stays there. -/
theorem entry?_eq_some (h : t.Written path bytes refused t' outcome)
    (htemporary : q ≠ destination (temporaryPath path))
    (hpath : outcome = .ok () → q ≠ destination path) {entry : Entry}
    (hentry : t.entry? q = some entry) : t'.entry? q = some entry := by
  rcases h.entry? htemporary hpath with hsame | ⟨hnone, -, -⟩
  · exact hsame.trans hentry
  · rw [hnone] at hentry
    cases hentry

/-- What another path leads to it still leads to. -/
theorem find? (h : t.Written path bytes refused t' outcome)
    (htemporary : destination other ≠ destination (temporaryPath path))
    (hpath : outcome = .ok () → destination other ≠ destination path) {entry : Entry}
    (hfind : t.find? other = some entry) : t'.find? other = some entry :=
  h.directories.find? (fun _ hentry => h.entry?_eq_some htemporary hpath hentry) hfind

theorem bytes? (h : t.Written path bytes refused t' outcome)
    (htemporary : destination other ≠ destination (temporaryPath path))
    (hpath : outcome = .ok () → destination other ≠ destination path) {content : List UInt8}
    (hbytes : t.bytes? other = some content) : t'.bytes? other = some content := by
  rw [FileTree.bytes?, h.find? htemporary hpath (find?_of_bytes? hbytes)]

end Written

/-! ## Writes that fail -/

/-- What a write to a path that failed leaves behind. -/
structure Restored (t t' : FileTree) (path : String) : Prop where
  /-- Away from the temporary file nothing changes, but for directories that come to be
  on the way to the directory around the path. -/
  elsewhere : ∀ q, q ≠ destination (temporaryPath path) →
    t'.entry? q = t.entry? q ∨
      t.entry? q = none ∧ t'.entry? q = some .directory ∧
        q ∈ waypoints (Route.parentPath path)
  /-- The path leads to the file or directory that it led to, and all that is below stays
  there. -/
  found : ∀ entry, t.find? path = some entry → t'.find? path = some entry ∧
    ∀ q inside, destination path <+: q → q ≠ destination (temporaryPath path) →
      t.entry? q = some inside → t'.entry? q = some inside
  /-- If the path never goes up, what is where it ends and below, or is not there, stays
  as it is. -/
  unchanged : Place.upward ∉ (Route.ofPath path).steps → ∀ q, destination path <+: q →
    q ≠ destination (temporaryPath path) → t'.entry? q = t.entry? q

/-- No write leaves a file at its temporary path, unless the machine refused before
anything was tried. -/
theorem Written.bytes?_temporaryPath (h : t.Written path bytes refused t' outcome)
    (hparents : refused ≠ some .makeParents) : t'.bytes? (temporaryPath path) = none := by
  cases h with
  | refusedParents _ hrefused => exact absurd hrefused hparents
  | noParents _ hmade =>
      have hfind : t'.find? (temporaryPath path) = none := by
        rw [FileTree.find?, place?_temporaryPath_of_not_made hmade]
        rfl
      rw [FileTree.bytes?, hfind]
  | notCreated _ _ => exact bytes?_removeFile _ _
  | notRenamed content _ _ _ => exact bytes?_removeFile _ _
  | renamed hmade hplace htarget =>
      have hfree := (placeForFile?_eq_some_iff.1 hplace).2.2
      obtain rfl := eq_destination_of_placeForFile? hplace
      obtain rfl := eq_destination_of_placeForFile? htarget
      refine bytes?_eq_none ?_
      rw [entry?_set, if_neg fun h => destination_temporaryPath_ne path h.1, entry?_erase,
        if_pos ⟨rfl, not_fixed_of_not_directory hfree⟩]

/-- **A write that fails** leaves its path alone.  Away from its temporary file nothing
has changed, except that directories may have come to be on the way to the directory
around the path.  The path leads to the file or directory that it led to before, with
all that was below; and if it never goes up, nothing has come to be there either.  No
file is left at the temporary path. -/
theorem store_restores {e : Error} (h : t.store path bytes sync refused = (t', .error e)) :
    t.Restored t' path ∧
      (refused ≠ some .makeParents → t'.bytes? (temporaryPath path) = none) := by
  have hwritten := t.store_written path bytes sync refused
  rw [h] at hwritten
  -- only a write that succeeds touches the path itself
  have hfailed : ∀ {p : Place}, (Except.error e : Except Error Unit) = .ok () →
      p ≠ destination path := fun hok => by cases hok
  refine ⟨⟨fun q hq => hwritten.entry? hq hfailed, fun entry hfind => ⟨?_, ?_⟩, ?_⟩,
    hwritten.bytes?_temporaryPath⟩
  · exact hwritten.find? (destination_temporaryPath_ne path).symm hfailed hfind
  · exact fun q inside _ hq hinside => hwritten.entry?_eq_some hq hfailed hinside
  · intro hup q hbelow hq
    rcases hwritten.entry? hq hfailed with hsame | ⟨-, -, hway⟩
    · exact hsame
    · exact absurd hway (not_mem_waypoints_parentPath hup hbelow)

/-- A directory with another one in it. -/
def occupied : FileTree := ⟨[(["a"], .directory), (["a", "b"], .directory)]⟩

/-- A file cannot take the place of a directory. -/
theorem store_restores_occupied :
    occupied.store "a" [1] true none = (occupied, .error (.persistence "a")) ∧
      occupied.Restored occupied "a" ∧ occupied.bytes? "a.tmp" = none := by
  have hplain : Route.PlainName "a" := by decide
  have hbeside : Route.PlainName "a.tmp" := by decide
  have hstore : occupied.store "a" [1] true none = (occupied, .error (.persistence "a")) := by
    have htaken : occupied.placeForFile? "a" = none := by
      rw [placeForFile?, place?, hplain.ofPath]
      decide
    rw [store_eq (makeDirectories_parentPath_name hplain) (placeForFile?_name hbeside rfl), htaken]
    show (removeFile _ "a.tmp", _) = _
    rw [removeFile, find?, place?, hbeside.ofPath]
    decide
  obtain ⟨hrestored, hnone⟩ := store_restores hstore
  exact ⟨hstore, hrestored, hnone (by decide)⟩

/-- A path that goes up again leads to a directory after the write that fails because of
that directory. -/
theorem store_up_again :
    FileTree.empty.store "d/../d" [1] true none =
        (⟨[(["d"], .directory)]⟩, .error (.persistence "d/../d")) ∧
      FileTree.empty.find? "d/../d" = none ∧
      (⟨[(["d"], .directory)]⟩ : FileTree).find? "d/../d" = some .directory := by
  have hpath : Route.ofPath "d/../d" = ⟨[], ["d", "..", "d"], false⟩ := by
    rw [Route.ofPath_eq, Route.splitOn_slash]
    decide
  have htemporary : Route.ofPath "d/../d.tmp" = ⟨[], ["d", "..", "d.tmp"], false⟩ := by
    rw [Route.ofPath_eq, Route.splitOn_slash]
    decide
  have hparent : Route.ofPath "d/.." = ⟨[], ["d", ".."], false⟩ := by
    rw [Route.ofPath_eq, Route.splitOn_slash]
    decide
  have hparentPath : Route.parentPath "d/../d" = "d/.." := by
    rw [Route.parentPath, Route.splitOn_slash]
    decide
  refine ⟨?_, ?_, ?_⟩
  · have hmade : FileTree.empty.makeDirectories (Route.parentPath "d/../d") =
        (⟨[(["d"], .directory)]⟩, true) := by
      rw [hparentPath, makeDirectories, hparent]
      decide
    have hplace : (⟨[(["d"], .directory)]⟩ : FileTree).placeForFile? (temporaryPath "d/../d") =
        some ["d.tmp"] := by
      show placeForFile? _ "d/../d.tmp" = _
      rw [placeForFile?, place?, htemporary]
      decide
    have htaken : (⟨[(["d"], .directory)]⟩ : FileTree).placeForFile? "d/../d" = none := by
      rw [placeForFile?, place?, hpath]
      decide
    rw [store_eq hmade hplace, htaken]
    show (removeFile _ "d/../d.tmp", _) = _
    rw [removeFile, find?, place?, htemporary]
    decide
  · rw [find?, place?, hpath]
    decide
  · rw [find?, place?, hpath]
    decide

end Proximity.FileTree

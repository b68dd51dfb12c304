import Proximity.Proofs.Files
import Proximity.Proofs.Paths

/-!
# Where paths lead

A path that leads anywhere leads to one place, which its steps alone decide: the
directories on the way only decide whether it gets there.  So two paths are about
the same file exactly if they have the same destination, whatever is in the tree.

Making directories leaves everything that is there alone, and puts directories
nowhere but on the way of its path.  If it gets stuck, nothing further down the way
can be reached either.

## Main definitions

* `FileTree.destination`, `FileTree.waypoints` — where a path leads, and by which way.
* `FileTree.Extends` — directories only come to be.

## Main results

* `FileTree.eq_destination` — a path leads to its destination or nowhere.
* `FileTree.entry?_makeDirectories` — what making directories changes.
* `FileTree.place?_temporaryPath_of_not_made` — what cannot be reached without them.
* `FileTree.destination_temporaryPath_ne` — a path and its temporary path differ.
-/

namespace Proximity

/-! ## Ways -/

namespace Place

variable {p q : Place} {steps : List String}

/-- The place one step away. -/
def step (p : Place) (name : String) : Place := if name = upward then p.around else p ++ [name]

/-- The place at the end of some steps. -/
def walk (p : Place) (steps : List String) : Place := steps.foldl step p

/-- The places on the way of some steps, without the one they start from. -/
def along (p : Place) : List String → List Place
  | [] => []
  | name :: rest => p.step name :: along (p.step name) rest

theorem step_of_ne {name : String} (h : name ≠ upward) : p.step name = p ++ [name] := if_neg h

theorem walk_append (p : Place) (steps rest : List String) :
    p.walk (steps ++ rest) = (p.walk steps).walk rest := List.foldl_append

theorem walk_concat (p : Place) (steps : List String) (name : String) :
    p.walk (steps ++ [name]) = (p.walk steps).step name := walk_append p steps [name]

/-- Steps none of which leads up are the names that are added. -/
theorem walk_of_not_upward (h : upward ∉ steps) : p.walk steps = p ++ steps := by
  induction steps generalizing p with
  | nil => exact (List.append_nil p).symm
  | cons name steps ih =>
      obtain ⟨hname, hsteps⟩ := not_or.1 (List.mem_cons.not.1 h)
      have hrest : p.walk (name :: steps) = p.step name ++ steps := ih hsteps
      rw [hrest, step_of_ne (Ne.symm hname), List.append_assoc]
      rfl

theorem length_le_of_mem_along (h : upward ∉ steps) (hq : q ∈ p.along steps) :
    q.length ≤ p.length + steps.length := by
  induction steps generalizing p with
  | nil => exact absurd hq List.not_mem_nil
  | cons name steps ih =>
      obtain ⟨hname, hsteps⟩ := not_or.1 (List.mem_cons.not.1 h)
      have hlength : (p.step name).length = p.length + 1 := by
        rw [step_of_ne (Ne.symm hname), List.length_append, List.length_singleton]
      rw [List.length_cons]
      rcases List.mem_cons.1 hq with rfl | hrest
      · omega
      · have hle := ih hsteps hrest
        omega

/-- A name leads away from where any other step leads. -/
theorem append_singleton_ne_step {name other : String} (hup : name ≠ upward) (hne : name ≠ other) :
    p ++ [name] ≠ p.step other := by
  rw [step]
  split
  · rw [around]
    split
    · exact fun h => hup (List.singleton_inj.1 (List.append_cancel_left h))
    · split
      · rename_i hroot
        subst hroot
        exact fun h => absurd (congrArg List.length h) (Nat.succ_ne_self 1)
      · intro h
        have hlength := congrArg List.length h
        rw [List.length_append, List.length_dropLast, List.length_singleton] at hlength
        omega
  · exact fun h => hne (List.singleton_inj.1 (List.append_cancel_left h))

end Place

namespace FileTree

variable {t t' made : FileTree} {p q : Place} {path : String} {steps : List String}

/-! ## Destinations -/

/-- Where a path leads if the directories on its way are there. -/
def destination (path : String) : Place :=
  (Route.ofPath path).origin.walk (Route.ofPath path).steps

/-- The places on the way of a path, with the one it leads to. -/
def waypoints (path : String) : List Place :=
  (Route.ofPath path).origin.along (Route.ofPath path).steps

private theorem eq_walk_of_follow? (h : t.follow? p steps = some q) : q = p.walk steps := by
  induction steps generalizing p with
  | nil => exact (Option.some.inj h).symm
  | cons name steps ih =>
      rw [follow?] at h
      split at h
      · cases h
      · split at h
        · rename_i hup
          rw [ih h, hup]
          rfl
        · split at h
          · rename_i hname _
            have hstep : p.step name = p ++ [name] := Place.step_of_ne hname
            rw [ih h, ← hstep]
            rfl
          · cases h

/-- A path leads to its destination, if anywhere. -/
theorem eq_destination (h : t.place? path = some p) : p = destination path := by
  rw [place?] at h
  split at h
  · exact eq_walk_of_follow? h
  · cases h

theorem eq_destination_of_placeForFile? (h : t.placeForFile? path = some p) :
    p = destination path := eq_destination (placeForFile?_eq_some_iff.1 h).2.1

/-- A name leads to the place with this name. -/
theorem destination_name {name : String} (h : Route.PlainName name) :
    destination name = [name] := by
  rw [destination, h.ofPath]
  exact Place.step_of_ne h.2.2.1

/-- A file can be put under a name if no directory has it. -/
theorem placeForFile?_name {name : String} (h : Route.PlainName name)
    (hfree : t.isDirectory [name] = false) : t.placeForFile? name = some [name] := by
  obtain ⟨-, -, hup, hpath, hname⟩ := id h
  have hstart : t.isDirectory Place.start = true := rfl
  have hplace : t.place? name = some [name] := by
    rw [place?, if_pos hpath, h.ofPath, follow?, hstart, if_neg hup, if_pos hname]
    rfl
  exact placeForFile?_eq_some_iff.2 ⟨by rw [h.ofPath], hplace, hfree⟩

/-! ## Trees with more directories -/

/-- Whatever is a directory in the first tree is one in the second. -/
def Extends (t t' : FileTree) : Prop := ∀ p, t.isDirectory p = true → t'.isDirectory p = true

theorem Extends.refl (t : FileTree) : Extends t t := fun _ h => h

theorem Extends.trans {t'' : FileTree} (h : Extends t t') (h' : Extends t' t'') :
    Extends t t'' := fun p hp => h' p (h p hp)

theorem SameDirectories.extends (h : SameDirectories t t') : Extends t t' :=
  fun p hp => (h p).trans hp

/-- Steps that could be taken can still be taken. -/
theorem Extends.follow? (h : Extends t t') (hfollow : t.follow? p steps = some q) :
    t'.follow? p steps = some q := by
  induction steps generalizing p with
  | nil => exact hfollow
  | cons name steps ih =>
      rw [FileTree.follow?] at hfollow ⊢
      cases hdirectory : t.isDirectory p with
      | false =>
          rw [hdirectory] at hfollow
          cases hfollow
      | true =>
          rw [hdirectory] at hfollow
          rw [h p hdirectory]
          simp only [Bool.not_true, Bool.false_eq_true, if_false] at hfollow ⊢
          split
          · rw [if_pos ‹_›] at hfollow
            exact ih hfollow
          · rw [if_neg ‹_›] at hfollow
            split
            · rw [if_pos ‹_›] at hfollow
              exact ih hfollow
            · rw [if_neg ‹_›] at hfollow
              cases hfollow

theorem Extends.place? (h : Extends t t') (hplace : t.place? path = some p) :
    t'.place? path = some p := by
  rw [FileTree.place?] at hplace ⊢
  split
  · rw [if_pos ‹_›] at hplace
    exact h.follow? hplace
  · rw [if_neg ‹_›] at hplace
    cases hplace

/-- What a path leads to it still leads to if it stays where it is. -/
theorem Extends.find? (h : Extends t t')
    (hstays : ∀ entry, t.entry? (destination path) = some entry →
      t'.entry? (destination path) = some entry) {entry : Entry}
    (hfind : t.find? path = some entry) : t'.find? path = some entry := by
  cases hplace : t.place? path with
  | none =>
      rw [FileTree.find?, hplace] at hfind
      cases hfind
  | some p =>
      obtain rfl := eq_destination hplace
      rw [FileTree.find?, hplace, Option.bind_some] at hfind
      rw [FileTree.find?, h.place? hplace, Option.bind_some]
      cases hentry : t.entry? (destination path) with
      | none =>
          rw [hentry] at hfind
          cases hfind
      | some found =>
          rw [hentry] at hfind
          rw [hstays found hentry]
          exact hfind

/-! ## Making directories -/

/-- Each place holds what it held, or a directory that was made on the way. -/
private theorem entry?_makeAlong (t : FileTree) (p : Place) (steps : List String) (q : Place) :
    entry? (t.makeAlong p steps).1 q = t.entry? q ∨
      t.entry? q = none ∧ entry? (t.makeAlong p steps).1 q = some .directory ∧
        q ∈ p.along steps := by
  induction steps generalizing t p with
  | nil => exact .inl rfl
  | cons name steps ih =>
      rw [makeAlong, Place.along]
      by_cases hup : name = Place.upward
      · have hstep : p.step name = p.around := if_pos hup
        rw [if_pos hup, hstep]
        exact (ih t p.around).imp_right fun h => ⟨h.1, h.2.1, List.mem_cons_of_mem _ h.2.2⟩
      · rw [if_neg hup, Place.step_of_ne hup]
        dsimp only
        cases hnext : t.entry? (p ++ [name]) with
        | some entry =>
            cases entry with
            | file content => exact .inl rfl
            | directory =>
                exact (ih t _).imp_right fun h => ⟨h.1, h.2.1, List.mem_cons_of_mem _ h.2.2⟩
        | none =>
            dsimp only
            split
            · have hrest := ih (t.set (p ++ [name]) .directory) (p ++ [name])
              rw [entry?_set] at hrest
              -- later steps find the new directory there and leave it
              by_cases hq : q = p ++ [name] ∧ ¬ IsFixed q
              · rw [if_pos hq] at hrest
                obtain ⟨rfl, -⟩ := hq
                have hmade := hrest.resolve_right fun h => by cases h.1
                exact .inr ⟨hnext, hmade, List.mem_cons_self⟩
              · rw [if_neg hq] at hrest
                exact hrest.imp_right fun h => ⟨h.1, h.2.1, List.mem_cons_of_mem _ h.2.2⟩
            · exact .inl rfl

theorem entry?_makeDirectories (t : FileTree) (path : String) (q : Place) :
    entry? (t.makeDirectories path).1 q = t.entry? q ∨
      t.entry? q = none ∧ entry? (t.makeDirectories path).1 q = some .directory ∧
        q ∈ waypoints path := by
  rw [makeDirectories]
  split
  · exact entry?_makeAlong t _ _ q
  · exact .inl rfl

theorem extends_makeDirectories (t : FileTree) (path : String) :
    Extends t (t.makeDirectories path).1 := by
  intro p hp
  rcases entry?_makeDirectories t path p with hsame | ⟨hnone, -, -⟩
  · rw [isDirectory, hsame]
    exact hp
  · rw [isDirectory, hnone] at hp
    cases hp

/-- No directories are around a name. -/
theorem makeDirectories_parentPath_name {name : String} (h : Route.PlainName name) :
    t.makeDirectories (Route.parentPath name) = (t, true) := by
  have hsteps : (Route.ofPath (Route.parentPath name)).steps = [] := by
    rw [Route.steps_parentPath, h.ofPath]
    rfl
  rw [makeDirectories, if_pos (Route.isPath_parentPath h.2.2.2.1), hsteps]
  rfl

/-- Where the directories could not be made, no way leads on. -/
private theorem follow?_of_makeAlong_eq_false {rest : List String} (hrest : rest ≠ [])
    (h : t.makeAlong p steps = (made, false)) : made.follow? p (steps ++ rest) = none := by
  induction steps generalizing t p with
  | nil => cases (Prod.mk.inj h).2
  | cons name steps ih =>
      rw [makeAlong] at h
      rw [List.cons_append, follow?]
      split
      · rfl
      · by_cases hup : name = Place.upward
        · rw [if_pos hup] at h ⊢
          exact ih h
        · rw [if_neg hup] at h ⊢
          dsimp only at h
          cases hnext : t.entry? (p ++ [name]) with
          | some entry =>
              rw [hnext] at h
              cases entry with
              | directory =>
                  split
                  · exact ih h
                  · rfl
              | file content =>
                  -- the file that was in the way of the directory is in the way of the path
                  obtain rfl := (Prod.mk.inj h).1
                  have hfile : t.isDirectory (p ++ [name]) = false := by
                    rw [isDirectory, hnext]
                    rfl
                  split
                  · cases hsteps : steps ++ rest with
                    | nil => exact absurd (List.append_eq_nil_iff.1 hsteps).2 hrest
                    | cons next others => rw [follow?, hfile]; rfl
                  · rfl
          | none =>
              rw [hnext] at h
              dsimp only at h
              split
              · rw [if_pos ‹_›] at h
                exact ih h
              · rfl

/-! ## Temporary and parent paths -/

private theorem steps_temporaryPath_eq (path : String) :
    ∃ rest, rest ≠ [] ∧ (Route.ofPath (temporaryPath path)).steps =
      (Route.ofPath (Route.parentPath path)).steps ++ rest := by
  rw [Route.steps_parentPath]
  obtain ⟨name, -, happend | ⟨init, last, -, hsteps, hother⟩⟩ := Route.steps_temporaryPath path
  · rw [happend]
    rcases List.eq_nil_or_concat (Route.ofPath path).steps with hnil | ⟨init, last, hsteps⟩
    · exact ⟨[name], List.cons_ne_nil _ _, by rw [hnil]; rfl⟩
    · rw [List.concat_eq_append] at hsteps
      refine ⟨[last, name], List.cons_ne_nil _ _, ?_⟩
      rw [hsteps, List.dropLast_concat, List.append_assoc]
      rfl
  · exact ⟨[name], List.cons_ne_nil _ _, by rw [hother, hsteps, List.dropLast_concat]⟩

/-- A temporary path leads nowhere if the directories around it could not be made. -/
theorem place?_temporaryPath_of_not_made
    (h : t.makeDirectories (Route.parentPath path) = (made, false)) :
    made.place? (temporaryPath path) = none := by
  rw [place?]
  split
  · rename_i hpath
    have hparent := Route.isPath_parentPath (Route.isPath_of_append hpath)
    rw [makeDirectories, if_pos hparent] at h
    obtain ⟨rest, hrest, hsteps⟩ := steps_temporaryPath_eq path
    have hsome : (Route.ofPath (Route.parentPath path)).steps ≠ [] := by
      intro hnil
      rw [hnil] at h
      cases (Prod.mk.inj h).2
    have horigin := Route.origin_parentPath (Route.steps_parentPath path ▸ hsome)
    rw [hsteps, Route.origin_temporaryPath, ← horigin]
    exact follow?_of_makeAlong_eq_false hrest h
  · rfl

theorem destination_temporaryPath_ne (path : String) :
    destination (temporaryPath path) ≠ destination path := by
  rw [destination, destination, Route.origin_temporaryPath]
  obtain ⟨name, hup, happend | ⟨init, last, hne, hsteps, hother⟩⟩ := Route.steps_temporaryPath path
  · rw [happend, Place.walk_concat, Place.step_of_ne hup]
    intro h
    have hlength := congrArg List.length h
    rw [List.length_append, List.length_singleton] at hlength
    omega
  · rw [hother, hsteps, Place.walk_concat, Place.walk_concat, Place.step_of_ne hup]
    exact Place.append_singleton_ne_step hup hne

/-- Without steps up, the way to the directory around a path stays above the path. -/
theorem not_mem_waypoints_parentPath (hup : Place.upward ∉ (Route.ofPath path).steps)
    (hq : destination path <+: q) : q ∉ waypoints (Route.parentPath path) := by
  intro hmem
  rw [waypoints, Route.steps_parentPath] at hmem
  have hsome : (Route.ofPath path).steps.dropLast ≠ [] := by
    intro hnil
    rw [hnil] at hmem
    exact List.not_mem_nil hmem
  rw [Route.origin_parentPath hsome] at hmem
  have hless : Place.upward ∉ (Route.ofPath path).steps.dropLast :=
    fun h => hup (List.dropLast_subset _ h)
  have hle := Place.length_le_of_mem_along hless hmem
  have hlength := hq.length_le
  rw [destination, Place.walk_of_not_upward hup, List.length_append] at hlength
  have hsteps : (Route.ofPath path).steps.dropLast.length =
      (Route.ofPath path).steps.length - 1 := List.length_dropLast
  have hpos : 0 < (Route.ofPath path).steps.dropLast.length := List.length_pos_iff.2 hsome
  omega

end FileTree

end Proximity

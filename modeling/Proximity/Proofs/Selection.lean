import Mathlib.Data.List.Perm.Subperm
import Proximity.Proofs.GroundLevel

/-!
# Which neighbours are selected

A selection goes through its candidates from the best one on.  A candidate is kept if it is
at least as close to the base as to every candidate kept before it, and passed over
otherwise; as soon as there are enough, the others are not looked at.  Where all of them
were looked at and there is room left, the best of those that were passed over fill the
list up.

So the list is as long as it may be, its first member is the best candidate, and what it is
made of depends on the candidates alone and not on their order.  The costs between the
candidates may be any numbers, also some that do not compare.

## Main definitions

* `Links.Shadowed` — a candidate that the diversity rule passes over.
* `Links.Screened` — what is known of the candidates that were looked at.
* `Links.Screens` — how far a screening gets.
* `Links.Selects` — what a selection is made of.
* `Links.Filled` — what is known of a selection.

## Main results

* `Links.Screened.keep`, `Links.Screened.pass` — the next candidate.
* `Links.Screened.diverse_screens` — all candidates.
* `Links.Screened.selects`, `Links.select_selects` — the parts of a selection.
* `Links.select_filled` — a selection is as long as it may be.
* `Links.select_fills` — what a selection returns, and when.
-/

namespace Proximity

namespace Links

open Candidate

variable {between : Nat → Nat → Single} {limit : Nat} {c : Candidate}
  {seen kept passed filling cs : List Candidate}

/-! ## Screening -/

/-- A candidate that was kept ranks before `c`, and `c` is not at least as close to the base
as to that one. -/
def Shadowed (between : Nat → Nat → Single) (kept : List Candidate) (c : Candidate) : Prop :=
  ∃ s ∈ kept, s.le c = true ∧ c.cost.le (between s.label c.label) = false

/-- More candidates that are kept throw no less shadow. -/
theorem Shadowed.append (h : Shadowed between kept c) (more : List Candidate) :
    Shadowed between (kept ++ more) c := by
  obtain ⟨s, hs, hcloser⟩ := h
  exact ⟨s, List.mem_append_left more hs, hcloser⟩

/-- The candidates that were looked at are kept or passed over, by the diversity rule. -/
structure Screened (between : Nat → Nat → Single) (limit : Nat)
    (seen kept passed : List Candidate) : Prop where
  perm : (kept ++ passed).Perm seen
  keptRanked : BestFirst kept
  passedRanked : BestFirst passed
  diverse : kept.Pairwise fun s c => c.cost.le (between s.label c.label) = true
  shadowed : ∀ c ∈ passed, Shadowed between kept c
  room : kept.length ≤ limit

/-- Nothing was looked at. -/
theorem screened_nil (between : Nat → Nat → Single) (limit : Nat) :
    Screened between limit [] [] [] where
  perm := .refl _
  keptRanked := List.Pairwise.nil
  passedRanked := List.Pairwise.nil
  diverse := List.Pairwise.nil
  shadowed _ hc := absurd hc List.not_mem_nil
  room := Nat.zero_le _

theorem Screened.mem_seen_of_kept (h : Screened between limit seen kept passed)
    (hc : c ∈ kept) : c ∈ seen :=
  h.perm.mem_iff.1 (List.mem_append_left passed hc)

theorem Screened.mem_seen_of_passed (h : Screened between limit seen kept passed)
    (hc : c ∈ passed) : c ∈ seen :=
  h.perm.mem_iff.1 (List.mem_append_right kept hc)

/-- What comes after the candidates of a list goes to the end of its ranked parts. -/
private theorem bestFirst_concat {part : List Candidate} (hpart : BestFirst part)
    (hseen : ∀ d ∈ part, d ∈ seen) (hranked : BestFirst (seen ++ [c])) :
    BestFirst (part ++ [c]) := by
  refine List.pairwise_append.2 ⟨hpart, List.pairwise_singleton _ c, fun d hd => ?_⟩
  exact (List.pairwise_append.1 hranked).2.2 d (hseen d hd)

/-- The next candidate is kept if there is room and no candidate is in its way. -/
theorem Screened.keep (h : Screened between limit seen kept passed)
    (hranked : BestFirst (seen ++ [c])) (hroom : kept.length < limit)
    (hdiverse : ∀ s ∈ kept, c.cost.le (between s.label c.label) = true) :
    Screened between limit (seen ++ [c]) (kept ++ [c]) passed where
  perm := by
    have hmiddle : (kept ++ [c] ++ passed).Perm (c :: (kept ++ passed)) := by
      rw [List.append_assoc, List.singleton_append]
      exact List.perm_middle
    exact hmiddle.trans ((h.perm.cons c).trans (List.perm_append_singleton c seen).symm)
  keptRanked := bestFirst_concat h.keptRanked (fun _ => h.mem_seen_of_kept) hranked
  passedRanked := h.passedRanked
  diverse := by
    refine List.pairwise_append.2 ⟨h.diverse, List.pairwise_singleton _ c, fun s hs d hd => ?_⟩
    rw [List.mem_singleton.1 hd]
    exact hdiverse s hs
  shadowed d hd := (h.shadowed d hd).append [c]
  room := by
    rw [List.length_append, List.length_singleton]
    exact hroom

/-- Otherwise it is passed over. -/
theorem Screened.pass (h : Screened between limit seen kept passed)
    (hranked : BestFirst (seen ++ [c]))
    (hclose : ∃ s ∈ kept, c.cost.le (between s.label c.label) = false) :
    Screened between limit (seen ++ [c]) kept (passed ++ [c]) where
  perm := by
    rw [← List.append_assoc]
    exact h.perm.append_right [c]
  keptRanked := h.keptRanked
  passedRanked := bestFirst_concat h.passedRanked (fun _ => h.mem_seen_of_passed) hranked
  diverse := h.diverse
  shadowed d hd := by
    rcases List.mem_append.1 hd with hd | hd
    · exact h.shadowed d hd
    · obtain rfl := List.mem_singleton.1 hd
      obtain ⟨s, hs, hcloser⟩ := hclose
      have hbefore := (List.pairwise_append.1 hranked).2.2
      exact ⟨s, hs, hbefore s (h.mem_seen_of_kept hs) d hd, hcloser⟩
  room := h.room

/-- After those that were looked at, some more candidates are screened into two parts one by
one, and some are left out only if enough were kept. -/
def Screens (between : Nat → Nat → Single) (limit : Nat) (seen cs : List Candidate)
    (parts : List Candidate × List Candidate) : Prop :=
  ∃ examined rest, cs = examined ++ rest ∧
    Screened between limit (seen ++ examined) parts.1 parts.2 ∧
    (rest ≠ [] → parts.1.length = limit)

/-- The screening of the others completes that of the next candidate. -/
theorem Screens.cons {parts : List Candidate × List Candidate}
    (h : Screens between limit (seen ++ [c]) cs parts) :
    Screens between limit seen (c :: cs) parts := by
  obtain ⟨examined, rest, rfl, hscreened, hrest⟩ := h
  refine ⟨c :: examined, rest, rfl, ?_, hrest⟩
  rwa [List.append_assoc] at hscreened

/-- All candidates are screened. -/
theorem Screened.diverse_screens (h : Screened between limit seen kept passed)
    (hranked : BestFirst (seen ++ cs)) :
    Screens between limit seen cs (Links.diverse between limit kept passed cs) := by
  induction cs generalizing seen kept passed with
  | nil => exact ⟨[], [], rfl, by rwa [List.append_nil], fun hrest => absurd rfl hrest⟩
  | cons c cs ih =>
      rw [Links.diverse]
      split
      · rename_i hfull
        refine ⟨[], c :: cs, rfl, by rwa [List.append_nil], fun _ => ?_⟩
        exact Nat.le_antisymm h.room hfull
      · rename_i hroom
        have hnext : BestFirst (seen ++ [c] ++ cs) := by rwa [List.append_assoc]
        have hfirst : BestFirst (seen ++ [c]) := (List.pairwise_append.1 hnext).1
        split
        · rename_i hall
          have hkeep := h.keep hfirst (Nat.lt_of_not_le hroom) (List.all_eq_true.1 hall)
          exact (ih hkeep hnext).cons
        · rename_i hnot
          rw [List.all_eq_true] at hnot
          push Not at hnot
          obtain ⟨s, hs, hcloser⟩ := hnot
          have hpass := h.pass hfirst ⟨s, hs, Bool.eq_false_of_not_eq_true hcloser⟩
          exact (ih hpass hnext).cons

/-! ## Selections -/

/-- What a selection from some candidates is made of: those that the diversity rule keeps, and
others that fill the list up. -/
structure Selects (between : Nat → Nat → Single) (limit : Nat)
    (cs kept filling : List Candidate) : Prop where
  /-- They are candidates, none more often than it is given. -/
  candidates : (kept ++ filling).Subperm cs
  keptRanked : BestFirst kept
  fillingRanked : BestFirst filling
  /-- What is kept is at least as close to the base as to all that was kept before it. -/
  diverse : kept.Pairwise fun s c => c.cost.le (between s.label c.label) = true
  /-- What is not kept was passed over, or comes after as many as were asked for. -/
  notKept : ∀ c ∈ cs, c ∉ kept →
    Shadowed between kept c ∨ kept.length = limit ∧ ∀ s ∈ kept, s.le c = true
  /-- What fills the list up was passed over. -/
  shadowed : ∀ c ∈ filling, Shadowed between kept c
  /-- The list is only filled up if too few were kept. -/
  room : filling ≠ [] → kept.length < limit
  /-- It is filled up with the best. -/
  best : ∀ c ∈ cs, c ∉ kept → c ∉ filling → ∀ d ∈ filling, d.le c = true

/-- What a screening keeps, and the first that it passes over, make a selection if it has left
nothing out or has kept enough. -/
theorem Screened.selects {rest : List Candidate} (h : Screened between limit seen kept passed)
    (hranked : BestFirst (seen ++ rest)) (hcs : (seen ++ rest).Perm cs)
    (hrest : rest ≠ [] → kept.length = limit) :
    Selects between limit cs kept (passed.take (limit - kept.length)) where
  candidates := by
    have hparts : (kept ++ passed.take (limit - kept.length)).Sublist (kept ++ passed) :=
      (List.take_sublist _ _).append_left kept
    have hseen : seen.Sublist (seen ++ rest) := List.sublist_append_left seen rest
    exact hparts.subperm.trans (h.perm.subperm.trans (hseen.subperm.trans hcs.subperm))
  keptRanked := h.keptRanked
  fillingRanked := h.passedRanked.sublist (List.take_sublist _ _)
  diverse := h.diverse
  notKept c hc hkept := by
    rcases List.mem_append.1 (hcs.mem_iff.2 hc) with hc | hc
    · have hpassed := (List.mem_append.1 (h.perm.mem_iff.2 hc)).resolve_left hkept
      exact .inl (h.shadowed c hpassed)
    · refine .inr ⟨hrest (List.ne_nil_of_mem hc), fun s hs => ?_⟩
      exact (List.pairwise_append.1 hranked).2.2 s (h.mem_seen_of_kept hs) c hc
  shadowed c hc := h.shadowed c (List.mem_of_mem_take hc)
  room hne := by
    refine Nat.lt_of_not_le fun hle => hne ?_
    rw [Nat.sub_eq_zero_of_le hle, List.take_zero]
  best c hc hkept hfilling d hd := by
    rcases List.mem_append.1 (hcs.mem_iff.2 hc) with hc | hc
    · have hpassed := (List.mem_append.1 (h.perm.mem_iff.2 hc)).resolve_left hkept
      have hsplit := h.passedRanked
      rw [← List.take_append_drop (limit - kept.length) passed] at hpassed hsplit
      have hdropped := (List.mem_append.1 hpassed).resolve_left hfilling
      exact (List.pairwise_append.1 hsplit).2.2 d hd c hdropped
    · -- there is no room for others
      rw [hrest (List.ne_nil_of_mem hc), Nat.sub_self, List.take_zero] at hd
      exact absurd hd List.not_mem_nil

/-- The parts of a selection. -/
theorem select_selects (between : Nat → Nat → Single) (limit : Nat) (cs : List Candidate) :
    ∃ kept filling, select between limit cs = (kept ++ filling).map (·.label) ∧
      Selects between limit cs kept filling := by
  have hall : BestFirst ([] ++ ranked cs) := bestFirst_ranked cs
  obtain ⟨examined, rest, hsplit, hscreened, hrest⟩ :=
    (screened_nil between limit).diverse_screens hall
  have hranked : BestFirst (examined ++ rest) := hsplit ▸ bestFirst_ranked cs
  have hperm : (examined ++ rest).Perm cs := hsplit ▸ ranked_perm cs
  exact ⟨_, _, rfl, hscreened.selects hranked hperm hrest⟩

/-- The first candidate that is kept is the best of all. -/
theorem Selects.exists_head (h : Selects between limit cs kept filling) (hlimit : 1 ≤ limit)
    (hcs : cs ≠ []) :
    ∃ c rest, kept = c :: rest ∧ c ∈ cs ∧ ∀ d ∈ cs, c.le d = true := by
  cases kept with
  | nil =>
      obtain ⟨c, hc⟩ := List.exists_mem_of_ne_nil cs hcs
      rcases h.notKept c hc List.not_mem_nil with ⟨s, hs, -⟩ | ⟨hlength, -⟩
      · exact absurd hs List.not_mem_nil
      · rw [List.length_nil] at hlength
        omega
  | cons c rest =>
      have hfirst : ∀ s ∈ c :: rest, c.le s = true := by
        intro s hs
        rcases List.mem_cons.1 hs with rfl | hs
        · exact le_refl s
        · exact (List.pairwise_cons.1 h.keptRanked).1 s hs
      refine ⟨c, rest, rfl, ?_, fun d hd => ?_⟩
      · exact h.candidates.subset (List.mem_append_left filling List.mem_cons_self)
      · by_cases hkept : d ∈ c :: rest
        · exact hfirst d hkept
        · rcases h.notKept d hd hkept with ⟨s, hs, hle, -⟩ | ⟨-, hall⟩
          · exact le_trans c s d (hfirst s hs) hle
          · exact hall c List.mem_cons_self

/-- A selection depends only on which candidates there are. -/
theorem select_eq_of_perm {ds : List Candidate} (h : ds.Perm cs) :
    select between limit ds = select between limit cs := by
  rw [select, select, ranked_eq_of_perm h]

/-- A selection that is as long as it may be, and of which everything is known. -/
structure Filled (between : Nat → Nat → Single) (limit : Nat) (cs : List Candidate)
    (labels : List Nat) : Prop where
  /-- As many are selected as are wanted, or all that there are. -/
  count : labels.length = min limit cs.length
  nodup : labels.Nodup
  candidates : ∀ n ∈ labels, ∃ c ∈ cs, c.label = n
  /-- The best candidate comes first. -/
  first : cs ≠ [] → ∃ c ∈ cs, (∀ d ∈ cs, c.le d = true) ∧ labels.head? = some c.label
  parts : ∃ kept filling, labels = (kept ++ filling).map (·.label) ∧
    Selects between limit cs kept filling

/-- From candidates with different labels at least one of which is wanted, a selection is as
long as it may be. -/
theorem select_filled (between : Nat → Nat → Single) (hlimit : 1 ≤ limit)
    (hcs : (cs.map (·.label)).Nodup) : Filled between limit cs (select between limit cs) where
  count := length_select between limit cs
  nodup := select_nodup between limit hcs
  candidates n hn := mem_of_mem_select hn
  first hne := by
    obtain ⟨kept, filling, hselect, hselects⟩ := select_selects between limit cs
    obtain ⟨c, rest, rfl, hc, hleast⟩ := hselects.exists_head hlimit hne
    refine ⟨c, hc, hleast, ?_⟩
    rw [hselect]
    rfl
  parts := select_selects between limit cs

/-- **What a selection returns.**  From stored candidates with different labels at least one of
which is wanted, it returns as many different labels as are wanted, or all that there are, and
the best candidate comes first.  Those that the diversity rule keeps are followed by others
only where all candidates were looked at and too few were kept; both parts are ranked, and the
others are the best that were passed over.  The order of the candidates does not matter.  That
is so exactly if there is room for as many as are wanted, however few there are. -/
theorem select_fills {S E : Type} [Space S E] (machine : Machine) (storage : Flat S E)
    (hlimit : 1 ≤ limit) (hcs : (cs.map (·.label)).Nodup)
    (hstored : ∀ c ∈ cs, c.label < storage.total) :
    (machine.grants limit = true → ∃ labels,
      Filled storage.between limit cs labels ∧
      ∀ ds, ds.Perm cs → select? machine storage limit ds = some labels) ∧
    (machine.grants limit = false → select? machine storage limit cs = none) := by
  refine ⟨fun hroom => ?_, fun hroom => select?_eq_none hroom storage cs⟩
  refine ⟨_, select_filled storage.between hlimit hcs, fun ds hds => ?_⟩
  rw [select?_eq hroom fun c hc => hstored c (hds.mem_iff.1 hc), select_eq_of_perm hds]

/-- Bit vectors of eight dimensions around the one without bits. -/
def aroundZero : Flat BinarySpace UInt8 := ⟨⟨⟩, 8, 1, #[1, 3, 28, 7]⟩

/-- They are candidates at as many bits as they have. -/
def bitCounts : List Candidate := [⟨.ofNat 1, 0⟩, ⟨.ofNat 2, 1⟩, ⟨.ofNat 3, 2⟩, ⟨.ofNat 3, 3⟩]

/-- The first of them is the closest one, and the third is on the other side.  The second and
the fourth are closer to the first, so they are passed over, and the better one fills the list
up. -/
theorem select_fills_bits :
    (bitCounts.map (·.label)).Nodup ∧ (∀ c ∈ bitCounts, c.label < aroundZero.total) ∧
      select? .standard aroundZero 3 bitCounts.reverse = some [0, 2, 1] ∧
      Filled aroundZero.between 3 bitCounts [0, 2, 1] := by
  have hlabels : (bitCounts.map (·.label)).Nodup := by decide
  have hstored : ∀ c ∈ bitCounts, c.label < aroundZero.total := by decide
  obtain ⟨hroom, -⟩ := select_fills .standard aroundZero (by decide : 1 ≤ 3) hlabels hstored
  obtain ⟨labels, hfilled, hanswer⟩ := hroom (by decide)
  have hranked : BestFirst bitCounts := by
    rw [BestFirst]
    decide +kernel
  have hselect : select aroundZero.between 3 bitCounts = [0, 2, 1] := by
    rw [select, ← eq_ranked hranked (.refl _)]
    decide +kernel
  have hsame := hanswer bitCounts (.refl _)
  rw [select?_eq (by decide) hstored, hselect] at hsame
  obtain rfl := Option.some.inj hsame
  exact ⟨hlabels, hstored, hanswer _ (List.reverse_perm _), hfilled⟩

/-- One candidate is not selected where 2 ^ 64 - 1 of them are wanted: there is no room for
them.  A beam that is to find so many does have room, since its size wraps around to zero. -/
theorem select_roomless_one :
    Machine.standard.grants (max 40 (Count.bound - 1) + 1) = true ∧
      select? .standard aroundZero (Count.bound - 1) [⟨.ofNat 1, 0⟩] = none :=
  ⟨by decide, select?_eq_none (by decide) _ _⟩

end Links

end Proximity

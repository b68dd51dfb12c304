import Proximity.Proofs.Guarded.Inspection
import Proximity.Proofs.Persistence

/-!
# Files that nobody vouches for

Bytes that are accepted may have been crafted.  The index in them passed the
check, so it is consistent, but it may be an index that nothing could have built:
nodes of a graph may have any number of levels, lists may hold labels twice, and
any tree may stand where a quantizer or a base does.  Consistency alone is enough
for everything that follows: no access of any call fails, and every call leaves a
consistent index behind.

A run of calls is written twice, with total operations and with guarded ones.
That the guarded run answers what the other one does says that none of its
accesses fails.  Room is another matter: here the machine never lacks any.

## Main definitions

* `Stored.Call`, `Stored.respond`, `Stored.run` — calls at the root, and runs of them.
* `Stored.respond?`, `Stored.run?` — the same with guarded accesses.
* `Stored.Safe` — no run fails an access, and all of them stay in order.

## Main results

* `Stored.respond?_eq`, `Stored.respond_consistent` — one call.
* `Stored.Consistent.safe` — every run.
* `Artifact.ofBytes_safe` — whatever is accepted is safe.
-/

namespace Proximity

variable {S E : Type} [Space S E]

/-! ## Calls -/

/-- What callers can ask of a stored index.  Filters and hits speak of labels or,
if there are any, of ids; both are signed numbers of 64 bits. -/
inductive Stored.Call (E : Type) where
  | search (query : Array E) (k : Nat) (accept : Int64 → Bool)
  | searchRange (query : Array E) (radius : Single) (accept : Int64 → Bool)
  | append (elements : Array E)
  | appendWithIds (elements : Array E) (ids : Array Int64)
  | train (sample : Array E)
  | tune (ps : Parameters)

/-- What callers get. -/
inductive Stored.Answer where
  | hits (r : Except Error (List (Hit Int64)))
  | outcome (r : Except Error Unit)
  /-- The call is offered with ids only, or without ids only. -/
  | notOffered

/-- Hits of a bare index as callers see them. -/
def Index.signedHits (r : Except Error (List (Hit Nat))) : Except Error (List (Hit Int64)) :=
  r.map (List.map fun h => ⟨Int64.ofNat h.label, h.distance⟩)

namespace Stored

/-- One call: the index that it leaves behind, and its answer. -/
def respond : Stored S E → Call E → Stored S E × Answer
  | .bare index, .search query k accept =>
    (.bare index, .hits (Index.signedHits (index.search query k (accept ∘ Int64.ofNat))))
  | .bare index, .searchRange query radius accept =>
    (.bare index,
      .hits (Index.signedHits (index.searchRange query radius (accept ∘ Int64.ofNat))))
  | .bare index, .append elements =>
    (.bare (index.append elements).1, .outcome (index.append elements).2)
  | .bare index, .train sample =>
    (.bare (index.train sample).1, .outcome (index.train sample).2)
  | .bare index, .tune ps => (.bare (index.tune ps).1, .outcome (index.tune ps).2)
  | .mapped m, .search query k accept => (.mapped m, .hits (m.search query k accept))
  | .mapped m, .searchRange query radius accept =>
    (.mapped m, .hits (m.searchRange query radius accept))
  | .mapped m, .appendWithIds elements ids =>
    (.mapped (m.append elements ids).1, .outcome (m.append elements ids).2)
  | s, _ => (s, .notOffered)

/-- Calls one after the other. -/
def run : Stored S E → List (Call E) → Stored S E × List Answer
  | s, [] => (s, [])
  | s, call :: calls =>
    let (next, answer) := s.respond call
    let (last, answers) := next.run calls
    (last, answer :: answers)

variable [Space.GuardsCentroid S]

/-- One call with guarded accesses.  A tuning accesses nothing. -/
def respond? (machine : Machine) : Stored S E → Call E → Option (Stored S E × Answer)
  | .bare index, .search query k accept =>
    (index.search? machine query k fun label => some (accept (Int64.ofNat label))).map fun r =>
      (.bare index, .hits (Index.signedHits r))
  | .bare index, .searchRange query radius accept =>
    (index.searchRange? machine query radius fun label =>
      some (accept (Int64.ofNat label))).map fun r => (.bare index, .hits (Index.signedHits r))
  | .bare index, .append elements =>
    (index.append? machine elements).map fun r => (.bare r.1, .outcome r.2)
  | .bare index, .train sample =>
    (index.train? machine sample).map fun r => (.bare r.1, .outcome r.2)
  | .bare index, .tune ps => some (.bare (index.tune ps).1, .outcome (index.tune ps).2)
  | .mapped m, .search query k accept =>
    (m.search? machine query k accept).map fun r => (.mapped m, .hits r)
  | .mapped m, .searchRange query radius accept =>
    (m.searchRange? machine query radius accept).map fun r => (.mapped m, .hits r)
  | .mapped m, .appendWithIds elements ids =>
    (m.append? machine elements ids).map fun r => (.mapped r.1, .outcome r.2)
  | s, _ => some (s, .notOffered)

/-- Calls one after the other, with guarded accesses. -/
def run? (machine : Machine) : Stored S E → List (Call E) → Option (Stored S E × List Answer)
  | s, [] => some (s, [])
  | s, call :: calls => do
    let (next, answer) ← s.respond? machine call
    let (last, answers) ← next.run? machine calls
    return (last, answer :: answers)

omit [Space.GuardsCentroid S] in
/-- Whatever the calls leave behind fits in memory. -/
def StaysInMemory : Stored S E → List (Call E) → Prop
  | _, [] => True
  | s, call :: calls => (s.respond call).1.InMemory ∧ StaysInMemory (s.respond call).1 calls

/-- No access of any run in memory fails where there is room, and what it leaves behind
passes the check. -/
def Safe (s : Stored S E) : Prop :=
  ∀ calls, s.StaysInMemory calls →
    s.run? .unlimited calls = some (s.run calls) ∧ (s.run calls).1.check = .ok ()

/-! ## Single calls -/

variable [Space.KeepsWidth S] {s : Stored S E}

/-- No access of a call to a consistent index fails. -/
theorem respond?_eq (h : s.Consistent) (call : Call E) :
    s.respond? .unlimited call = some (s.respond call) := by
  cases s with
  | bare index =>
      have hindex : index.Consistent := h
      cases call with
      | search query k accept =>
          have hsearch :
              index.search? .unlimited query k (fun label => some (accept (Int64.ofNat label))) =
                some (index.search query k (accept ∘ Int64.ofNat)) :=
            Index.search?_eq hindex.searchable query (fun _ => index.canSearch_unlimited k)
              (Guarded.below_some _ _)
          rw [respond?, hsearch]
          rfl
      | searchRange query radius accept =>
          have hsearch : index.searchRange? .unlimited query radius
              (fun label => some (accept (Int64.ofNat label))) =
                some (index.searchRange query radius (accept ∘ Int64.ofNat)) :=
            Index.searchRange?_eq hindex.searchable query radius index.canSearchRange_unlimited
              (Guarded.below_some _ _)
          rw [respond?, hsearch]
          rfl
      | append elements =>
          rw [respond?, Index.append?_eq hindex fun _ => index.canAppend_unlimited _]
          rfl
      | appendWithIds elements ids => rfl
      | train sample =>
          rw [respond?, Index.train?_eq hindex fun _ => index.canTrain_unlimited]
          rfl
      | tune ps => rfl
  | mapped m =>
      have hm : m.Consistent := h
      cases call with
      | search query k accept =>
          rw [respond?, IdMap.search?_eq hm.index.searchable hm.ids query
            fun _ => m.index.canSearch_unlimited k]
          rfl
      | searchRange query radius accept =>
          have hagrees := IdMap.searchRange?_agrees .unlimited hm.index.searchable hm.ids query
            radius accept
          rw [respond?, hagrees.answered m.index.canSearchRange_unlimited]
          rfl
      | append elements => rfl
      | appendWithIds elements ids =>
          rw [respond?, IdMap.append?_eq hm.index fun _ => m.index.canAppend_unlimited _]
          rfl
      | train sample => rfl
      | tune ps => rfl

omit [Space.GuardsCentroid S] in
/-- A call leaves a consistent index consistent. -/
theorem respond_consistent (h : s.Consistent) {call : Call E}
    (hmemory : (s.respond call).1.InMemory) : (s.respond call).1.Consistent := by
  cases s with
  | bare index =>
      have hindex : index.Consistent := h
      cases call with
      | search query k accept => exact h
      | searchRange query radius accept => exact h
      | append elements => exact hindex.append_fst elements hmemory
      | appendWithIds elements ids => exact h
      | train sample => exact hindex.train sample hmemory
      | tune ps => exact hindex.tune ps
  | mapped m =>
      cases call with
      | search query k accept => exact h
      | searchRange query radius accept => exact h
      | append elements => exact h
      | appendWithIds elements ids => exact IdMap.Consistent.append h elements ids hmemory.1
      | train sample => exact h
      | tune ps => exact h

/-! ## Runs -/

/-- Runs of a consistent index do not fail and leave it consistent. -/
private theorem run?_eq (h : s.Consistent) {calls : List (Call E)}
    (hmemory : s.StaysInMemory calls) :
    s.run? .unlimited calls = some (s.run calls) ∧ (s.run calls).1.Consistent := by
  induction calls generalizing s with
  | nil => exact ⟨rfl, h⟩
  | cons call calls ih =>
      obtain ⟨hfirst, hrest⟩ := hmemory
      obtain ⟨hrun, hconsistent⟩ := ih (respond_consistent h hfirst) hrest
      refine ⟨?_, hconsistent⟩
      rw [run?, respond?_eq h, Option.bind_eq_bind, Option.bind_some]
      dsimp only
      rw [hrun]
      rfl

theorem Consistent.safe (h : s.Consistent) : s.Safe := by
  intro calls hmemory
  obtain ⟨hrun, hconsistent⟩ := run?_eq h hmemory
  exact ⟨hrun, check_eq_ok_iff.2 hconsistent⟩

end Stored

namespace Artifact

/-- **Accepted bytes are safe.**  The check answers on every value, in order or not,
so it fails no access itself.  Whatever bytes are accepted, no access of any
following calls fails, whatever their queries, filters and elements are, and the
index stays in order, as long as it fits in memory. -/
theorem ofBytes_safe :
    (∀ a : Artifact, a.check?.run = some a.check) ∧
      (∀ (bytes : List UInt8) (s : Stored FloatSpace Single),
        ofBytes bytes = .ok (.float s) → s.Safe) ∧
      (∀ (bytes : List UInt8) (s : Stored BinarySpace UInt8),
        ofBytes bytes = .ok (.binary s) → s.Safe) := by
  refine ⟨check?_eq, fun bytes s hread => ?_, fun bytes s hread => ?_⟩
  · obtain ⟨-, -, -, -, hcheck, -⟩ := (ofBytesWith_eq_ok_iff Blake3.length_hash).1 hread
    exact Stored.Consistent.safe (check_eq_ok_iff.1 hcheck)
  · obtain ⟨-, -, -, -, hcheck, -⟩ := (ofBytesWith_eq_ok_iff Blake3.length_hash).1 hread
    exact Stored.Consistent.safe (check_eq_ok_iff.1 hcheck)

/-- A graph that nothing builds: one of its nodes has no level, another has two of
them above a list that names a node twice, and searches start at the former. -/
def oddGraph : Stored BinarySpace UInt8 :=
  .mapped ⟨.graph ⟨⟨⟨⟩, 8, 1, #[1, 2, 7]⟩, 2, 1, 1,
    ⟨#[[[2, 2]], [], [[0, 1], [1]]], some 1, 3⟩, ⟨0⟩, 0⟩, #[5, 5, 6]⟩

private theorem oddGraph_kept : Kept (.binary oddGraph) where
  consistent := check_eq_ok_iff.1 rfl
  settings := by
    refine ⟨?_, ?_, ?_, ?_⟩
    all_goals decide
  memory := by
    have hlists : ∀ levels ∈ [[[2, 2]], [], [[0, 1], [1]]], ∀ list ∈ levels,
        list.length < Count.signedBound := by
      decide
    refine ⟨⟨?_, ?_, fun levels hl => hlists levels (Array.mem_toList_iff.2 hl)⟩, ?_⟩
    · show 3 < Count.signedBound
      decide
    · show 3 < Links.nodeBound
      decide
    · show 3 < Count.signedBound
      decide

/-- It is accepted, and a search of it answers although no link leads anywhere. -/
theorem ofBytes_safe_oddGraph :
    ofBytes (toBytes (.binary oddGraph)) = .ok (.binary oddGraph) ∧
      oddGraph.run? .unlimited [.search #[3] 2 (· == 5)] =
        some (oddGraph, [.hits (.ok [⟨5, .one⟩])]) := by
  have hread := oddGraph_kept.roundtrip (by decide +kernel)
  have hmemory : oddGraph.StaysInMemory [.search #[3] 2 (· == 5)] :=
    ⟨oddGraph_kept.memory, trivial⟩
  have hanswer : oddGraph.run [.search #[3] 2 (· == 5)] =
      (oddGraph, [.hits (.ok [⟨5, .one⟩])]) := by
    with_unfolding_all rfl
  obtain ⟨hrun, -⟩ := ofBytes_safe.2.2 _ oddGraph hread _ hmemory
  exact ⟨hread, hrun.trans (congrArg some hanswer)⟩

end Artifact

end Proximity

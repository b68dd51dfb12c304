import Mathlib.Algebra.GroupWithZero.Nat
import Proximity.Proofs.Requests.Separation

/-!
# What an engine keeps account of

An engine counts its calls, knows which artifacts are loaded and hands out handles.  These
are kept in different places and are changed on some paths only, so that they agree is
something to be proved.

Here every call is logged together with what came of it.  Whatever the calls were, in
whatever order and with whatever success, the engine agrees with its log: the handles that
loads answered with are one, two, three and so on; a handle names the artifact of the load
that answered with it, until it is freed, and no artifact otherwise; and every counter is
the number of the log's entries of its kind.  Queries leave no trace in an engine.

## Main definitions

* `Engine.Action`, `Engine.Reply`, `Engine.Entry` — calls, what comes of them, and both.
* `Engine.perform`, `Engine.run` — one call, and a log of calls.
* `Engine.Held` — the artifact of a handle, as the log has it.
* `Engine.Accounts` — an engine that agrees with a log.

## Main results

* `Engine.Accounts.perform` — the step.
* `Engine.run_accounts` — the run.
* `Engine.accounts_agree` — what a host can rely on.
-/

namespace Proximity

/-! ## One more entry -/

section Concat

variable {A B : Type} {f : A → Option B} {as : List A} {a : A}

private theorem filterMap_concat_of_none (h : f a = none) :
    (as ++ [a]).filterMap f = as.filterMap f := by
  rw [List.filterMap_append, List.filterMap_cons_none h]
  exact List.append_nil _

private theorem filterMap_concat_of_some {b : B} (h : f a = some b) :
    (as ++ [a]).filterMap f = as.filterMap f ++ [b] := by
  rw [List.filterMap_append, List.filterMap_cons_some h]
  rfl

end Concat

/-- What operation a request is counted as. -/
def Source.operation : Source → Operation
  | .described _ => .build
  | .template _ => .buildFromTemplate

namespace Engine

/-! ## Logs -/

/-- A call of a host.  The files are those that the call meets, whatever has become of them
since the call before. -/
inductive Action where
  | make (files : FileTree) (order : Order)
  | train (r : IndexRequest) (sample : HostVectors) (threads : Nat) (refused : Option String)
  | load (files : FileTree) (path : String)
  | free (handle : Nat)
  | query (handle : Nat) (vector : QueryVector) (k : Nat) (filter : Option (List Int64))
  | queryRange (handle : Nat) (vector : QueryVector) (radius : Single) (most : Nat)
      (filter : Option (List Int64))

/-- What comes of a call. -/
inductive Reply where
  | made (outcome : Except Error Summary)
  | trained (outcome : Except Error (List UInt8))
  | loaded (outcome : Except Error Nat)
  | freed (outcome : Except Error Unit)
  | found (outcome : Except Error (List QueryResult))

/-- A call and what came of it. -/
structure Entry where
  action : Action
  reply : Reply

/-- Makes a call. -/
def perform (e : Engine) : Action → Engine × Reply
  | .make files order =>
    let after := e.carryOut files order
    (after.1, .made after.2.2.outcome)
  | .train r sample threads refused =>
    let after := e.train r sample threads refused
    (after.1, .trained after.2.outcome)
  | .load files path =>
    let after := e.load files path
    (after.1, .loaded after.2)
  | .free handle =>
    let after := e.free handle
    (after.1, .freed after.2)
  | .query handle vector k filter => (e, .found (e.query handle vector k filter))
  | .queryRange handle vector radius most filter =>
    (e, .found (e.queryRange handle vector radius most filter))

/-- Makes calls one after the other, and logs them. -/
def run (e : Engine) (actions : List Action) : Engine × List Entry :=
  actions.foldl (fun s action =>
    ((s.1.perform action).1, s.2 ++ [⟨action, (s.1.perform action).2⟩])) (e, [])

theorem run_concat (e : Engine) (actions : List Action) (action : Action) :
    e.run (actions ++ [action]) =
      (((e.run actions).1.perform action).1,
        (e.run actions).2 ++ [⟨action, ((e.run actions).1.perform action).2⟩]) := by
  rw [run, List.foldl_append]
  rfl

/-! ## What a log says -/

/-- The error of an outcome. -/
def errorOf {A : Type} : Except Error A → Option Error
  | .ok _ => none
  | .error failure => some failure

/-- What a call is counted as; queries are not counted. -/
def Action.operation? : Action → Option Operation
  | .make _ order => some order.source.operation
  | .train .. => some .train
  | .load .. => some .load
  | .free _ => some .free
  | .query .. | .queryRange .. => none

def Reply.error? : Reply → Option Error
  | .made outcome => errorOf outcome
  | .trained outcome => errorOf outcome
  | .loaded outcome => errorOf outcome
  | .freed outcome => errorOf outcome
  | .found outcome => errorOf outcome

namespace Entry

/-- The operation of a counted call that succeeded. -/
def success? (x : Entry) : Option Operation :=
  match x.reply.error? with
  | none => x.action.operation?
  | some _ => none

/-- The operation of a counted call that failed, and the category of its error. -/
def failure? (x : Entry) : Option (Operation × ErrorCategory) :=
  match x.reply.error? with
  | none => none
  | some failure => x.action.operation?.map fun o => (o, failure.category)

/-- The number of vectors in an artifact that was built. -/
def vectors (x : Entry) : Nat :=
  match x.reply with
  | .made (.ok summary) => summary.total
  | _ => 0

/-- The handle that a load answered with. -/
def handle? (x : Entry) : Option Nat :=
  match x.reply with
  | .loaded (.ok handle) => some handle
  | _ => none

/-- A load found an artifact and answered with a handle. -/
def Loads (x : Entry) (handle : Nat) (a : Artifact) : Prop :=
  x.reply = .loaded (.ok handle) ∧
    ∃ files path, x.action = .load files path ∧ files.load path = .ok a

/-- A handle was freed, or was tried to be. -/
def Frees (x : Entry) (handle : Nat) : Prop := x.action = .free handle

theorem Loads.handle?_eq {x : Entry} {handle : Nat} {a : Artifact} (h : x.Loads handle a) :
    x.handle? = some handle := by
  rw [handle?, h.1]

end Entry

/-- A load answered with the handle, and it was not freed since. -/
def Held (log : List Entry) (handle : Nat) (a : Artifact) : Prop :=
  ∃ before x after, log = before ++ x :: after ∧ x.Loads handle a ∧ ∀ y ∈ after, ¬ y.Frees handle

/-- The handles that loads answered with, in order. -/
def handlesOf (log : List Entry) : List Nat := log.filterMap Entry.handle?

variable {log : List Entry} {x : Entry}

theorem held_concat_iff {handle : Nat} {a : Artifact} :
    Held (log ++ [x]) handle a ↔ x.Loads handle a ∨ Held log handle a ∧ ¬ x.Frees handle := by
  constructor
  · rintro ⟨before, y, after, hlog, hloads, hlater⟩
    rcases List.eq_nil_or_concat after with rfl | ⟨after, z, rfl⟩
    · obtain ⟨-, rfl⟩ := List.append_singleton_inj.1 hlog
      exact .inl hloads
    · have hsplit : log ++ [x] = (before ++ y :: after) ++ [z] := by simpa using hlog
      obtain ⟨rfl, rfl⟩ := List.append_singleton_inj.1 hsplit
      exact .inr ⟨⟨before, y, after, rfl, hloads, fun w hw => hlater w (by simp [hw])⟩,
        hlater x (by simp)⟩
  · rintro (hloads | ⟨⟨before, y, after, rfl, hloads, hlater⟩, hkept⟩)
    · exact ⟨log, x, [], rfl, hloads, fun y hy => absurd hy List.not_mem_nil⟩
    · refine ⟨before, y, after ++ [x], by simp, hloads, fun w hw => ?_⟩
      rcases List.mem_append.1 hw with hw | hw
      · exact hlater w hw
      · exact List.mem_singleton.1 hw ▸ hkept

end Engine

/-! ## Registries -/

namespace Registry

variable {r : Registry} {a : Artifact} {handle : Nat}

/-- Handles are in ascending order, all before the next one. -/
structure Ordered (r : Registry) : Prop where
  fresh : r.Fresh
  ascending : r.handles.Pairwise (· < ·)

theorem Ordered.insert (h : r.Ordered) (a : Artifact) : (r.insert a).1.Ordered where
  fresh := h.fresh.insert a
  ascending := by
    rw [handles, Registry.insert, List.map_append, List.pairwise_append]
    refine ⟨h.ascending, List.pairwise_singleton _ _, fun i hi j hj => ?_⟩
    obtain ⟨entry, hentry, rfl⟩ := List.mem_map.1 hi
    obtain rfl := List.mem_singleton.1 hj
    exact h.fresh entry hentry

theorem Ordered.remove (h : r.Ordered) (handle : Nat) : (r.remove handle).1.Ordered where
  fresh := h.fresh.remove handle
  ascending := by
    rw [Registry.remove]
    split
    · exact h.ascending.sublist (List.filter_sublist.map _)
    · exact h.ascending

private theorem lookup_of_mem {loaded : List (Nat × Artifact)}
    (h : (loaded.map (·.1)).Pairwise (· < ·)) (hmem : (handle, a) ∈ loaded) :
    loaded.lookup handle = some a := by
  induction loaded with
  | nil => exact absurd hmem List.not_mem_nil
  | cons entry loaded ih =>
      obtain ⟨hfirst, hrest⟩ := List.pairwise_cons.1 h
      rcases List.mem_cons.1 hmem with rfl | hmem
      · exact List.lookup_cons_self
      · have hlt : entry.1 < handle := hfirst handle (List.mem_map_of_mem hmem)
        have hne : (handle == entry.1) = false := beq_false_of_ne (Nat.ne_of_gt hlt)
        rw [List.lookup_cons, hne]
        exact ih hrest hmem

/-- The artifact of a handle is the one that is registered under it. -/
theorem Ordered.get_eq_ok_iff (h : r.Ordered) : r.get handle = .ok a ↔ (handle, a) ∈ r.loaded := by
  constructor
  · intro hget
    rw [get] at hget
    split at hget
    · rename_i found hfound
      obtain rfl := Except.ok.inj hget
      obtain ⟨before, after, hloaded, -⟩ := List.lookup_eq_some_iff.1 hfound
      rw [hloaded]
      exact List.mem_append_right _ List.mem_cons_self
    · cases hget
  · intro hmem
    rw [get, lookup_of_mem h.ascending hmem]

/-- A registry has an artifact, or does not know the handle. -/
theorem get_cases (r : Registry) (handle : Nat) :
    (∃ a, r.get handle = .ok a) ∨ r.get handle = .error (.unknownHandle handle) := by
  rw [get]
  split
  · exact .inl ⟨_, rfl⟩
  · exact .inr rfl

theorem mem_handles_iff : handle ∈ r.handles ↔ ∃ a, (handle, a) ∈ r.loaded := by
  rw [handles, List.mem_map]
  constructor
  · rintro ⟨⟨_, a⟩, hmem, rfl⟩
    exact ⟨a, hmem⟩
  · rintro ⟨a, hmem⟩
    exact ⟨_, hmem, rfl⟩

/-- A registry agrees with a log. -/
structure Keeps (r : Registry) (log : List Engine.Entry) : Prop where
  ordered : r.Ordered
  next : r.next = (Engine.handlesOf log).length + 1
  inOrder : Engine.handlesOf log = List.range' 1 (Engine.handlesOf log).length
  held : ∀ handle a, (handle, a) ∈ r.loaded ↔ Engine.Held log handle a

variable {log : List Engine.Entry}

/-- An entry that loads nothing and frees nothing that is loaded. -/
theorem Keeps.same {x : Engine.Entry} (h : r.Keeps log) (hnone : x.handle? = none)
    (hkept : ∀ handle a, (handle, a) ∈ r.loaded → ¬ x.Frees handle) : r.Keeps (log ++ [x]) := by
  have hlog : Engine.handlesOf (log ++ [x]) = Engine.handlesOf log :=
    filterMap_concat_of_none hnone
  refine ⟨h.ordered, hlog ▸ h.next, hlog ▸ h.inOrder, fun handle a => ?_⟩
  rw [Engine.held_concat_iff, ← h.held]
  constructor
  · exact fun hmem => .inr ⟨hmem, hkept handle a hmem⟩
  · rintro (hloads | ⟨hmem, -⟩)
    · rw [hloads.handle?_eq] at hnone
      cases hnone
    · exact hmem

theorem Keeps.insert (h : r.Keeps log) {files : FileTree} {path : String}
    (hload : files.load path = .ok a) :
    (r.insert a).1.Keeps (log ++ [⟨.load files path, .loaded (.ok r.next)⟩]) := by
  have hlog : Engine.handlesOf (log ++ [⟨.load files path, .loaded (.ok r.next)⟩]) =
      Engine.handlesOf log ++ [r.next] := filterMap_concat_of_some rfl
  refine ⟨h.ordered.insert a, ?_, ?_, fun handle b => ?_⟩
  · rw [hlog, List.length_append]
    exact congrArg (· + 1) h.next
  · rw [hlog, List.length_append, List.length_singleton, List.range'_1_concat, ← h.inOrder,
      Nat.add_comm 1, ← h.next]
  · rw [Registry.insert, List.mem_append, List.mem_singleton, Engine.held_concat_iff, ← h.held]
    constructor
    · rintro (hmem | hnew)
      · exact .inr ⟨hmem, by simp [Engine.Entry.Frees]⟩
      · obtain ⟨rfl, rfl⟩ := Prod.mk.inj hnew
        exact .inl ⟨rfl, files, path, rfl, hload⟩
    · rintro (⟨hreply, files', path', haction, hfound⟩ | ⟨hmem, -⟩)
      · obtain ⟨rfl, rfl⟩ := Engine.Action.load.inj haction
        obtain rfl := Except.ok.inj (hload.symm.trans hfound)
        obtain rfl := Except.ok.inj (Engine.Reply.loaded.inj hreply)
        exact .inr rfl
      · exact .inl hmem

theorem Keeps.remove (h : r.Keeps log) (handle : Nat) :
    (r.remove handle).1.Keeps (log ++ [⟨.free handle, .freed (r.remove handle).2⟩]) := by
  have hordered := h.ordered.remove handle
  rw [Registry.remove] at hordered ⊢
  split at hordered
  · have hlog : Engine.handlesOf (log ++ [⟨.free handle, .freed (.ok ())⟩]) =
        Engine.handlesOf log := filterMap_concat_of_none rfl
    refine ⟨hordered, hlog ▸ h.next, hlog ▸ h.inOrder, fun other a => ?_⟩
    rw [List.mem_filter, Engine.held_concat_iff, ← h.held]
    constructor
    · rintro ⟨hmem, hne⟩
      refine .inr ⟨hmem, fun hfrees => ?_⟩
      obtain rfl := Engine.Action.free.inj hfrees
      simp at hne
    · rintro (⟨hreply, -⟩ | ⟨hmem, hkept⟩)
      · cases hreply
      · refine ⟨hmem, bne_iff_ne.2 fun heq => hkept ?_⟩
        exact congrArg Engine.Action.free heq.symm
  · rename_i hnone
    refine h.same rfl fun other a hmem hfrees => ?_
    obtain rfl := Engine.Action.free.inj hfrees
    have hdifferent := List.lookup_eq_none_iff.1 hnone _ hmem
    simp at hdifferent

end Registry

/-! ## Counters -/

namespace Metrics

/-- Counters agree with a log. -/
structure Counts (m : Metrics) (log : List Engine.Entry) : Prop where
  successes : ∀ o, m.successes o = (log.filterMap Engine.Entry.success?).count o
  failures : ∀ o, m.failures o = ((log.filterMap Engine.Entry.failure?).map (·.1)).count o
  errors : ∀ c, m.errors c = ((log.filterMap Engine.Entry.failure?).map (·.2)).count c
  vectors : m.vectorsIndexed = (log.map Engine.Entry.vectors).sum

variable {m : Metrics} {log : List Engine.Entry} {x : Engine.Entry}

/-- How many artifacts are loaded is no matter of these counters. -/
theorem Counts.setLoaded (h : m.Counts log) (loaded : Nat) : { m with loaded }.Counts log :=
  ⟨h.successes, h.failures, h.errors, h.vectors⟩

private theorem bump_count {A : Type} [DecidableEq A] {counter : A → Nat} {as : List A}
    (h : ∀ b, counter b = as.count b) (a b : A) : bump counter a b = (as ++ [a]).count b := by
  rw [bump, List.count_append, List.count_singleton, ← h]
  by_cases hab : b = a
  · simp [hab]
  · simp [hab, Ne.symm hab]

/-- A call that is not counted. -/
theorem Counts.skip (h : m.Counts log) (hoperation : x.action.operation? = none)
    (hvectors : x.vectors = 0) : m.Counts (log ++ [x]) := by
  have hsuccess : x.success? = none := by
    rw [Engine.Entry.success?, hoperation]
    split <;> rfl
  have hfailure : x.failure? = none := by
    rw [Engine.Entry.failure?, hoperation]
    split <;> rfl
  refine ⟨?_, ?_, ?_, ?_⟩
  · rw [filterMap_concat_of_none hsuccess]
    exact h.successes
  · rw [filterMap_concat_of_none hfailure]
    exact h.failures
  · rw [filterMap_concat_of_none hfailure]
    exact h.errors
  · rw [List.map_append, List.sum_append, h.vectors]
    simp [hvectors]

/-- A call that is counted. -/
theorem Counts.record (h : m.Counts log) {operation : Operation}
    (hoperation : x.action.operation? = some operation) :
    { m.record operation x.reply.error? with
      vectorsIndexed := m.vectorsIndexed + x.vectors }.Counts (log ++ [x]) := by
  have hvectors : m.vectorsIndexed + x.vectors =
      ((log ++ [x]).map Engine.Entry.vectors).sum := by
    rw [List.map_append, List.sum_append, h.vectors]
    simp
  cases herror : x.reply.error? with
  | none =>
      have hsuccess : x.success? = some operation := by
        rw [Engine.Entry.success?, herror, hoperation]
      have hfailure : x.failure? = none := by
        rw [Engine.Entry.failure?, herror]
      refine ⟨?_, ?_, ?_, hvectors⟩
      · rw [filterMap_concat_of_some hsuccess]
        exact bump_count h.successes operation
      · rw [filterMap_concat_of_none hfailure]
        exact h.failures
      · rw [filterMap_concat_of_none hfailure]
        exact h.errors
  | some failure =>
      have hsuccess : x.success? = none := by
        rw [Engine.Entry.success?, herror]
      have hfailure : x.failure? = some (operation, failure.category) := by
        rw [Engine.Entry.failure?, herror, hoperation]
        rfl
      refine ⟨?_, ?_, ?_, hvectors⟩
      · rw [filterMap_concat_of_none hsuccess]
        exact h.successes
      · rw [filterMap_concat_of_some hfailure, List.map_append]
        exact bump_count h.failures operation
      · rw [filterMap_concat_of_some hfailure, List.map_append]
        exact bump_count h.errors failure.category

/-- A call that is counted and builds nothing. -/
theorem Counts.recordOnly (h : m.Counts log) {operation : Operation}
    (hoperation : x.action.operation? = some operation) (hvectors : x.vectors = 0) :
    (m.record operation x.reply.error?).Counts (log ++ [x]) := by
  have hrecord := h.record hoperation
  rw [hvectors, Nat.add_zero] at hrecord
  have hsame : (m.record operation x.reply.error?).vectorsIndexed = m.vectorsIndexed := by
    cases x.reply.error? <;> rfl
  rwa [← hsame] at hrecord

private theorem sum_count_cons {A : Type} [DecidableEq A] (all as : List A) (a : A) :
    (all.map fun b => (a :: as).count b).sum = (all.map fun b => as.count b).sum + all.count a := by
  induction all with
  | nil => rfl
  | cons b all ih =>
      rw [List.map_cons, List.sum_cons, ih, List.map_cons, List.sum_cons, List.count_cons,
        List.count_cons]
      by_cases hab : a = b
      · simp only [hab, beq_self_eq_true, if_true]
        omega
      · rw [beq_false_of_ne hab, beq_false_of_ne (Ne.symm hab)]
        simp only [Bool.false_eq_true, if_false]
        omega

/-- The counts of all values there are make up the length of a list. -/
private theorem sum_count {A : Type} [DecidableEq A] {all : List A}
    (hall : ∀ a, all.count a = 1) (as : List A) :
    (all.map fun a => as.count a).sum = as.length := by
  induction as with
  | nil => simp
  | cons a as ih => rw [sum_count_cons, ih, hall, List.length_cons]

/-- Failures add up to the same number by operation and by category. -/
theorem Counts.sums (h : m.Counts log) :
    (Operation.all.map m.failures).sum = (log.filterMap Engine.Entry.failure?).length ∧
      (ErrorCategory.all.map m.errors).sum = (log.filterMap Engine.Entry.failure?).length := by
  constructor
  · rw [funext h.failures, sum_count fun o => by cases o <;> rfl, List.length_map]
  · rw [funext h.errors, sum_count fun c => by cases c <;> rfl, List.length_map]

end Metrics

/-! ## Engines -/

namespace Engine

/-- An engine agrees with a log. -/
structure Accounts (e : Engine) (log : List Entry) : Prop where
  counts : e.metrics.Counts log
  keeps : e.registry.Keeps log
  loaded : e.metrics.loaded = e.registry.loaded.length

variable {e : Engine} {log : List Entry}

theorem metrics_record {A : Type} (e : Engine) (operation : Operation) (outcome : Except Error A) :
    (e.record operation outcome).metrics = e.metrics.record operation (errorOf outcome) := by
  cases outcome <;> rfl

theorem loaded_record {A : Type} (e : Engine) (operation : Operation) (outcome : Except Error A) :
    (e.record operation outcome).metrics.loaded = e.metrics.loaded := by
  cases outcome <;> rfl

/-- What was stored is counted with its vectors. -/
theorem metrics_countStored (e : Engine) (operation : Operation) (action : Action)
    (outcome : Except Error Summary) : (e.countStored operation outcome).metrics =
      { e.metrics.record operation (errorOf outcome) with
        vectorsIndexed := e.metrics.vectorsIndexed + Entry.vectors ⟨action, .made outcome⟩ } := by
  cases outcome <;> rfl

theorem registry_countStored (e : Engine) (operation : Operation)
    (outcome : Except Error Summary) : (e.countStored operation outcome).registry = e.registry := by
  cases outcome <;> rfl

/-- A request leaves an engine that has counted its outcome. -/
theorem carryOut_eq (e : Engine) (files : FileTree) (order : Order) :
    (e.carryOut files order).1 =
      (e.workers order.threads order.refused.workers).1.countStored order.source.operation
        (e.carryOut files order).2.2.outcome := by
  rw [carryOut]
  cases order.source <;> rfl

theorem Accounts.make (h : e.Accounts log) (files : FileTree) (order : Order) :
    (e.carryOut files order).1.Accounts
      (log ++ [⟨.make files order, .made (e.carryOut files order).2.2.outcome⟩]) := by
  generalize hreply : (e.carryOut files order).2.2.outcome = outcome
  have hregistry : (e.carryOut files order).1.registry = e.registry := by
    rw [carryOut_eq, registry_countStored]
    rfl
  refine ⟨?_, ?_, ?_⟩
  · rw [carryOut_eq, hreply, metrics_countStored _ _ (.make files order)]
    exact h.counts.record (x := ⟨.make files order, .made outcome⟩) rfl
  · rw [hregistry]
    exact h.keeps.same rfl fun _ _ _ hfrees => nomatch hfrees
  · rw [hregistry, ← h.loaded, carryOut_eq, hreply]
    cases outcome <;> rfl

theorem Accounts.train (h : e.Accounts log) (r : IndexRequest) (sample : HostVectors)
    (threads : Nat) (refused : Option String) : (e.train r sample threads refused).1.Accounts
      (log ++ [⟨.train r sample threads refused,
        .trained (e.train r sample threads refused).2.outcome⟩]) := by
  refine ⟨?_, ?_, ?_⟩
  · rw [Engine.train]
    dsimp only
    rw [metrics_record]
    exact h.counts.recordOnly (x := ⟨.train r sample threads refused, .trained _⟩) rfl rfl
  · exact h.keeps.same rfl fun _ _ _ hfrees => nomatch hfrees
  · exact (loaded_record _ _ _).trans h.loaded

theorem load_eq_of_error (e : Engine) {files : FileTree} {path : String} {failure : Error}
    (hload : files.load path = .error failure) : e.load files path =
      (e.record .load (.error failure : Except Error Nat), .error failure) := by
  rw [Engine.load, hload]

theorem load_eq_of_ok (e : Engine) {files : FileTree} {path : String} {a : Artifact}
    (hload : files.load path = .ok a) : e.load files path =
      ((e.register a).1.record .load (.ok e.registry.next : Except Error Nat),
        .ok e.registry.next) := by
  rw [Engine.load, hload]
  rfl

theorem Accounts.load (h : e.Accounts log) (files : FileTree) (path : String) :
    (e.load files path).1.Accounts
      (log ++ [⟨.load files path, .loaded (e.load files path).2⟩]) := by
  cases hload : files.load path with
  | error failure =>
      rw [load_eq_of_error e hload]
      refine ⟨?_, ?_, h.loaded⟩
      · exact h.counts.recordOnly (x := ⟨.load files path, .loaded (.error failure)⟩) rfl rfl
      · exact h.keeps.same rfl fun _ _ _ hfrees => nomatch hfrees
  | ok a =>
      rw [load_eq_of_ok e hload]
      refine ⟨?_, h.keeps.insert hload, rfl⟩
      exact (h.counts.setLoaded _).recordOnly
        (x := ⟨.load files path, .loaded (.ok e.registry.next)⟩) rfl rfl

theorem Accounts.free (h : e.Accounts log) (handle : Nat) :
    (e.free handle).1.Accounts (log ++ [⟨.free handle, .freed (e.free handle).2⟩]) := by
  refine ⟨?_, h.keeps.remove handle, loaded_record _ _ _⟩
  rw [Engine.free]
  dsimp only
  rw [metrics_record]
  exact (h.counts.setLoaded _).recordOnly (x := ⟨.free handle, .freed _⟩) rfl rfl

/-- Every call is accounted for. -/
theorem Accounts.perform (h : e.Accounts log) (action : Action) :
    (e.perform action).1.Accounts (log ++ [⟨action, (e.perform action).2⟩]) := by
  cases action with
  | make files order => exact h.make files order
  | train r sample threads refused => exact h.train r sample threads refused
  | load files path => exact h.load files path
  | free handle => exact h.free handle
  | query handle vector k filter =>
      exact ⟨h.counts.skip rfl rfl, h.keeps.same rfl (fun _ _ _ hfrees => nomatch hfrees), h.loaded⟩
  | queryRange handle vector radius most filter =>
      exact ⟨h.counts.skip rfl rfl, h.keeps.same rfl (fun _ _ _ hfrees => nomatch hfrees), h.loaded⟩

theorem start_accounts (config : Config) (machineThreads : Nat) :
    (start config machineThreads).Accounts [] where
  counts := ⟨fun _ => rfl, fun _ => rfl, fun _ => rfl, rfl⟩
  keeps := by
    have hfresh : (start config machineThreads).registry.Fresh :=
      fun entry hentry => absurd hentry List.not_mem_nil
    refine ⟨⟨hfresh, List.Pairwise.nil⟩, rfl, rfl, fun handle a => ⟨fun hmem => ?_, ?_⟩⟩
    · exact absurd hmem List.not_mem_nil
    · rintro ⟨before, x, after, hlog, -⟩
      simp at hlog
  loaded := rfl

/-- After any calls, an engine agrees with the log of these. -/
theorem run_accounts (h : e.Accounts []) (actions : List Action) :
    (e.run actions).1.Accounts (e.run actions).2 := by
  -- A log grows at its end, so this is an induction on the last call.
  induction actions using List.reverseRecOn with
  | nil => exact h
  | append_singleton actions action ih =>
      rw [run_concat]
      exact ih.perform action

/-- The log names the calls in their order. -/
theorem map_action_run (e : Engine) (actions : List Action) :
    (e.run actions).2.map (·.action) = actions := by
  induction actions using List.reverseRecOn with
  | nil => rfl
  | append_singleton actions action ih =>
      rw [run_concat, List.map_append, ih]
      rfl

/-- A call that fails leaves the registry alone. -/
theorem registry_perform_of_error {action : Action} {failure : Error}
    (h : (e.perform action).2.error? = some failure) :
    (e.perform action).1.registry = e.registry := by
  cases action with
  | make files order =>
      show (e.carryOut files order).1.registry = e.registry
      rw [carryOut_eq, registry_countStored]
      rfl
  | train r sample threads refused => rfl
  | load files path =>
      have herror : errorOf (e.load files path).2 = some failure := h
      show (e.load files path).1.registry = e.registry
      rw [Engine.load] at herror ⊢
      split at herror
      · rfl
      · cases herror
  | free handle =>
      have herror : errorOf (e.free handle).2 = some failure := h
      have hremove : errorOf (e.registry.remove handle).2 = some failure := herror
      show (e.registry.remove handle).1 = e.registry
      rw [Registry.remove] at hremove ⊢
      split at hremove
      · cases hremove
      · rfl
  | query handle vector k filter => rfl
  | queryRange handle vector radius most filter => rfl

/-- **Accounts of an engine.**  Let a host make any calls on a new engine, and let every call
be logged with what came of it.  The handles that loads answered with are one, two, three and
so on.  A handle names the artifact of the load that answered with it, until it is freed, and
is not known at any other time; a call that fails leaves the registry as it was.  As many
artifacts are said to be loaded as there are handles that name one.  Operations are counted by
outcome and failures by category, each as often as the log has them, so that both counts of
failures add up to the same number, and the vectors are counted of what was built.  Queries
change nothing. -/
theorem accounts_agree (config : Config) (machineThreads : Nat) (actions : List Action) :
    let e := ((start config machineThreads).run actions).1
    let log := ((start config machineThreads).run actions).2
    log.map (·.action) = actions ∧
    handlesOf log = List.range' 1 (handlesOf log).length ∧
    (∀ handle a, e.registry.get handle = .ok a ↔ Held log handle a) ∧
    (∀ handle, (∀ a, ¬ Held log handle a) →
      e.registry.get handle = .error (.unknownHandle handle)) ∧
    (∀ action failure, (e.perform action).2.error? = some failure →
      (e.perform action).1.registry = e.registry) ∧
    e.metrics.loaded = e.registry.handles.length ∧ e.registry.handles.Pairwise (· < ·) ∧
    (∀ handle, handle ∈ e.registry.handles ↔ ∃ a, Held log handle a) ∧
    (∀ o, e.metrics.successes o = (log.filterMap Entry.success?).count o ∧
      e.metrics.failures o = ((log.filterMap Entry.failure?).map (·.1)).count o) ∧
    (∀ c, e.metrics.errors c = ((log.filterMap Entry.failure?).map (·.2)).count c) ∧
    (ErrorCategory.all.map e.metrics.errors).sum = (Operation.all.map e.metrics.failures).sum ∧
    e.metrics.vectorsIndexed = (log.map Entry.vectors).sum ∧
    (∀ handle vector k filter, (e.perform (.query handle vector k filter)).1 = e) ∧
    ∀ handle vector radius most filter,
      (e.perform (.queryRange handle vector radius most filter)).1 = e := by
  intro e log
  have h : e.Accounts log := run_accounts (start_accounts config machineThreads) actions
  have hget : ∀ handle a, e.registry.get handle = .ok a ↔ Held log handle a :=
    fun handle a => h.keeps.ordered.get_eq_ok_iff.trans (h.keeps.held handle a)
  refine ⟨map_action_run _ actions, h.keeps.inOrder, hget, fun handle hnone => ?_,
    fun action failure hfails => registry_perform_of_error hfails, ?_, h.keeps.ordered.ascending,
    fun handle => ?_, fun o => ⟨h.counts.successes o, h.counts.failures o⟩, h.counts.errors,
    h.counts.sums.2.trans h.counts.sums.1.symm, h.counts.vectors, fun _ _ _ _ => rfl,
    fun _ _ _ _ _ => rfl⟩
  · rcases e.registry.get_cases handle with ⟨a, ha⟩ | hunknown
    · exact absurd ((hget handle a).1 ha) (hnone a)
    · exact hunknown
  · rw [h.loaded, Registry.handles, List.length_map]
  · rw [Registry.mem_handles_iff]
    exact exists_congr fun a => h.keeps.held handle a

/-- A template in a tree of one file. -/
def oneFile : FileTree := ⟨[(["a"], .file plainBlank.toBytes)]⟩

private theorem load_oneFile : oneFile.load "a" = .ok plainBlank := by
  have hplace : oneFile.placeForFile? "a" = some ["a"] :=
    FileTree.placeForFile?_name (by decide : Route.PlainName "a") rfl
  exact FileTree.load_of_bytes? (FileTree.bytes?_eq_some_of_place hplace rfl) reload_plainBlank

/-- An artifact is loaded twice and freed twice under its first handle: the second time fails
and is counted, and the artifact is still there under its second handle. -/
theorem accounts_agree_freedTwice :
    let run := (start .standard 1).run [.load oneFile "a", .load oneFile "a", .free 1, .free 1]
    handlesOf run.2 = [1, 2] ∧ run.1.metrics.loaded = 1 ∧ run.1.metrics.failures .free = 1 ∧
      run.1.metrics.errors .host = 1 ∧ Held run.2 2 plainBlank ∧ ¬ Held run.2 1 plainBlank := by
  intro run
  have hrun : run = (start .standard 1).run
      [.load oneFile "a", .load oneFile "a", .free 1, .free 1] := rfl
  simp only [Engine.run, List.foldl_cons, List.foldl_nil, Engine.perform,
    load_eq_of_ok _ load_oneFile] at hrun
  obtain ⟨-, -, hget, -⟩ := accounts_agree .standard 1
    [.load oneFile "a", .load oneFile "a", .free 1, .free 1]
  have htwo : run.1.registry.get 2 = .ok plainBlank := by
    rw [hrun]
    rfl
  have hone : run.1.registry.get 1 = .error (.unknownHandle 1) := by
    rw [hrun]
    rfl
  refine ⟨?_, ?_, ?_, ?_, (hget 2 plainBlank).1 htwo, fun hheld => ?_⟩
  · rw [hrun]
    rfl
  · rw [hrun]
    rfl
  · rw [hrun]
    rfl
  · rw [hrun]
    rfl
  · have hknown : run.1.registry.get 1 = .ok plainBlank := (hget 1 plainBlank).2 hheld
    rw [hone] at hknown
    cases hknown

end Engine

end Proximity

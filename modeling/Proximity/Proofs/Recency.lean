import Mathlib.Data.List.Dedup
import Proximity.Host.Pools

/-!
# Which pools are kept

A cache of pools stamps a kept pool with the time of its last use, and drops the one with
the oldest stamp when a new pool needs room.  What comes of that is the list of the sizes
asked for, each where it was asked for last, cut to as many as may be kept: stamps, order
of insertion and the loop that makes room leave no other trace.

The design fact is that both kinds of call do the same to the pools in order of their last
use.  The pool that answers goes to the front, every other pool of its size is taken out,
and the rest is cut to leave one place for the front.  A pool that was kept has no room to
be cut out of, and a pool that is new has no other of its size.

## Main definitions

* `PoolCache.serve` — calls one after the other.
* `PoolCache.asked`, `PoolCache.latestFirst` — the sizes that hints ask for, and each of
  them once, the one asked for last in front.
* `PoolCache.Tracks` — the kept pools in order of their last use, for the sizes asked for.

## Main results

* `PoolCache.Tracks.requestPool`, `PoolCache.Tracks.serve` — a call, and a run of calls.
* `PoolCache.serves_recent` — what a host can rely on.
-/

namespace Proximity

namespace PoolCache

/-! ## Sizes in the order in which they were last asked for -/

/-- The cache after calls with some hints. -/
def serve (c : PoolCache) (hints : List Nat) : PoolCache :=
  hints.foldl (fun c hint => (c.request hint none).1) c

/-- The sizes that hints ask for, where pools have at most `limit` workers. -/
def asked (limit : Nat) (hints : List Nat) : List Nat :=
  (hints.filter (· ≠ 0)).map (min · limit)

/-- Some sizes without repetition, the one asked for last in front. -/
def latestFirst (sizes : List Nat) : List Nat := sizes.dedup.reverse

/-- The kept pools by their last use, the latest in front. -/
def byLastUse (c : PoolCache) : List KeptPool :=
  c.kept.mergeSort fun a b => decide (b.lastUse ≤ a.lastUse)

theorem nodup_latestFirst (sizes : List Nat) : (latestFirst sizes).Nodup :=
  List.nodup_reverse.2 (List.nodup_dedup sizes)

/-- A size that is asked for goes to the front. -/
theorem latestFirst_concat (sizes : List Nat) (s : Nat) :
    latestFirst (sizes ++ [s]) = s :: (latestFirst sizes).filter (· ≠ s) := by
  have hdedup : (sizes ++ [s]).dedup = sizes.dedup.filter (· ≠ s) ++ [s] := by
    induction sizes with
    | nil => rfl
    | cons a sizes ih =>
        by_cases ha : a ∈ sizes
        · rw [List.cons_append, List.dedup_cons_of_mem (List.mem_append_left _ ha), ih,
            List.dedup_cons_of_mem ha]
        · by_cases has : a = s
          · subst has
            rw [List.cons_append, List.dedup_cons_of_mem (by simp), ih,
              List.dedup_cons_of_notMem ha]
            simp
          · rw [List.cons_append, List.dedup_cons_of_notMem (by simp [ha, has]), ih,
              List.dedup_cons_of_notMem ha]
            simp [has]
  rw [latestFirst, hdedup, List.reverse_append, latestFirst, List.filter_reverse]
  rfl

/-- What was asked for after the last request for a size comes before it. -/
theorem latestFirst_append {s : Nat} (before : List Nat) {between : List Nat}
    (hs : s ∉ between) : ∃ older,
      latestFirst (before ++ s :: between) = latestFirst between ++ s :: older := by
  have hsuffix : s :: between.dedup <:+ (before ++ s :: between).dedup := by
    rw [List.dedup_append, List.dedup_cons_of_notMem hs]
    exact List.suffix_union_right _ _
  obtain ⟨older, holder⟩ := hsuffix
  refine ⟨older.reverse, ?_⟩
  simp [latestFirst, ← holder]

private theorem filter_ne_of_notMem {sizes : List Nat} {s : Nat} (h : s ∉ sizes) :
    sizes.filter (· ≠ s) = sizes := by
  rw [List.filter_eq_self]
  intro a ha
  have hne : a ≠ s := fun has => h (has ▸ ha)
  simpa using hne

/-- Of the first sizes, the others are the first others. -/
private theorem take_filter_take {sizes : List Nat} (h : sizes.Nodup) (s n : Nat) :
    ((sizes.take (n + 1)).filter (· ≠ s)).take n = (sizes.filter (· ≠ s)).take n := by
  induction sizes generalizing n with
  | nil => simp
  | cons a sizes ih =>
      obtain ⟨ha, hrest⟩ := List.nodup_cons.1 h
      by_cases has : a = s
      · subst has
        have hfirst : a ∉ sizes.take n := fun hmem => ha (List.mem_of_mem_take hmem)
        rw [List.take_succ_cons, List.filter_cons_of_neg (by simp),
          List.filter_cons_of_neg (by simp), filter_ne_of_notMem hfirst, filter_ne_of_notMem ha,
          List.take_take, Nat.min_self]
      · rw [List.take_succ_cons, List.filter_cons_of_pos (by simpa using has),
          List.filter_cons_of_pos (by simpa using has)]
        cases n with
        | zero => rfl
        | succ n => rw [List.take_succ_cons, List.take_succ_cons, ih hrest]

/-! ## Room -/

/-- The pool whose last use is the longest ago is dropped, and no other. -/
private theorem dropOldest_perm {used kept : List KeptPool} {last : KeptPool}
    (hperm : (used ++ [last]).Perm kept)
    (hlatest : (used ++ [last]).Pairwise fun a b => b.lastUse < a.lastUse) :
    used.Perm (dropOldest kept) := by
  obtain ⟨-, -, hlast⟩ := List.pairwise_append.1 hlatest
  have hbefore : ∀ k ∈ used, last.lastUse < k.lastUse := fun k hk =>
    hlast k hk last (List.mem_singleton_self last)
  have holdest : oldestUse kept = some last.lastUse := by
    rw [oldestUse, List.min?_eq_some_iff]
    constructor
    · exact List.mem_map.2 ⟨last, hperm.mem_iff.1 (by simp), rfl⟩
    · intro use huse
      obtain ⟨k, hk, rfl⟩ := List.mem_map.1 huse
      rcases List.mem_append.1 (hperm.mem_iff.2 hk) with hk | hk
      · exact Nat.le_of_lt (hbefore k hk)
      · exact Nat.le_of_eq (congrArg KeptPool.lastUse (List.mem_singleton.1 hk)).symm
  have hfilter : (used ++ [last]).filter (fun k => k.lastUse != last.lastUse) = used := by
    have hused : used.filter (fun k => k.lastUse != last.lastUse) = used :=
      List.filter_eq_self.2 fun k hk => by
        have hlt := hbefore k hk
        simp only [bne_iff_ne, ne_eq]
        omega
    rw [List.filter_append, hused]
    simp
  rw [dropOldest, holdest]
  have hdropped := hperm.filter fun k => k.lastUse != last.lastUse
  rwa [hfilter] at hdropped

/-- Making room cuts the pools, in order of their last use, to one less than may be kept. -/
private theorem makeRoom_perm {used kept : List KeptPool} {maxPools : Nat}
    (hpos : 0 < maxPools) (hperm : used.Perm kept)
    (hlatest : used.Pairwise fun a b => b.lastUse < a.lastUse)
    (hlength : used.length ≤ maxPools) :
    (used.take (maxPools - 1)).Perm (makeRoom maxPools kept.length kept) := by
  by_cases hfull : used.length = maxPools
  · obtain ⟨before, last, rfl⟩ : ∃ before last, used = before ++ [last] :=
      (List.eq_nil_or_concat' used).resolve_left fun hnil => by
        rw [hnil, List.length_nil] at hfull
        omega
    have hdrop := dropOldest_perm hperm hlatest
    have hkept : kept.length = maxPools - 1 + 1 := by
      rw [← hperm.length_eq, hfull]
      omega
    have hbefore : before.length = maxPools - 1 := by
      rw [List.length_append, List.length_singleton] at hfull
      omega
    have hroom : ¬ maxPools ≤ (dropOldest kept).length := by
      rw [← hdrop.length_eq]
      omega
    have htwice : ∀ fuel, makeRoom maxPools fuel (dropOldest kept) = dropOldest kept := by
      intro fuel
      cases fuel with
      | zero => rfl
      | succ fuel => rw [makeRoom, if_neg hroom]
    rw [hkept, makeRoom, if_pos (by omega), htwice, ← hbefore, List.take_left']
    · exact hdrop
    · rfl
  · have hroom : ¬ maxPools ≤ kept.length := by
      rw [← hperm.length_eq]
      omega
    have hself : makeRoom maxPools kept.length kept = kept := by
      cases kept with
      | nil => rfl
      | cons k kept => rw [List.length_cons, makeRoom, if_neg hroom]
    rw [hself, List.take_of_length_le (by omega)]
    exact hperm

/-! ## A call -/

/-- The time of a use is noted at the pools of a size. -/
def touch (threads now : Nat) (k : KeptPool) : KeptPool :=
  if k.pool.threads == threads then { k with lastUse := now } else k

/-- What a request for a pool can do: it finds a pool of the size, or makes one. -/
theorem requestPool_cases (c : PoolCache) (s : Nat) :
    (∃ k ∈ c.kept, k.pool.threads = s ∧
      c.requestPool s =
        ({ c with clock := c.clock + 1, kept := c.kept.map (touch s (c.clock + 1)) },
          k.pool)) ∨
    ((∀ k ∈ c.kept, k.pool.threads ≠ s) ∧
      c.requestPool s =
        ({ c with
            clock := c.clock + 1
            nextSerial := c.nextSerial + 1
            kept := makeRoom c.maxPools c.kept.length c.kept ++
              [⟨⟨s, c.nextSerial⟩, c.clock + 1⟩] },
          ⟨s, c.nextSerial⟩)) := by
  cases hfind : c.pool? s with
  | some k =>
      have hk := List.find?_some hfind
      refine .inl ⟨k, List.mem_of_find?_eq_some hfind, by simpa using hk, ?_⟩
      rw [requestPool, hfind]
      rfl
  | none =>
      have hnone := List.find?_eq_none.1 hfind
      refine .inr ⟨fun k hk => by simpa using hnone k hk, ?_⟩
      rw [requestPool, hfind]

/-- What a request for a pool does whatever it finds. -/
theorem requestPool_frame (c : PoolCache) (s : Nat) :
    (c.requestPool s).1.clock = c.clock + 1 ∧ (c.requestPool s).1.maxPools = c.maxPools ∧
      (c.requestPool s).1.maxThreads = c.maxThreads ∧
      c.nextSerial ≤ (c.requestPool s).1.nextSerial ∧ (c.requestPool s).2.threads = s := by
  obtain ⟨k, -, hks, hreq⟩ | ⟨-, hreq⟩ := requestPool_cases c s
  · rw [hreq]
    exact ⟨rfl, rfl, rfl, Nat.le_refl _, hks⟩
  · rw [hreq]
    exact ⟨rfl, rfl, rfl, Nat.le_succ _, rfl⟩

/-- What is kept, in order of last use, behind a pool of some size that was used just now:
the pools of other sizes, as many as have room. -/
def behind (c : PoolCache) (s : Nat) (used : List KeptPool) : List KeptPool :=
  (used.filter fun k => k.pool.threads ≠ s).take (c.maxPools - 1)

theorem behind_sublist (c : PoolCache) (s : Nat) (used : List KeptPool) :
    (c.behind s used).Sublist used :=
  (List.take_sublist _ _).trans List.filter_sublist

theorem threads_ne_of_mem_behind {c : PoolCache} {s : Nat} {used : List KeptPool} {k : KeptPool}
    (hk : k ∈ c.behind s used) : k.pool.threads ≠ s := by
  simpa using (List.mem_filter.1 (List.mem_of_mem_take hk)).2

/-- The kept pools in order of their last use, the latest in front: their sizes are those
asked for last. -/
structure Tracks (c : PoolCache) (sizes : List Nat) (used : List KeptPool) : Prop where
  room : 0 < c.maxPools
  perm : used.Perm c.kept
  latest : used.Pairwise fun a b => b.lastUse < a.lastUse
  sizes_eq : used.map (·.pool.threads) = (latestFirst sizes).take c.maxPools
  lastUse_le : ∀ k ∈ used, k.lastUse ≤ c.clock
  serial_lt : ∀ k ∈ used, k.pool.serial < c.nextSerial

variable {c : PoolCache} {sizes : List Nat} {used : List KeptPool}

theorem empty_tracks (maxThreads maxPools : Nat) : (empty maxThreads maxPools).Tracks [] [] where
  room := Nat.lt_of_lt_of_le Nat.zero_lt_one (Nat.le_max_right maxPools 1)
  perm := .nil
  latest := .nil
  sizes_eq := by simp [latestFirst]
  lastUse_le _ h := absurd h List.not_mem_nil
  serial_lt _ h := absurd h List.not_mem_nil

theorem Tracks.length_le (h : c.Tracks sizes used) : used.length ≤ c.maxPools := by
  have hlength := congrArg List.length h.sizes_eq
  rw [List.length_map, List.length_take] at hlength
  omega

/-- No two kept pools have one size. -/
theorem Tracks.nodup (h : c.Tracks sizes used) : (used.map (·.pool.threads)).Nodup := by
  rw [h.sizes_eq]
  exact (nodup_latestFirst sizes).sublist (List.take_sublist _ _)

/-- The pools by their last use are determined by the cache. -/
theorem Tracks.byLastUse_eq (h : c.Tracks sizes used) : c.byLastUse = used := by
  have hperm : c.byLastUse.Perm used := (List.mergeSort_perm _ _).trans h.perm.symm
  have hsorted : c.byLastUse.Pairwise fun a b => b.lastUse ≤ a.lastUse := by
    have hmerge : c.byLastUse.Pairwise fun a b => decide (b.lastUse ≤ a.lastUse) = true :=
      List.pairwise_mergeSort (fun a b d hab hbd => by simp only [decide_eq_true_eq] at *; omega)
        (fun a b => by simp only [Bool.or_eq_true, decide_eq_true_eq]; omega) c.kept
    exact hmerge.imp fun hle => of_decide_eq_true hle
  have hstamps : (used.map (·.lastUse)).Nodup :=
    List.pairwise_map.2 (h.latest.imp fun hlt => Nat.ne_of_gt hlt)
  refine hperm.eq_of_pairwise (fun a b ha hb hab hba => ?_) hsorted
    (h.latest.imp fun hlt => Nat.le_of_lt hlt)
  exact List.inj_on_of_nodup_map hstamps (hperm.mem_iff.1 ha) hb (Nat.le_antisymm hba hab)

/-- Noting a use moves the pool of that size to the front. -/
private theorem touch_perm {k : KeptPool} {s : Nat} (now : Nat)
    (hnodup : (used.map (·.pool.threads)).Nodup) (hk : k ∈ used) (hs : k.pool.threads = s) :
    (⟨k.pool, now⟩ :: used.filter fun k => k.pool.threads ≠ s).Perm
      (used.map (touch s now)) := by
  induction used with
  | nil => exact absurd hk List.not_mem_nil
  | cons first used ih =>
      obtain ⟨hfirst, hrest⟩ := List.nodup_cons.1 hnodup
      by_cases hsize : first.pool.threads = s
      · have hothers : ∀ other ∈ used, other.pool.threads ≠ s := fun other hother heq =>
          hfirst (List.mem_map.2 ⟨other, hother, heq.trans hsize.symm⟩)
        obtain rfl : k = first := (List.mem_cons.1 hk).resolve_right fun hmem => hothers k hmem hs
        have hfilter : used.filter (fun k => k.pool.threads ≠ s) = used := by
          simpa [List.filter_eq_self] using hothers
        have hmap : used.map (touch s now) = used := by
          refine (List.map_congr_left fun other hother => ?_).trans (List.map_id used)
          simp [touch, hothers other hother]
        rw [List.map_cons, hmap, List.filter_cons_of_neg (by simp [hsize]), hfilter]
        simp [touch, hsize]
      · obtain hk : k ∈ used := (List.mem_cons.1 hk).resolve_left fun heq =>
          hsize (heq ▸ hs)
        rw [List.map_cons, List.filter_cons_of_pos (by simpa using hsize)]
        have htouch : touch s now first = first := by simp [touch, hsize]
        rw [htouch]
        exact (List.Perm.swap _ _ _).trans ((ih hrest hk).cons first)

/-- The kept pools after a call: the pool that answers, and what has room behind it of the
pools of other sizes. -/
private theorem Tracks.kept_requestPool (h : c.Tracks sizes used) (s : Nat) :
    (⟨(c.requestPool s).2, c.clock + 1⟩ :: c.behind s used).Perm (c.requestPool s).1.kept := by
  obtain ⟨k, hk, hks, hreq⟩ | ⟨hnone, hreq⟩ := requestPool_cases c s
  · have hmem := h.perm.mem_iff.2 hk
    have hlt : (used.filter fun k => k.pool.threads ≠ s).length < used.length :=
      List.length_filter_lt_length_iff_exists.2 ⟨k, hmem, by simp [hks]⟩
    have hle := h.length_le
    rw [hreq, behind, List.take_of_length_le (by omega)]
    exact (touch_perm _ h.nodup hmem hks).trans (h.perm.map _)
  · have hfilter : used.filter (fun k => k.pool.threads ≠ s) = used := by
      rw [List.filter_eq_self]
      intro k hk
      simpa using hnone k (h.perm.mem_iff.1 hk)
    have hroom := makeRoom_perm h.room h.perm h.latest h.length_le
    rw [hreq, behind, hfilter]
    exact (hroom.cons _).trans (List.perm_append_singleton _ _).symm

/-- The pool that answers has a serial number that was handed out. -/
private theorem Tracks.serial_requestPool (h : c.Tracks sizes used) (s : Nat) :
    (c.requestPool s).2.serial < (c.requestPool s).1.nextSerial := by
  obtain ⟨k, hk, -, hreq⟩ | ⟨-, hreq⟩ := requestPool_cases c s
  · rw [hreq]
    exact h.serial_lt k (h.perm.mem_iff.2 hk)
  · rw [hreq]
    exact Nat.lt_succ_self _

/-- **A call.**  The pool that answers goes to the front, every other pool of its size is
taken out, and the rest leaves room for it. -/
theorem Tracks.requestPool (h : c.Tracks sizes used) (s : Nat) :
    (c.requestPool s).1.Tracks (sizes ++ [s])
      (⟨(c.requestPool s).2, c.clock + 1⟩ :: c.behind s used) := by
  obtain ⟨hclock, hmax, -, hserial, hthreads⟩ := requestPool_frame c s
  have hrest : ∀ k ∈ c.behind s used, k ∈ used := fun _ hk =>
    (behind_sublist c s used).subset hk
  constructor
  · rw [hmax]
    exact h.room
  · exact h.kept_requestPool s
  · refine List.pairwise_cons.2 ⟨fun k hk => ?_, ?_⟩
    · exact Nat.lt_succ_of_le (h.lastUse_le k (hrest k hk))
    · exact h.latest.sublist (behind_sublist c s used)
  · have hfilter : (used.filter fun k => k.pool.threads ≠ s).map (·.pool.threads) =
        (used.map (·.pool.threads)).filter (· ≠ s) := by
      rw [List.filter_map]
      rfl
    obtain ⟨n, hn⟩ : ∃ n, c.maxPools = n + 1 := Nat.exists_eq_add_one.2 h.room
    rw [List.map_cons, hthreads, behind, List.map_take, hfilter, h.sizes_eq, latestFirst_concat,
      hmax, hn, List.take_succ_cons, Nat.add_sub_cancel,
      take_filter_take (nodup_latestFirst sizes)]
  · rw [hclock]
    intro k hk
    rcases List.mem_cons.1 hk with rfl | hk
    · exact Nat.le_refl _
    · exact Nat.le_succ_of_le (h.lastUse_le k (hrest k hk))
  · intro k hk
    rcases List.mem_cons.1 hk with rfl | hk
    · exact h.serial_requestPool s
    · exact Nat.lt_of_lt_of_le (h.serial_lt k (hrest k hk)) hserial

/-! ## Runs of calls -/

theorem request_zero (c : PoolCache) (refused : Option String) :
    c.request 0 refused = (c, .ok .ambient) := rfl

theorem request_of_ne_zero (c : PoolCache) {hint : Nat} (h : hint ≠ 0) :
    c.request hint none =
      ((c.requestPool (c.clamp hint)).1, .ok (.pool (c.requestPool (c.clamp hint)).2)) := by
  rw [request, if_neg h]

theorem asked_cons_of_ne_zero (limit : Nat) {hint : Nat} (h : hint ≠ 0) (hints : List Nat) :
    asked limit (hint :: hints) = min hint limit :: asked limit hints := by
  simp [asked, h]

theorem limits_serve (c : PoolCache) (hints : List Nat) :
    (c.serve hints).maxThreads = c.maxThreads ∧ (c.serve hints).maxPools = c.maxPools := by
  induction hints generalizing c with
  | nil => exact ⟨rfl, rfl⟩
  | cons hint hints ih =>
      have hrequest : (c.request hint none).1.maxThreads = c.maxThreads ∧
          (c.request hint none).1.maxPools = c.maxPools := by
        by_cases h : hint = 0
        · subst h
          exact ⟨rfl, rfl⟩
        · obtain ⟨-, hpools, hthreads, -⟩ := requestPool_frame c (c.clamp hint)
          rw [request_of_ne_zero c h]
          exact ⟨hthreads, hpools⟩
      obtain ⟨hthreads, hpools⟩ := ih (c.request hint none).1
      exact ⟨hthreads.trans hrequest.1, hpools.trans hrequest.2⟩

/-- **A run of calls** tracks the sizes asked for, and keeps what a call for any of them
keeps. -/
theorem Tracks.serve {P : PoolCache → List KeptPool → Prop} {limit : Nat}
    (h : c.Tracks sizes used) (hints : List Nat) (hlimit : c.maxThreads = limit) (hstart : P c used)
    (hstep : ∀ (c : PoolCache) (sizes : List Nat) (used : List KeptPool),
      ∀ s ∈ asked limit hints, c.Tracks sizes used → P c used →
        P (c.requestPool s).1 (⟨(c.requestPool s).2, c.clock + 1⟩ :: c.behind s used)) :
    ∃ used', (c.serve hints).Tracks (sizes ++ asked limit hints) used' ∧
      P (c.serve hints) used' := by
  induction hints generalizing c sizes used with
  | nil => exact ⟨used, by rwa [asked, List.filter_nil, List.map_nil, List.append_nil], hstart⟩
  | cons hint hints ih =>
      by_cases hzero : hint = 0
      · subst hzero
        exact ih h hlimit hstart hstep
      · rw [asked_cons_of_ne_zero limit hzero] at hstep ⊢
        have hclamp : c.clamp hint = min hint limit := by rw [clamp, hlimit]
        have hthreads := (requestPool_frame c (min hint limit)).2.2.1
        obtain ⟨used', htracks, hkept⟩ := ih (h.requestPool (min hint limit))
          (hthreads.trans hlimit) (hstep c sizes used _ List.mem_cons_self h hstart)
          fun c sizes used s hs => hstep c sizes used s (List.mem_cons_of_mem _ hs)
        rw [PoolCache.serve, List.foldl_cons, request_of_ne_zero c hzero, hclamp]
        rw [List.append_assoc] at htracks
        exact ⟨used', htracks, hkept⟩

/-- A pool of a size that is not asked for stays the only one of its size, if any. -/
theorem Tracks.serve_others {p : Pool} {limit : Nat}
    (h : c.Tracks sizes used) (hints : List Nat) (hlimit : c.maxThreads = limit)
    (hsame : ∀ k ∈ used, k.pool.threads = p.threads → k.pool = p)
    (hserial : p.serial < c.nextSerial) (hothers : p.threads ∉ asked limit hints) :
    ∃ used', (c.serve hints).Tracks (sizes ++ asked limit hints) used' ∧
      (∀ k ∈ used', k.pool.threads = p.threads → k.pool = p) ∧
      p.serial < (c.serve hints).nextSerial := by
  refine h.serve (P := fun c used => (∀ k ∈ used, k.pool.threads = p.threads → k.pool = p) ∧
    p.serial < c.nextSerial) hints hlimit ⟨hsame, hserial⟩ ?_
  intro c sizes used s hs _ ⟨hsame, hserial⟩
  obtain ⟨-, -, -, hle, hthreads⟩ := requestPool_frame c s
  refine ⟨fun k hk hsize => ?_, Nat.lt_of_lt_of_le hserial hle⟩
  rcases List.mem_cons.1 hk with rfl | hk
  · rw [← hsize, hthreads] at hothers
    exact absurd hs hothers
  · exact hsame k ((behind_sublist c s used).subset hk) hsize

/-- The pools that a cache keeps for a run of calls from the start. -/
theorem serve_tracks (maxThreads maxPools : Nat) (hints : List Nat) :
    ∃ used, ((empty maxThreads maxPools).serve hints).Tracks
      (asked (max maxThreads 1) hints) used := by
  obtain ⟨used, htracks, -⟩ := (empty_tracks maxThreads maxPools).serve
    (P := fun _ _ => True) hints rfl trivial fun _ _ _ _ _ _ _ => trivial
  exact ⟨used, htracks⟩

/-- A size is among the last ones when few others were asked for after it. -/
private theorem mem_take_latestFirst (before : List Nat) {between : List Nat} {s n : Nat}
    (hs : s ∉ between) :
    s ∈ (latestFirst (before ++ s :: between)).take n ↔ between.dedup.length < n := by
  obtain ⟨older, holder⟩ := latestFirst_append before hs
  have hnot : s ∉ latestFirst between := by simpa [latestFirst] using hs
  have hlength : (latestFirst between).length = between.dedup.length := List.length_reverse
  rw [holder, ← hlength]
  constructor
  · intro hmem
    by_contra hle
    rw [List.take_append_of_le_length (Nat.le_of_not_lt hle)] at hmem
    exact hnot (List.mem_of_mem_take hmem)
  · intro hlt
    rw [List.take_append, List.take_of_length_le (Nat.le_of_lt hlt)]
    obtain ⟨m, hm⟩ : ∃ m, n - (latestFirst between).length = m + 1 :=
      Nat.exists_eq_add_one.2 (Nat.sub_pos_of_lt hlt)
    rw [hm, List.take_succ_cons]
    simp

/-- The pool of the last call for a size answers again exactly if fewer other sizes were
asked for since then than pools are kept. -/
theorem Tracks.requestPool_again {s : Nat} (h : c.Tracks sizes used) (between : List Nat)
    (hs : s ∉ asked c.maxThreads between) :
    (((c.requestPool s).1.serve between).requestPool s).2 = (c.requestPool s).2 ↔
      (asked c.maxThreads between).dedup.length < c.maxPools := by
  obtain ⟨-, hpools, hmax, -, hthreads⟩ := requestPool_frame c s
  have hfirst := h.requestPool s
  have honly : ∀ k ∈ ⟨(c.requestPool s).2, c.clock + 1⟩ :: c.behind s used,
      k.pool.threads = (c.requestPool s).2.threads → k.pool = (c.requestPool s).2 := by
    intro k hk hsize
    rcases List.mem_cons.1 hk with rfl | hk
    · rfl
    · exact absurd (hsize.trans hthreads) (threads_ne_of_mem_behind hk)
  obtain ⟨used', htracks, hsame, hserial⟩ := hfirst.serve_others between hmax honly
    (h.serial_requestPool s) (by rwa [hthreads])
  have hkept : (∃ k ∈ used', k.pool.threads = s) ↔
      (asked c.maxThreads between).dedup.length < c.maxPools := by
    have hsizes := htracks.sizes_eq
    rw [(limits_serve _ between).2, hpools, List.append_assoc] at hsizes
    rw [← mem_take_latestFirst sizes hs, ← List.singleton_append, ← hsizes]
    simp
  rw [← hkept]
  obtain ⟨k, hk, hks, hreq⟩ | ⟨hnone, hreq⟩ :=
    requestPool_cases ((c.requestPool s).1.serve between) s
  · have hmem := htracks.perm.mem_iff.2 hk
    rw [hreq]
    exact ⟨fun _ => ⟨k, hmem, hks⟩, fun _ => hsame k hmem (hks.trans hthreads.symm)⟩
  · rw [hreq]
    constructor
    · intro heq
      have hnext := congrArg Pool.serial heq
      dsimp only at hnext
      omega
    · rintro ⟨k, hk, hks⟩
      exact absurd hks (hnone k (htracks.perm.mem_iff.1 hk))

/-- **What a host can rely on**, after any calls.  A hint of zero gives the ambient workers
and changes nothing.  The kept sizes, latest use first, are the sizes asked for last, as many
different ones as may be kept.  Every other hint gives a pool of the size asked for, and that
is the pool of the last call for this size exactly if fewer other sizes were asked for in
between than pools may be kept. -/
theorem serves_recent (maxThreads maxPools : Nat) (hints : List Nat) :
    let c := (empty maxThreads maxPools).serve hints
    (∀ refused, c.request 0 refused = (c, .ok .ambient)) ∧
    c.byLastUse.map (·.pool.threads) =
      (latestFirst (asked (max maxThreads 1) hints)).take (max maxPools 1) ∧
    (∀ hint, hint ≠ 0 → ∃ pool, (c.request hint none).2 = .ok (.pool pool) ∧
      pool.threads = min hint (max maxThreads 1)) ∧
    ∀ hint between again, hint ≠ 0 → again ≠ 0 →
      min again (max maxThreads 1) = min hint (max maxThreads 1) →
      min hint (max maxThreads 1) ∉ asked (max maxThreads 1) between →
        ((((c.request hint none).1.serve between).request again none).2 = (c.request hint none).2 ↔
          (asked (max maxThreads 1) between).dedup.length < max maxPools 1) := by
  intro c
  obtain ⟨used, htracks⟩ := serve_tracks maxThreads maxPools hints
  obtain ⟨hthreads, hpools⟩ := limits_serve (empty maxThreads maxPools) hints
  have hclamp : ∀ hint, c.clamp hint = min hint (max maxThreads 1) := fun hint => by
    rw [clamp, hthreads]
    rfl
  refine ⟨request_zero c, ?_, ?_, ?_⟩
  · rw [htracks.byLastUse_eq, htracks.sizes_eq, hpools]
    rfl
  · intro hint hhint
    rw [request_of_ne_zero c hhint, hclamp]
    exact ⟨_, rfl, (requestPool_frame c _).2.2.2.2⟩
  · intro hint between again hhint hagain hsize hothers
    have hlater : ((c.request hint none).1.serve between).clamp again = c.clamp hint := by
      rw [request_of_ne_zero c hhint, clamp, (limits_serve _ between).1,
        (requestPool_frame c _).2.2.1, hthreads, hclamp]
      exact hsize
    have hiff := htracks.requestPool_again (s := min hint (max maxThreads 1)) between
      (by rw [hthreads]; exact hothers)
    rw [hpools, hthreads] at hiff
    rw [request_of_ne_zero _ hagain, hlater, request_of_ne_zero c hhint, hclamp,
      Except.ok.injEq, Workers.pool.injEq]
    exact hiff

/-- Two pools of at most three workers: the pool for seven workers, which has three, is still
kept after calls for one other size, and gone after calls for two. -/
theorem serves_recent_twoPools :
    let c := (empty 3 2).serve [2]
    c.byLastUse.map (·.pool.threads) = [2] ∧
      (((c.request 7 none).1.serve [1, 0, 1]).request 3 none).2 = (c.request 7 none).2 ∧
      (((c.request 7 none).1.serve [1, 2]).request 3 none).2 ≠ (c.request 7 none).2 := by
  intro c
  obtain ⟨-, hkept, -, hagain⟩ := serves_recent 3 2 [2]
  have hone := hagain 7 [1, 0, 1] 3 (by decide) (by decide) (by decide) (by decide)
  have htwo := hagain 7 [1, 2] 3 (by decide) (by decide) (by decide) (by decide)
  exact ⟨hkept.trans (by decide), hone.2 (by decide), fun h => absurd (htwo.1 h) (by decide)⟩

end PoolCache

end Proximity

import Proximity.Error

/-!
# Worker pools

Calls run on the ambient workers or on a pool of their own size.  Pools are
made when they are first asked for and kept for later calls, but only so many
of them: when there is no room, the pool whose last use is the longest ago
makes room.  The machine may refuse to make a pool, and then the call fails.  A
pool is known by its serial number, so that two calls can be told to have got the
same one.

## Main definitions

* `PoolCache.empty` — a cache with its limits.
* `PoolCache.request` — the workers of a call.
-/

namespace Proximity

/-- Some workers. -/
structure Pool where
  threads : Nat
  /-- Tells pools of one size apart. -/
  serial : Nat
deriving DecidableEq, Repr

/-- Where a call runs. -/
inductive Workers where
  | ambient
  | pool (pool : Pool)
deriving DecidableEq, Repr

/-- A pool that is kept, and when it was last asked for. -/
structure KeptPool where
  pool : Pool
  lastUse : Nat
deriving DecidableEq, Repr

/-- The pools that are kept between calls. -/
structure PoolCache where
  /-- The largest size of a pool. -/
  maxThreads : Nat
  /-- The most pools that are kept. -/
  maxPools : Nat
  /-- How many pools were asked for so far. -/
  clock : Nat
  /-- The serial number of the next pool. -/
  nextSerial : Nat
  kept : List KeptPool
deriving DecidableEq, Repr

namespace PoolCache

/-- A cache that keeps nothing; both limits are at least one. -/
def empty (maxThreads maxPools : Nat) : PoolCache :=
  ⟨max maxThreads 1, max maxPools 1, 0, 0, []⟩

/-- The kept pool of a size. -/
def pool? (c : PoolCache) (threads : Nat) : Option KeptPool :=
  c.kept.find? fun k => k.pool.threads == threads

/-- The last use that is the longest ago. -/
def oldestUse (kept : List KeptPool) : Option Nat := (kept.map (·.lastUse)).min?

/-- Drops the pool whose last use is the longest ago. -/
def dropOldest (kept : List KeptPool) : List KeptPool :=
  match oldestUse kept with
  | none => kept
  | some oldest => kept.filter fun k => k.lastUse != oldest

/-- Drops pools until there is room for one more, at most `fuel` times. -/
def makeRoom (maxPools : Nat) : Nat → List KeptPool → List KeptPool
  | 0, kept => kept
  | fuel + 1, kept =>
    if maxPools ≤ kept.length then makeRoom maxPools fuel (dropOldest kept) else kept

/-- The size of the pool for a hint. -/
def clamp (c : PoolCache) (hint : Nat) : Nat := min hint c.maxThreads

/-- The pool of a size, kept or new. -/
def requestPool (c : PoolCache) (threads : Nat) : PoolCache × Pool :=
  let now := c.clock + 1
  match c.pool? threads with
  | some found =>
    let touch (k : KeptPool) := if k.pool.threads == threads then { k with lastUse := now } else k
    ({ c with clock := now, kept := c.kept.map touch }, found.pool)
  | none =>
    let pool := Pool.mk threads c.nextSerial
    let kept := makeRoom c.maxPools c.kept.length c.kept
    ({ c with clock := now, nextSerial := c.nextSerial + 1, kept := kept ++ [⟨pool, now⟩] }, pool)

/-- The cache with a place for one more pool. -/
def withRoom (c : PoolCache) : PoolCache :=
  { c with clock := c.clock + 1, kept := makeRoom c.maxPools c.kept.length c.kept }

/-- The failure of a call whose pool is refused. -/
def poolRefused (threads : Nat) (reason : String) : Error :=
  .execution s!"failed to build {threads} thread pool: {reason}"

/-- The workers for a thread hint; zero asks for the ambient ones.  If the machine
refuses to make a pool, for some reason, the place for it has been made already. -/
def request (c : PoolCache) (hint : Nat) (refused : Option String) :
    PoolCache × Except Error Workers :=
  if hint = 0 then (c, .ok .ambient)
  else
    let threads := c.clamp hint
    match refused, c.pool? threads with
    | some reason, none => (c.withRoom, .error (poolRefused threads reason))
    | _, _ =>
      let (c, pool) := c.requestPool threads
      (c, .ok (.pool pool))

end PoolCache

end Proximity

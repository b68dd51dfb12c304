import Proximity.Number.Single

/-!
# Ranked candidates

A search ranks the labels it meets by their cost.  Candidates are ordered by
cost in the total order of single-precision numbers and then by label, so two
candidates are tied only if they are the same one and every ranking is
determined by what is ranked.

## Main definitions

* `Candidate.le` — the order.
* `Candidate.ranked` — a list of candidates, best first.
* `Candidate.insertBest`, `Candidate.insertWorst` — insertion into a ranked
  list, best first or worst first.
-/

namespace Proximity

/-- A label and what it costs to choose it. -/
structure Candidate where
  cost : Single
  label : Nat
deriving DecidableEq, Inhabited, Repr

namespace Candidate

/-- Whether `a` ranks no later than `b`. -/
def le (a b : Candidate) : Bool :=
  decide (a.cost.rank < b.cost.rank ∨ a.cost.rank = b.cost.rank ∧ a.label ≤ b.label)

theorem le_refl (a : Candidate) : a.le a = true := by simp [le]

theorem le_total (a b : Candidate) : (a.le b || b.le a) = true := by
  simp only [le, Bool.or_eq_true, decide_eq_true_eq]
  omega

theorem le_trans (a b c : Candidate) (hab : a.le b = true) (hbc : b.le c = true) :
    a.le c = true := by
  simp only [le, decide_eq_true_eq] at *
  omega

theorem le_antisymm {a b : Candidate} (hab : a.le b = true) (hba : b.le a = true) : a = b := by
  simp only [le, decide_eq_true_eq] at *
  have hcost : a.cost = b.cost := Single.rank_injective (by omega)
  have hlabel : a.label = b.label := by omega
  cases a; cases b
  simp_all

/-- The candidates in order, best first. -/
def ranked (cs : List Candidate) : List Candidate := cs.mergeSort le

/-- Inserts into a list that is ranked best first. -/
def insertBest (c : Candidate) : List Candidate → List Candidate
  | [] => [c]
  | d :: rest => if c.le d then c :: d :: rest else d :: insertBest c rest

/-- Inserts into a list that is ranked worst first. -/
def insertWorst (c : Candidate) : List Candidate → List Candidate
  | [] => [c]
  | d :: rest => if d.le c then c :: d :: rest else d :: insertWorst c rest

end Candidate

end Proximity

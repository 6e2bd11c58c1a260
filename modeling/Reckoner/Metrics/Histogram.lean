import Reckoner.Decimal.Shortest

/-!
# Histograms of durations

A histogram counts calls by how long they took and adds their durations up.  It has a bucket for
each of some upper bounds, and a call goes into the first bucket that it fits in, or into none if it
took longer than every bound says.  What is shown of a histogram are running totals, so that a bound
stands for all calls that took no longer than it says (`upTo_foldl_observe`).
-/

namespace Reckoner.Metrics

/-! ## Durations -/

/-- How long something took. -/
structure Duration where
  nanoseconds : Nat := 0
  deriving DecidableEq

namespace Duration

/-- A duration in seconds: the whole ones, and then the rest of one. -/
def seconds (d : Duration) : Float :=
  Float.ofNat (d.nanoseconds / 1000000000) + Float.ofNat (d.nanoseconds % 1000000000) / 1e9

end Duration

/-- The upper bounds of the buckets, from five milliseconds to ten seconds. -/
def bounds : List Duration :=
  [5000000, 10000000, 25000000, 50000000, 100000000, 250000000, 500000000, 1000000000, 2500000000,
    5000000000, 10000000000].map Duration.mk

/-- Every bound allows for more than the bounds before it. -/
theorem ascending_bounds : bounds.Pairwise (·.nanoseconds < ·.nanoseconds) := by decide

/-! ## Buckets -/

/-- Counts something in the first of some buckets whose bound it is not above.  Durations are
compared as whole nanoseconds, which puts them in the same order as their seconds do. -/
def countFirst (d : Duration) : List Duration → List Nat → List Nat
  | bound :: bounds, n :: counts =>
    if d.nanoseconds ≤ bound.nanoseconds then (n + 1) :: counts
    else n :: countFirst d bounds counts
  | _, counts => counts

/-- The sums of the first one, two and more of some counts on top of others. -/
def totals (before : Nat) : List Nat → List Nat
  | [] => []
  | n :: counts => (before + n) :: totals (before + n) counts

theorem length_countFirst (d : Duration) (bounds : List Duration) (counts : List Nat) :
    (countFirst d bounds counts).length = counts.length := by
  induction bounds generalizing counts with
  | nil => rfl
  | cons bound bounds ih =>
    cases counts with
    | nil => rfl
    | cons n counts =>
      unfold countFirst
      split
      · rfl
      · exact congrArg (· + 1) (ih counts)

theorem length_totals (before : Nat) (counts : List Nat) :
    (totals before counts).length = counts.length := by
  induction counts generalizing before with
  | nil => rfl
  | cons n counts ih => exact congrArg (· + 1) (ih (before + n))

/-- Whether a call that took some time is among those that a bound stands for, as a number. -/
def within (d bound : Duration) : Nat := if d.nanoseconds ≤ bound.nanoseconds then 1 else 0

/-- What is counted before goes into every total. -/
theorem totals_succ (before : Nat) (counts : List Nat) :
    totals (before + 1) counts = (totals before counts).map (· + 1) := by
  induction counts generalizing before with
  | nil => rfl
  | cons n counts ih =>
    rw [totals, totals, List.map_cons, Nat.add_right_comm, ih]

/-- A call is among those of every bound that allows for as long as it took. -/
theorem zipWith_within {d : Duration} {bounds : List Duration} {ns : List Nat}
    (hbounds : ∀ bound ∈ bounds, d.nanoseconds ≤ bound.nanoseconds)
    (hlength : ns.length = bounds.length) :
    List.zipWith (fun bound n => n + within d bound) bounds ns = ns.map (· + 1) := by
  induction bounds generalizing ns with
  | nil => rw [List.eq_nil_of_length_eq_zero hlength]; rfl
  | cons bound bounds ih =>
    cases ns with
    | nil => cases hlength
    | cons n ns =>
      obtain ⟨hbound, hbounds⟩ := List.forall_mem_cons.mp hbounds
      rw [List.zipWith_cons_cons, ih hbounds (Nat.succ.inj hlength), within, if_pos hbound,
        List.map_cons]

/-- A call that is counted once goes into the totals of all the bounds that it is not above. -/
theorem totals_countFirst (d : Duration) {bounds : List Duration} {counts : List Nat}
    (hbounds : bounds.Pairwise (·.nanoseconds < ·.nanoseconds))
    (hlength : counts.length = bounds.length) (before : Nat) :
    totals before (countFirst d bounds counts) =
      List.zipWith (fun bound n => n + within d bound) bounds (totals before counts) := by
  -- The totals are taken from left to right, so that what stands to the left is kept general.
  induction bounds generalizing counts before with
  | nil => rw [List.eq_nil_of_length_eq_zero hlength]; rfl
  | cons bound bounds ih =>
    cases counts with
    | nil => cases hlength
    | cons n counts =>
      obtain ⟨hfirst, hbounds⟩ := List.pairwise_cons.mp hbounds
      have hlength := Nat.succ.inj hlength
      unfold countFirst
      split
      next hfits =>
        -- The call is counted here, and the bounds that follow allow for even more.
        have hlater : ∀ b ∈ bounds, d.nanoseconds ≤ b.nanoseconds := by
          intro b hb
          exact Nat.le_of_lt (Nat.lt_of_le_of_lt hfits (hfirst b hb))
        rw [totals, totals, List.zipWith_cons_cons, within, if_pos hfits,
          zipWith_within hlater ((length_totals _ _).trans hlength), ← totals_succ, Nat.add_assoc]
      next hfits =>
        -- The call took longer, and is left to the bounds that follow.
        rw [totals, totals, List.zipWith_cons_cons, within, if_neg hfits, Nat.add_zero,
          ih hbounds hlength]

/-! ## Histograms -/

/-- The calls by how long they took, and how long all of them took together. -/
structure Histogram where
  /-- For each bound, the calls that took longer than the bounds before it, but not longer than
  this one. -/
  buckets : List Nat
  /-- The sum of all durations in seconds. -/
  sum : Float
  length_buckets : buckets.length = bounds.length
  deriving DecidableEq

namespace Histogram

/-- A histogram in which nothing has been counted. -/
def empty : Histogram where
  buckets := List.replicate bounds.length 0
  sum := 0
  length_buckets := List.length_replicate

/-- Counts a call that took some time. -/
def observe (h : Histogram) (d : Duration) : Histogram where
  buckets := countFirst d bounds h.buckets
  sum := h.sum + d.seconds
  length_buckets := (length_countFirst d bounds h.buckets).trans h.length_buckets

/-- For each bound, the calls that took no longer than it. -/
def upTo (h : Histogram) : List Nat := totals 0 h.buckets

theorem length_upTo (h : Histogram) : h.upTo.length = bounds.length :=
  (length_totals 0 h.buckets).trans h.length_buckets

/-- At first no bound stands for any call. -/
theorem upTo_empty : empty.upTo = bounds.map fun _ => 0 := rfl

/-- A call is counted for the bounds that it is not above, and for no others. -/
theorem upTo_observe (h : Histogram) (d : Duration) :
    (h.observe d).upTo = List.zipWith (fun bound n => n + within d bound) bounds h.upTo :=
  totals_countFirst d ascending_bounds h.length_buckets 0

/-- After some calls each bound stands for those among them that it allows for, besides the ones
that it stood for before. -/
theorem upTo_foldl_observe (h : Histogram) (ds : List Duration) :
    (ds.foldl observe h).upTo =
      List.zipWith (fun bound n => n + ds.countP (·.nanoseconds ≤ bound.nanoseconds)) bounds
        h.upTo := by
  induction ds generalizing h with
  | nil =>
    apply List.ext_getElem
    · simp [length_upTo]
    · simp
  | cons d ds ih =>
    rw [List.foldl_cons, ih, upTo_observe]
    apply List.ext_getElem
    · simp
    · -- The first call counts for a bound as one or as none, whatever the others do.
      intro i _ _
      simp only [List.getElem_zipWith, List.countP_cons, decide_eq_true_eq, within]
      omega

theorem sum_foldl_observe (h : Histogram) (ds : List Duration) :
    (ds.foldl observe h).sum = ds.foldl (fun sum d => sum + d.seconds) h.sum := by
  induction ds generalizing h with
  | nil => rfl
  | cons d ds ih => exact ih (h.observe d)

end Histogram

end Reckoner.Metrics

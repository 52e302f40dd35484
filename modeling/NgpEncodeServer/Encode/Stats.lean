import Mathlib.Algebra.GroupWithZero.Nat
import Mathlib.Algebra.BigOperators.Group.List.Basic
import NgpEncodeServer.Foundation.Machine
import NgpEncodeServer.Foundation.Sided

/-!
# `encode_stats_thread`

The thread that logs the frame rate: once a second it adds up the two request counters, and every
tenth time it logs by how much the sum has grown since the last report, for each second.

The two counters are read one after the other while client threads advance them, so that the sum
need not be one that the counters ever had together.  The order of the two loads is not specified by
the language, and the action chooses it.  `Floor` bounds the sum all the same: it is at least the
number of requests at any moment before the first load, and at most their number after the second.
-/

namespace Ngp

/-- The number of seconds between two reports. -/
def kEncodeStatsLogIntervalSeconds : UInt64 := 10

/-- Where `encode_stats_thread` is. -/
inductive StatsPoint where
  /-- Before the test of `shutdown_requested`. -/
  | loopHead
  /-- After `seconds++`, before the first of the two loads. -/
  | loading
  /-- After the load of the counter of one eye. -/
  | loaded (isLeft : Bool) (index : UInt64)
  /-- After both loads. -/
  | summed (currentIndex : UInt64)
  /-- The thread function has returned. -/
  | returned
  deriving DecidableEq, Repr

/-- What the thread does next. -/
inductive StatsAction where
  /-- The test of the loop. -/
  | test
  | loadFirst (isLeft : Bool)
  | loadSecond
  /-- The rest of the body, with the report if it is time for one. -/
  | report
  deriving DecidableEq, Repr

/-- One report.  The second field is a history variable. -/
structure StatsReport where
  /-- The frame rate that is logged. -/
  fps : UInt64
  /-- `current_index`. -/
  currentIndex : UInt64
  deriving DecidableEq, Repr

/-- The thread with its variables.  The last field is what it has logged, in order. -/
structure EncodeStats where
  point : StatsPoint
  /-- `previous_index`. -/
  previousIndex : UInt64
  /-- `seconds`. -/
  seconds : UInt64
  reports : List StatsReport
  deriving DecidableEq, Repr

namespace EncodeStats

/-- The thread when it is started. -/
def init : EncodeStats where
  point := .loopHead
  previousIndex := 0
  seconds := 0
  reports := []

/-- One step, with the flag and the counters as they are. -/
def step (shutdownRequested : Bool) (frameIndex : Sided UInt64) :
    Machine EncodeStats StatsAction := fun t a =>
  match a, t.point with
  | .test, .loopHead =>
    if shutdownRequested then some { t with point := .returned }
    else some { t with point := .loading, seconds := t.seconds + 1 }
  | .loadFirst isLeft, .loading => some { t with point := .loaded isLeft (frameIndex.get isLeft) }
  | .loadSecond, .loaded isLeft index =>
    some { t with point := .summed (index + frameIndex.get (!isLeft)) }
  | .report, .summed currentIndex =>
    if t.seconds = kEncodeStatsLogIntervalSeconds then
      some {
        point := .loopHead
        previousIndex := currentIndex
        seconds := 0
        reports := t.reports ++ [⟨(currentIndex - t.previousIndex) / t.seconds, currentIndex⟩] }
    else some { t with point := .loopHead }
  | _, _ => none

variable {shutdownRequested : Bool} {frameIndex : Sided UInt64} {t t' : EncodeStats}
  {a : StatsAction}

/-- The steps of the thread. -/
inductive Trans (shutdownRequested : Bool) (frameIndex : Sided UInt64) (t : EncodeStats) :
    StatsAction → EncodeStats → Prop
  | exit (hat : t.point = .loopHead) (hflag : shutdownRequested = true) :
      Trans shutdownRequested frameIndex t .test { t with point := .returned }
  | enter (hat : t.point = .loopHead) (hflag : shutdownRequested = false) :
      Trans shutdownRequested frameIndex t .test
        { t with point := .loading, seconds := t.seconds + 1 }
  | loadFirst {isLeft : Bool} (hat : t.point = .loading) :
      Trans shutdownRequested frameIndex t (.loadFirst isLeft)
        { t with point := .loaded isLeft (frameIndex.get isLeft) }
  | loadSecond {isLeft : Bool} {index : UInt64} (hat : t.point = .loaded isLeft index) :
      Trans shutdownRequested frameIndex t .loadSecond
        { t with point := .summed (index + frameIndex.get (!isLeft)) }
  | report {currentIndex : UInt64} (hat : t.point = .summed currentIndex)
      (hsec : t.seconds = kEncodeStatsLogIntervalSeconds) :
      Trans shutdownRequested frameIndex t .report {
        point := .loopHead
        previousIndex := currentIndex
        seconds := 0
        reports := t.reports ++ [⟨(currentIndex - t.previousIndex) / t.seconds, currentIndex⟩] }
  | tick {currentIndex : UInt64} (hat : t.point = .summed currentIndex)
      (hsec : t.seconds ≠ kEncodeStatsLogIntervalSeconds) :
      Trans shutdownRequested frameIndex t .report { t with point := .loopHead }

/-- Every step is one of the listed steps. -/
theorem trans_of_step (h : step shutdownRequested frameIndex t a = some t') :
    Trans shutdownRequested frameIndex t a t' := by
  unfold step at h
  split at h
  · rename_i hat
    split at h
    · exact Option.some.inj h ▸ .exit hat ‹_›
    · exact Option.some.inj h ▸ .enter hat (Bool.eq_false_iff.mpr ‹_›)
  · exact Option.some.inj h ▸ .loadFirst ‹_›
  · exact Option.some.inj h ▸ .loadSecond ‹_›
  · rename_i hat
    split at h
    · exact Option.some.inj h ▸ .report hat ‹_›
    · exact Option.some.inj h ▸ .tick hat ‹_›
  · cases h

/-! ### What is reported -/

/-- The sums that the reports are about. -/
def sums (t : EncodeStats) : List ℕ := t.reports.map fun r => r.currentIndex.toNat

/-- The rates between one sum and the next, in exact arithmetic. -/
def rates (previous : ℕ) : List ℕ → List ℕ
  | [] => []
  | sum :: sums => (sum - previous) / kEncodeStatsLogIntervalSeconds.toNat :: rates sum sums

/-- The rate that belongs to one more sum. -/
theorem rates_concat (previous sum : ℕ) (sums : List ℕ) :
    rates previous (sums ++ [sum]) = rates previous sums ++
      [(sum - sums.getLastD previous) / kEncodeStatsLogIntervalSeconds.toNat] := by
  induction sums generalizing previous with
  | nil => rfl
  | cons n sums ih =>
    rw [List.cons_append, rates, rates, ih, List.cons_append, List.getLastD_cons]

/-- The rates add up to no more than what the sums have grown by. -/
theorem mul_sum_rates_le (previous : ℕ) (sums : List ℕ)
    (h : (previous :: sums).Pairwise (· ≤ ·)) :
    previous + kEncodeStatsLogIntervalSeconds.toNat * (rates previous sums).sum ≤
      sums.getLastD previous := by
  induction sums generalizing previous with
  | nil => exact Nat.le_refl _
  | cons n sums ih =>
    obtain ⟨hle, htail⟩ := List.pairwise_cons.mp h
    have hn : previous ≤ n := hle n List.mem_cons_self
    have hrest := ih n htail
    have hdiv : kEncodeStatsLogIntervalSeconds.toNat *
        ((n - previous) / kEncodeStatsLogIntervalSeconds.toNat) ≤ n - previous :=
      Nat.mul_div_le _ _
    rw [rates, List.sum_cons, Nat.mul_add, List.getLastD_cons]
    omega

end EncodeStats

/-- At least `least` of the requests are in the sum that the thread is making, and no more than
there are, with `counts` requests for the two eyes. -/
def StatsPoint.Floor (least : ℕ) (counts : Sided ℕ) : StatsPoint → Prop
  | .loaded isLeft index =>
    index.toNat ≤ counts.get isLeft ∧ least ≤ index.toNat + counts.get (!isLeft)
  | .summed currentIndex =>
    least ≤ currentIndex.toNat ∧ currentIndex.toNat ≤ counts.left + counts.right
  | _ => least ≤ counts.left + counts.right

/-- The counts of one eye and of the other. -/
theorem Sided.get_add_get_not (x : Sided ℕ) (e : Bool) :
    x.get e + x.get (!e) = x.left + x.right := by
  cases e
  · exact Nat.add_comm _ _
  · rfl

variable {least : ℕ} {counts counts' : Sided ℕ}

/-- More requests are drawn. -/
theorem StatsPoint.Floor.mono {p : StatsPoint} (h : p.Floor least counts)
    (hle : ∀ e, counts.get e ≤ counts'.get e) : p.Floor least counts' := by
  have hleft : counts.left ≤ counts'.left := hle true
  have hright : counts.right ≤ counts'.right := hle false
  cases p with
  | loaded e index =>
    have hfirst := hle e
    have hsecond := hle !e
    obtain ⟨hindex, hleast⟩ := h
    exact ⟨Nat.le_trans hindex hfirst, by omega⟩
  | summed currentIndex =>
    obtain ⟨hleast, hcurrent⟩ := h
    exact ⟨hleast, by omega⟩
  | loopHead | loading | returned =>
    have hleast : least ≤ counts.left + counts.right := h
    exact (by omega : least ≤ counts'.left + counts'.right)

/-- Fewer requests are asked for. -/
theorem StatsPoint.Floor.anti {p : StatsPoint} {least' : ℕ} (h : p.Floor least counts)
    (hle : least' ≤ least) : p.Floor least' counts := by
  cases p with
  | loaded e index => exact ⟨h.1, Nat.le_trans hle h.2⟩
  | summed currentIndex => exact ⟨Nat.le_trans hle h.1, h.2⟩
  | loopHead | loading | returned => exact Nat.le_trans hle h

namespace EncodeStats

variable {shutdownRequested : Bool} {frameIndex : Sided UInt64} {t t' : EncodeStats}
  {a : StatsAction}

/-- A step of the thread, with counters that have not wrapped. -/
theorem Trans.floor (ht : Trans shutdownRequested frameIndex t a t')
    (hcounts : ∀ e, (frameIndex.get e).toNat = counts.get e)
    (hsize : counts.left + counts.right < UInt64.size) (h : t.point.Floor least counts) :
    t'.point.Floor least counts := by
  cases ht with
  | exit hat | enter hat =>
    rw [hat] at h
    exact h
  | @loadFirst e hat =>
    rw [hat] at h
    refine ⟨Nat.le_of_eq (hcounts e), ?_⟩
    rw [hcounts, Sided.get_add_get_not]
    exact h
  | @loadSecond e index hat =>
    rw [hat] at h
    obtain ⟨hindex, hleast⟩ := h
    have hboth := counts.get_add_get_not e
    have hsum : (index + frameIndex.get (!e)).toNat = index.toNat + counts.get (!e) := by
      rw [UInt64.toNat_add, hcounts, Nat.mod_eq_of_lt]
      exact (by omega : index.toNat + counts.get (!e) < UInt64.size)
    refine ⟨?_, ?_⟩
    · rw [hsum]
      exact hleast
    · rw [hsum]
      omega
  | report hat | tick hat =>
    rw [hat] at h
    exact Nat.le_trans h.1 h.2

/-- The sums reported after `earlier`, and the one that is being made, have at least `least` of the
requests in them, with `counts` requests for the two eyes. -/
def Fresh (least : ℕ) (earlier : List StatsReport) (counts : Sided ℕ) (t : EncodeStats) : Prop :=
  t.point.Floor least counts ∧ ∃ later, t.reports = earlier ++ later ∧
    ∀ r ∈ later, least ≤ r.currentIndex.toNat

/-- A step of the thread, with counters that have not wrapped. -/
theorem Fresh.step {earlier : List StatsReport} (h : Fresh least earlier counts t)
    (ht : Trans shutdownRequested frameIndex t a t')
    (hcounts : ∀ e, (frameIndex.get e).toNat = counts.get e)
    (hsize : counts.left + counts.right < UInt64.size) : Fresh least earlier counts t' := by
  obtain ⟨hfloor, later, hlater, hleast⟩ := h
  have hfloor' := ht.floor hcounts hsize hfloor
  cases ht with
  | @report currentIndex hat hsec =>
    rw [hat] at hfloor
    refine ⟨hfloor', later ++ [⟨(currentIndex - t.previousIndex) / t.seconds, currentIndex⟩], ?_,
      fun r hr => ?_⟩
    · rw [← List.append_assoc, ← hlater]
    · rcases List.mem_append.mp hr with hr | hr
      · exact hleast r hr
      · rw [List.mem_singleton.mp hr]
        exact hfloor.1
  | exit | enter | loadFirst | loadSecond | tick => exact ⟨hfloor', later, hlater, hleast⟩

/-- What the thread has reported is right, with `counts` requests for the two eyes. -/
structure Sound (counts : Sided ℕ) (t : EncodeStats) : Prop where
  previous_eq : t.previousIndex.toNat = t.sums.getLastD 0
  le_previous : ∀ n ∈ t.sums, n ≤ t.previousIndex.toNat
  sorted : t.sums.Pairwise (· ≤ ·)
  fps_eq : (t.reports.map fun r => r.fps.toNat) = rates 0 t.sums
  floor : t.point.Floor t.previousIndex.toNat counts

theorem sound_init : Sound counts init := by
  constructor
  · rfl
  · intro n hn
    cases hn
  · exact List.Pairwise.nil
  · rfl
  · exact Nat.zero_le _

/-- More requests are drawn. -/
theorem Sound.mono (h : Sound counts t) (hle : ∀ e, counts.get e ≤ counts'.get e) :
    Sound counts' t :=
  { h with floor := h.floor.mono hle }

/-- A step of the thread, with counters that have not wrapped. -/
theorem Sound.step (h : Sound counts t) (ht : Trans shutdownRequested frameIndex t a t')
    (hcounts : ∀ e, (frameIndex.get e).toNat = counts.get e)
    (hsize : counts.left + counts.right < UInt64.size) : Sound counts t' := by
  have hfloor := ht.floor hcounts hsize h.floor
  cases ht with
  | @report currentIndex hat hsec =>
    have hat' := h.floor
    rw [hat] at hat'
    obtain ⟨hprevious, hcurrent⟩ := hat'
    have hfps : ((currentIndex - t.previousIndex) / t.seconds).toNat =
        (currentIndex.toNat - t.previousIndex.toNat) / kEncodeStatsLogIntervalSeconds.toNat := by
      rw [UInt64.toNat_div, hsec, UInt64.toNat_sub_of_le _ _ (UInt64.le_iff_toNat_le.mpr hprevious)]
    have hsums : ∀ n ∈ t.sums, n ≤ currentIndex.toNat :=
      fun n hn => Nat.le_trans (h.le_previous n hn) hprevious
    constructor
    · simp [sums]
    · intro n hn
      simp only [sums, List.map_append, List.map_singleton, List.mem_append,
        List.mem_singleton] at hn
      rcases hn with hn | rfl
      · exact hsums n hn
      · exact Nat.le_refl _
    · simp only [sums, List.map_append, List.map_singleton]
      refine List.pairwise_append.mpr ⟨h.sorted, List.pairwise_singleton _ _, ?_⟩
      intro n hn m hm
      rw [List.mem_singleton.mp hm]
      exact hsums n hn
    · have hsums : ∀ r, t.reports.map (fun r => r.currentIndex.toNat) ++ [r] = t.sums ++ [r] :=
        fun _ => rfl
      simp only [sums, List.map_append, List.map_singleton, hsums, rates_concat, hfps, h.fps_eq,
        h.previous_eq]
    · exact hcurrent
  | exit | enter | loadFirst | loadSecond | tick => exact { h with floor := hfloor }

/-- The rates never add up to more requests than there are. -/
theorem Sound.mul_sum_fps_le (h : Sound counts t) :
    kEncodeStatsLogIntervalSeconds.toNat * (t.reports.map fun r => r.fps.toNat).sum ≤
      t.previousIndex.toNat := by
  have hsorted : (0 :: t.sums).Pairwise (· ≤ ·) :=
    List.pairwise_cons.mpr ⟨fun n _ => Nat.zero_le n, h.sorted⟩
  have hle := mul_sum_rates_le 0 t.sums hsorted
  rw [Nat.zero_add] at hle
  rw [h.fps_eq, h.previous_eq]
  exact hle

/-- There are at least as many requests as the last sum. -/
theorem Sound.previous_le (h : Sound counts t) :
    t.previousIndex.toNat ≤ counts.left + counts.right := by
  have hfloor := h.floor
  cases hat : t.point with
  | loaded e index =>
    rw [hat] at hfloor
    have hboth := counts.get_add_get_not e
    obtain ⟨hindex, hleast⟩ := hfloor
    omega
  | summed currentIndex =>
    rw [hat] at hfloor
    exact Nat.le_trans hfloor.1 hfloor.2
  | loopHead | loading | returned =>
    rw [hat] at hfloor
    exact hfloor

end EncodeStats

end Ngp

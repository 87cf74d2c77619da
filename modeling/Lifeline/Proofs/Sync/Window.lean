import Lifeline.Sync.Metrics
import Mathlib.Algebra.Order.BigOperators.Group.List
import Mathlib.Algebra.Order.Monoid.NatCast
import Mathlib.Algebra.Order.Ring.Nat
import Mathlib.Data.List.DropRight
import Mathlib.Data.List.Induction

/-! What metrics keep of the durations that are recorded.

In each direction these are the latest durations of that direction, as many as there is room for. The mean
of numbers lies between the smallest and the greatest of them, and so it does when it is rounded down. -/

set_option autoImplicit false

namespace Lifeline.Metrics

variable {window duration least greatest : Nat} {direction other : Direction}
  {records : List (Direction × Nat)} {samples : List Nat} {metrics : Metrics}

def recordAll (metrics : Metrics) (records : List (Direction × Nat)) : Metrics :=
  records.foldl (fun metrics sample => metrics.record sample.1 sample.2) metrics

def durations (direction : Direction) (records : List (Direction × Nat)) : List Nat :=
  (records.filter (·.1 = direction)).map Prod.snd

/-! ## Recording -/

theorem durations_concat (direction other : Direction) (duration : Nat)
    (records : List (Direction × Nat)) :
    durations direction (records ++ [(other, duration)]) =
      durations direction records ++ if other = direction then [duration] else [] := by
  by_cases same : other = direction <;> simp [durations, same]

theorem length_rtake (count : Nat) (samples : List Nat) :
    (samples.rtake count).length = min samples.length count := by
  rw [List.rtake, List.length_drop]
  omega

/-- Behind the latest durations a new one has the place of the oldest, if they are as many as there is
room for. -/
theorem extend_rtake (room : 0 < window) (samples : List Nat) (duration : Nat) :
    extend window (samples.rtake window) duration = (samples ++ [duration]).rtake window := by
  obtain ⟨count, rfl⟩ := Nat.exists_eq_succ_of_ne_zero room.ne'
  rw [List.rtake_concat_succ, extend, length_rtake]
  split
  · rename_i full
    have later : samples.length - (count + 1) + 1 = samples.length - count := by omega
    rw [List.rtake, List.tail_drop, later, ← List.rtake]
  · rename_i few
    have all : samples.length - (count + 1) = samples.length - count := by omega
    rw [List.rtake, all, ← List.rtake]

structure Keeps (window : Nat) (records : List (Direction × Nat)) (metrics : Metrics) : Prop where
  room : metrics.window = max window 1
  recent : ∀ direction, metrics.samples direction = (durations direction records).rtake (max window 1)
  total : metrics.syncs = records.length

theorem keeps_new (window : Nat) : Keeps window [] (new window) where
  room := rfl
  recent direction := by
    rw [durations, List.filter_nil, List.map_nil, List.rtake_nil]
    cases direction <;> rfl
  total := rfl

theorem Keeps.record (keeps : Keeps window records metrics) (direction : Direction)
    (duration : Nat) :
    Keeps window (records ++ [(direction, duration)]) (metrics.record direction duration) where
  room := by
    rw [← keeps.room]
    cases direction <;> rfl
  recent other := by
    have positive : 0 < max window 1 := Nat.lt_of_lt_of_le Nat.one_pos (Nat.le_max_right _ _)
    rw [samples_record, durations_concat, keeps.room, keeps.recent]
    split
    · exact extend_rtake positive _ duration
    · rw [List.append_nil]
  total := by rw [syncs_record, keeps.total, List.length_append, List.length_singleton]

theorem keeps_recordAll (window : Nat) (records : List (Direction × Nat)) :
    Keeps window records ((new window).recordAll records) := by
  induction records using List.reverseRecOn with
  | nil => exact keeps_new window
  | append_singleton records sample ih =>
    rw [recordAll, List.foldl_append]
    exact ih.record sample.1 sample.2

/-! ## Reporting -/

theorem mean_between (some : samples ≠ []) (small : samples.min? = .some least)
    (great : samples.max? = .some greatest) :
    least ≤ samples.sum / samples.length ∧ samples.sum / samples.length ≤ greatest := by
  have count : 0 < samples.length := List.length_pos_of_ne_nil some
  have above := List.card_nsmul_le_sum samples least fun sample member =>
    (List.min?_eq_some_iff.1 small).2 sample member
  have below := List.sum_le_card_nsmul samples greatest fun sample member =>
    (List.max?_eq_some_iff.1 great).2 sample member
  rw [nsmul_eq_mul, Nat.mul_comm] at above
  rw [nsmul_eq_mul] at below
  exact ⟨(Nat.le_div_iff_mul_le count).2 above, Nat.div_le_of_le_mul below⟩

theorem total_eq (durations : List Nat) :
    total durations =
      if durations.sum < durationLimit then .ok durations.sum else .error ⟨⟩ := rfl

theorem average_of_ne_nil (some : metrics.samples direction ≠ [])
    (few : (metrics.samples direction).length < countLimit) :
    metrics.average direction = (total (metrics.samples direction)).map fun sum =>
      .some (sum / (metrics.samples direction).length) := by
  have counted : 0 < (metrics.samples direction).length ∧
      (metrics.samples direction).length < countLimit := ⟨List.length_pos_of_ne_nil some, few⟩
  rw [average, if_pos counted]
  rfl

theorem average_of_eq_nil (none : metrics.samples direction = []) :
    metrics.average direction = .ok .none := by
  rw [average, none]
  rfl

/-- Metrics with room for fewer than 2^32 samples keep the latest durations of each direction, count all,
and report a mean between the extremes of those samples wherever there are any, as long as their sum is a
duration. There is no report if it is not. -/
theorem rolling_window (small : window < countLimit) (records : List (Direction × Nat))
    (direction : Direction) :
    let metrics := (new window).recordAll records
    let samples := metrics.samples direction
    let own := durations direction records
    samples = own.rtake (min own.length (max window 1)) ∧
      metrics.syncs = records.length ∧
      (metrics.maximum direction = none ↔ own = []) ∧
      (metrics.average direction = .error ⟨⟩ ↔ durationLimit ≤ samples.sum) ∧
      (metrics.average direction = .ok none ↔ own = []) ∧
      ∀ mean, metrics.average direction = .ok (some mean) →
        mean = samples.sum / samples.length ∧ ∃ least greatest,
          samples.min? = some least ∧ metrics.maximum direction = some greatest ∧
            least ≤ mean ∧ mean ≤ greatest := by
  intro metrics samples own
  have keeps : Keeps window records metrics := keeps_recordAll window records
  have recent : samples = own.rtake (max window 1) := keeps.recent direction
  have length : samples.length = min own.length (max window 1) := by
    rw [recent, length_rtake]
  have none : samples = [] ↔ own = [] := by
    rw [← List.length_eq_zero_iff, ← List.length_eq_zero_iff, length]
    omega
  have few : samples.length < countLimit := by
    have one : 1 < countLimit := by decide
    omega
  have kept : samples = own.rtake (min own.length (max window 1)) := by
    rw [recent, List.rtake, List.rtake]
    congr 1
    omega
  have greatest : metrics.maximum direction = .none ↔ own = [] := by
    rw [← none, maximum, List.max?_eq_none_iff]
  refine ⟨kept, keeps.total, greatest, ?_⟩
  rw [← none]
  by_cases empty : samples = []
  · have nothing : samples.sum < durationLimit := by rw [empty]; decide
    rw [average_of_eq_nil empty]
    exact ⟨iff_of_false nofun (Nat.not_le.2 nothing), iff_of_true rfl empty, nofun⟩
  have average := average_of_ne_nil empty few
  by_cases fits : samples.sum < durationLimit
  · rw [average, total_eq, if_pos fits]
    refine ⟨iff_of_false nofun (Nat.not_le.2 fits), iff_of_false nofun empty, ?_⟩
    rintro mean ⟨⟩
    obtain ⟨least, small⟩ := Option.isSome_iff_exists.1 (List.isSome_min?_of_ne_nil empty)
    obtain ⟨greatest, great⟩ := Option.isSome_iff_exists.1 (List.isSome_max?_of_ne_nil empty)
    exact ⟨rfl, least, greatest, small, great, mean_between empty small great⟩
  · rw [average, total_eq, if_neg fits]
    exact ⟨iff_of_true rfl (Nat.not_lt.1 fits), iff_of_false nofun empty, nofun⟩

def mixed : List (Direction × Nat) :=
  [(.toBoard, 10), (.toBoard, 22), (.toCode, 5), (.toBoard, 30), (.toBoard, 40)]

theorem rolling_window_mixed :
    3 < countLimit ∧ ((new 3).recordAll mixed).samples .toBoard = [22, 30, 40] ∧
      ((new 3).recordAll mixed).syncs = 5 ∧
      ((new 3).recordAll mixed).average .toBoard = .ok (some 30) ∧
      ∃ least greatest, [22, 30, 40].min? = some least ∧
        ((new 3).recordAll mixed).maximum .toBoard = some greatest ∧ least ≤ 30 ∧ 30 ≤ greatest := by
  have room : 3 < countLimit := by decide
  obtain ⟨samples, syncs, -, -, -, between⟩ := rolling_window room mixed .toBoard
  have average : ((new 3).recordAll mixed).average .toBoard = .ok (some 30) := by decide
  obtain ⟨-, least, greatest, small, great, bounds⟩ := between 30 average
  exact ⟨room, samples, syncs, average, least, greatest, small, great, bounds⟩

/-- Of the longest duration twice there is a maximum and no mean. -/
theorem average_longest :
    let longest := durationLimit - 1
    let metrics := (new 2).recordAll [(.toBoard, longest), (.toBoard, longest)]
    metrics.samples .toBoard = [longest, longest] ∧ metrics.maximum .toBoard = some longest ∧
      metrics.average .toBoard = .error ⟨⟩ := by
  decide

end Lifeline.Metrics

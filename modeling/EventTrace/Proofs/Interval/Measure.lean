import EventTrace.Proofs.Interval.Pairing
import Mathlib.Algebra.Order.BigOperators.Group.List
import Mathlib.Algebra.Order.Field.Basic
import Mathlib.Algebra.Order.Ring.Rat
/-! What a slot tells of its intervals if times are rationals, of which all can be compared and none is rounded. Main
result: where no interval ends before it begins, all durations that a slot tells are in order. -/
namespace EventTrace.IntervalState

variable {s : IntervalState Rat} {is : List (Interval Rat)} {pending : Option (Moment Rat)}

/-- The duration of one of the intervals that comes before that of all others. -/
def IsExtreme (le : Rat → Rat → Prop) (is : List (Interval Rat)) (duration : Rat) : Prop :=
  (∃ i ∈ is, duration = i.duration) ∧ ∀ i ∈ is, le duration i.duration

/-- A test for what comes first in an order of rationals. -/
structure Decides (le : Rat → Rat → Prop) (precedes : Rat → Rat → Bool) : Prop where
  refl : ∀ x, le x x
  trans : ∀ {x y z}, le x y → le y z → le x z
  before : ∀ {x y}, precedes x y = true → le x y
  after : ∀ {x y}, precedes x y = false → le y x

theorem decides_least : Decides (· ≤ ·) Scalar.lt where
  refl := le_refl
  trans := le_trans
  before h := (of_decide_eq_true h).le
  after h := not_lt.mp (of_decide_eq_false h)

theorem decides_greatest : Decides (· ≥ ·) fun x y => Scalar.lt y x where
  refl := le_refl
  trans := ge_trans
  before h := (of_decide_eq_true h).le
  after h := not_lt.mp (of_decide_eq_false h)

/-- How an extreme duration is kept. -/
theorem IsExtreme.concat {le : Rat → Rat → Prop} {precedes : Rat → Rat → Bool} (decides : Decides le precedes)
    {value : Rat} (h : is ≠ [] → IsExtreme le is value) (i : Interval Rat) :
    IsExtreme le (is ++ [i]) (if is.length == 0 || precedes i.duration value then i.duration else value) := by
  cases is with
  | nil => exact ⟨⟨i, by simp, rfl⟩, by simp [decides.refl]⟩
  | cons j is =>
    obtain ⟨⟨k, hk, rfl⟩, hall⟩ := h (List.cons_ne_nil j is)
    cases hp : precedes i.duration k.duration with
    | true =>
      refine ⟨⟨i, by simp, by simp⟩, fun l hl => ?_⟩
      rcases List.mem_append.mp hl with hl | hl
      · simpa using decides.trans (decides.before hp) (hall l hl)
      · simp [List.mem_singleton.mp hl, decides.refl]
    | false =>
      refine ⟨⟨k, List.mem_append_left _ hk, by simp⟩, fun l hl => ?_⟩
      rcases List.mem_append.mp hl with hl | hl
      · simpa using hall l hl
      · simpa [List.mem_singleton.mp hl] using decides.after hp

/-- The state of a slot measures its intervals: it keeps account of them, and of the least and the greatest duration. -/
structure Measures (s : IntervalState Rat) (is : List (Interval Rat)) (pending : Option (Moment Rat)) : Prop
    extends Accounts s is pending where
  shortest : is ≠ [] → IsExtreme (· ≤ ·) is s.min
  longest : is ≠ [] → IsExtreme (· ≥ ·) is s.max

/-- The durations that a slot tells are not negative, and none of them is out of order. -/
structure InOrder (s : IntervalState Rat) : Prop where
  min_nonneg : 0 ≤ s.min
  first : s.min ≤ s.first ∧ s.first ≤ s.max
  last : s.min ≤ s.last ∧ s.last ≤ s.max
  average : s.min ≤ s.average ∧ s.average ≤ s.max

theorem measures_empty : Measures empty [] none where
  toAccounts := accounts_empty
  shortest h := absurd rfl h
  longest h := absurd rfl h

theorem average_eq (h : s.count ≠ 0) : s.average = s.total / (s.count : Rat) := by
  rw [average, if_neg h]
  rfl

namespace Measures

theorem count_ne_zero_iff (h : s.Measures is pending) : s.count ≠ 0 ↔ is ≠ [] := by
  rw [h.count, Ne, List.length_eq_zero_iff]

theorem start (h : s.Measures is none) (m : Moment Rat) : (s.take (.start m)).Measures is (some m) := by
  have haccounts := h.toAccounts.start m
  rw [h.take_start] at haccounts ⊢
  exact { haccounts with shortest := h.shortest, longest := h.longest }

theorem stop {m : Moment Rat} (h : s.Measures is (some m)) (n : Moment Rat) :
    (s.take (.stop n)).Measures (is ++ [⟨m, n⟩]) none := by
  have haccounts := h.toAccounts.stop n
  have hmin := IsExtreme.concat decides_least h.shortest ⟨m, n⟩
  have hmax := IsExtreme.concat decides_greatest h.longest ⟨m, n⟩
  rw [← h.seeded_eq] at hmin hmax
  rw [h.take_stop] at haccounts ⊢
  exact { haccounts with shortest := fun _ => hmin, longest := fun _ => hmax }

theorem play (h : s.Measures is none) (signals : List (Signal Rat)) :
    (s.play signals).Measures (is ++ (pairing signals).1) (pairing signals).2 :=
  play_along (P := Measures) (·.running) start stop h signals

/-- The mean of durations lies between bounds of them. -/
theorem average_between (h : s.Measures is pending) (hsome : is ≠ []) {low high : Rat}
    (hlow : ∀ i ∈ is, low ≤ i.duration) (hhigh : ∀ i ∈ is, i.duration ≤ high) :
    low ≤ s.average ∧ s.average ≤ high := by
  have hcount : s.count ≠ 0 := h.count_ne_zero_iff.mpr hsome
  have htotal : s.total = (is.map Interval.duration).sum := h.total.trans List.sum_eq_foldl.symm
  have hpos : (0 : Rat) < s.count := Nat.cast_pos.mpr (Nat.pos_of_ne_zero hcount)
  have hbelow := List.card_nsmul_le_sum (is.map Interval.duration) low (List.forall_mem_map.mpr hlow)
  have habove := List.sum_le_card_nsmul (is.map Interval.duration) high (List.forall_mem_map.mpr hhigh)
  rw [List.length_map, ← h.count, ← htotal, nsmul_eq_mul, mul_comm] at hbelow habove
  rw [average_eq hcount]
  exact ⟨(le_div_iff₀ hpos).mpr hbelow, (div_le_iff₀ hpos).mpr habove⟩

theorem inOrder (h : s.Measures is pending) (hsome : is ≠ []) (hnonneg : ∀ i ∈ is, 0 ≤ i.duration) : s.InOrder := by
  obtain ⟨⟨i, hi, hmin⟩, hleast⟩ := h.shortest hsome
  obtain ⟨-, hgreatest⟩ := h.longest hsome
  have hfirst := h.first _ (List.head?_eq_some_head hsome)
  have hlast := h.last _ (List.getLast?_eq_some_getLast hsome)
  have hhead := List.head_mem hsome
  have hend := List.getLast_mem hsome
  exact
    { min_nonneg := hmin ▸ hnonneg i hi
      first := hfirst.1 ▸ ⟨hleast _ hhead, hgreatest _ hhead⟩
      last := hlast.1 ▸ ⟨hleast _ hend, hgreatest _ hend⟩
      average := h.average_between hsome hleast hgreatest }

end Measures

end EventTrace.IntervalState

import EventTrace.Interval.State
import EventTrace.Proofs.Double.Order
/-! The intervals in the history of one slot, and what its state tells of them. Main statement: after any history the
state sums up the pairing of the history, which is read off the list of starts and stops and not off a state. -/
namespace EventTrace

structure Moment (α : Type) where
  time : α
  caption : String

inductive Signal (α : Type)
  | start (m : Moment α)
  | stop (m : Moment α)

def Signal.isStart {α : Type} : Signal α → Bool
  | .start _ => true
  | .stop _ => false

structure Interval (α : Type) where
  start : Moment α
  stop : Moment α

namespace Interval

def duration {α : Type} [Sub α] (i : Interval α) : α := i.stop.time - i.start.time

def captions {α : Type} (i : Interval α) : String × String := (i.start.caption, i.stop.caption)

/-- The earliest of those intervals whose duration precedes all others. A duration that is no number is passed over,
unless it is the first of all, which nothing replaces. -/
def Foremost (precedes : Float → Float → Bool) (is : List (Interval Float)) (i : Interval Float) : Prop :=
  ∃ before after, is = before ++ i :: after ∧
    (∀ j ∈ before.head?, j.duration.isNaN = false) ∧
    (∀ j ∈ before, j.duration.isNaN = false → precedes i.duration j.duration = true) ∧
    ∀ j ∈ after, precedes j.duration i.duration = false

theorem foremost_singleton (precedes : Float → Float → Bool) (i : Interval Float) : Foremost precedes [i] i :=
  ⟨[], [], rfl, by simp, by simp, by simp⟩

theorem Foremost.keep {precedes : Float → Float → Bool} {is : List (Interval Float)} {i j : Interval Float}
    (h : Foremost precedes is i) (hj : precedes j.duration i.duration = false) :
    Foremost precedes (is ++ [j]) i := by
  obtain ⟨before, after, rfl, hhead, hbefore, hafter⟩ := h
  refine ⟨before, after ++ [j], by simp, hhead, hbefore, ?_⟩
  intro k hk
  rcases List.mem_append.mp hk with hk | hk
  · exact hafter k hk
  · rw [List.mem_singleton.mp hk]
    exact hj

theorem Foremost.replace {precedes : Float → Float → Bool} (strict : Double.Strict precedes)
    {is : List (Interval Float)} {i j : Interval Float}
    (h : Foremost precedes is i) (hj : precedes j.duration i.duration = true) :
    Foremost precedes (is ++ [j]) j := by
  obtain ⟨before, after, rfl, hhead, hbefore, hafter⟩ := h
  refine ⟨before ++ i :: after, [], rfl, ?_, ?_, by simp⟩
  · intro k hk
    cases before with
    | nil =>
      obtain rfl : i = k := by simpa using hk
      exact (strict.numbers hj).2
    | cons b before => exact hhead k (by simpa using hk)
  · intro k hk number
    rcases List.mem_append.mp hk with hk | hk
    · exact strict.trans hj (hbefore k hk number)
    · rcases List.mem_cons.mp hk with rfl | hk
      · exact hj
      · exact strict.skip hj number (hafter k hk)

end Interval

/-- The intervals of a history and the start that is left over, if there is one. A stop that no start precedes is an
orphan. Behind a start further starts do not count, so the next stop closes the earliest one. -/
def pairing {α : Type} : List (Signal α) → List (Interval α) × Option (Moment α)
  | [] => ([], none)
  | .stop _ :: signals => pairing signals
  | .start m :: signals =>
    match _h : signals.dropWhile Signal.isStart with
    | .stop n :: rest => (⟨m, n⟩ :: (pairing rest).1, (pairing rest).2)
    | _ => ([], some m)
termination_by signals => signals.length
decreasing_by
  · simp
  all_goals
    have := (List.dropWhile_suffix (l := signals) Signal.isStart).length_le
    rw [_h, List.length_cons] at this
    simp only [List.length_cons]
    omega

section
variable {α : Type} {signals rest : List (Signal α)} {m n : Moment α}

/-- Behind the starts in front stands a stop, or nothing. -/
theorem dropWhile_isStart_eq_nil (h : ∀ n rest, signals.dropWhile Signal.isStart = .stop n :: rest → False) :
    signals.dropWhile Signal.isStart = [] := by
  cases e : signals.dropWhile Signal.isStart with
  | nil => rfl
  | cons x rest =>
    have hx := List.head?_dropWhile_not Signal.isStart signals
    cases x with
    | start n => simp [e, Signal.isStart] at hx
    | stop n => exact (h n rest e).elim

theorem pairing_closed (h : signals.dropWhile Signal.isStart = .stop n :: rest) :
    pairing (.start m :: signals) = (⟨m, n⟩ :: (pairing rest).1, (pairing rest).2) := by
  rw [pairing]
  split
  · simp_all
  · simp_all

theorem pairing_open (h : signals.dropWhile Signal.isStart = []) : pairing (.start m :: signals) = ([], some m) := by
  rw [pairing]
  split
  · simp_all
  · rfl

end

namespace IntervalState

section
variable {α : Type} [Scalar α]

def take (s : IntervalState α) : Signal α → IntervalState α
  | .start m => s.start m.time m.caption
  | .stop m => s.stop m.time m.caption

def play (s : IntervalState α) (signals : List (Signal α)) : IntervalState α := signals.foldl take s

theorem take_start_of_running {s : IntervalState α} (h : s.running = true) {x : Signal α} (hx : x.isStart = true) :
    s.take x = s := by
  cases x with
  | start m => simp [take, start, h]
  | stop m => simp [Signal.isStart] at hx

theorem take_stop_of_idle {s : IntervalState α} (h : s.running = false) (m : Moment α) : s.take (.stop m) = s := by
  simp [take, stop, h]

/-- While an interval is open, the starts up to the next stop do not count. -/
theorem play_dropWhile_start {s : IntervalState α} (h : s.running = true) (signals : List (Signal α)) :
    s.play (signals.dropWhile Signal.isStart) = s.play signals := by
  induction signals with
  | nil => rfl
  | cons x signals ih =>
    by_cases hx : x.isStart = true
    · rw [List.dropWhile_cons_of_pos hx, ih, play, play, List.foldl_cons, take_start_of_running h hx]
    · rw [List.dropWhile_cons_of_neg hx]

/-- What holds of a state, its intervals and an open start, and is kept by a start and by the stop behind it, is kept by
every history, which adds its own pairing. -/
theorem play_along {P : IntervalState α → List (Interval α) → Option (Moment α) → Prop}
    (running : ∀ {s is pending}, P s is pending → s.running = pending.isSome)
    (start : ∀ {s is}, P s is none → ∀ m, P (s.take (.start m)) is (some m))
    (stop : ∀ {s is m}, P s is (some m) → ∀ n, P (s.take (.stop n)) (is ++ [⟨m, n⟩]) none)
    {s : IntervalState α} {is : List (Interval α)} (h : P s is none) (signals : List (Signal α)) :
    P (s.play signals) (is ++ (pairing signals).1) (pairing signals).2 := by
  fun_induction pairing signals generalizing s is with
  | case1 => simpa [play] using h
  | case2 m signals ih =>
    have hplay : s.play (.stop m :: signals) = s.play signals := by
      rw [play, List.foldl_cons, take_stop_of_idle (running h)]
      rfl
    rw [hplay]
    exact ih h
  | case3 m signals n rest hrest ih =>
    -- The starts between `m` and `n` leave the state alone, so `n` closes the interval that `m` has opened.
    have opened := start h m
    have hplay : s.play (.start m :: signals) = ((s.take (.start m)).take (.stop n)).play rest := by
      calc s.play (.start m :: signals)
        _ = (s.take (.start m)).play signals := rfl
        _ = (s.take (.start m)).play (.stop n :: rest) := by rw [← hrest, play_dropWhile_start (running opened)]
        _ = ((s.take (.start m)).take (.stop n)).play rest := rfl
    rw [hplay]
    simpa [List.append_assoc] using ih (stop opened n)
  | case4 m signals hrest =>
    have opened := start h m
    have hnil := dropWhile_isStart_eq_nil hrest
    have hplay : s.play (.start m :: signals) = s.take (.start m) := by
      calc s.play (.start m :: signals)
        _ = (s.take (.start m)).play signals := rfl
        _ = (s.take (.start m)).play [] := by rw [← hnil, play_dropWhile_start (running opened)]
        _ = s.take (.start m) := rfl
    rw [hplay]
    simpa using opened

/-- The state of a slot keeps account of its intervals, the last of which may be open. Nothing is said of extremes, which
need times that can be compared. -/
structure Accounts (s : IntervalState α) (is : List (Interval α)) (pending : Option (Moment α)) : Prop where
  running : s.running = pending.isSome
  started : ∀ m ∈ pending, s.startTime = m.time ∧ s.startCaption = m.caption
  count : s.count = is.length
  total : s.total = (is.map Interval.duration).foldl (· + ·) (Scalar.ofInt 0)
  first : ∀ i ∈ is.head?, s.first = i.duration ∧ s.firstTime = i.start.time
  last : ∀ i ∈ is.getLast?, s.last = i.duration ∧ s.lastTime = i.start.time
  untouched : is = [] →
    s = { empty with running := s.running, startTime := s.startTime, startCaption := s.startCaption }

theorem accounts_empty : (empty : IntervalState α).Accounts [] none where
  running := rfl
  started := by simp
  count := rfl
  total := rfl
  first := by simp
  last := by simp
  untouched _ := rfl

namespace Accounts

variable {s : IntervalState α} {is : List (Interval α)} {m : Moment α}

theorem take_start (h : s.Accounts is none) (m : Moment α) :
    s.take (.start m) = { s with running := true, startTime := m.time, startCaption := m.caption } := by
  have idle : s.running = false := h.running
  simp [take, IntervalState.start, idle]

theorem take_stop (h : s.Accounts is (some m)) (n : Moment α) :
    s.take (.stop n) = s.complete (Interval.duration ⟨m, n⟩) n.caption := by
  have open_now : s.running = true := h.running
  obtain ⟨htime, -⟩ := h.started m rfl
  simp [take, IntervalState.stop, open_now, Interval.duration, htime]

theorem seeded_eq {pending : Option (Moment α)} (h : s.Accounts is pending) : (s.count == 0) = (is.length == 0) := by
  rw [h.count]

theorem start (h : s.Accounts is none) (m : Moment α) : (s.take (.start m)).Accounts is (some m) := by
  rw [h.take_start]
  exact { h with running := rfl, started := by simp, untouched := fun hnone => by rw [h.untouched hnone] }

theorem stop (h : s.Accounts is (some m)) (n : Moment α) : (s.take (.stop n)).Accounts (is ++ [⟨m, n⟩]) none := by
  obtain ⟨htime, -⟩ := h.started m rfl
  rw [h.take_stop]
  exact
    { running := rfl
      started := by simp
      count := by simp [complete, h.count]
      total := by simp [complete, h.total, List.foldl_append]
      first := by
        intro i hi
        cases is with
        | nil =>
          obtain rfl : (⟨m, n⟩ : Interval α) = i := by simpa using hi
          simp [complete, h.seeded_eq, htime]
        | cons j js =>
          simpa [complete, h.seeded_eq] using h.first i (by simpa using hi)
      last := by
        intro i hi
        obtain rfl : (⟨m, n⟩ : Interval α) = i := by simpa using hi
        exact ⟨rfl, htime⟩
      untouched := by simp }

end Accounts

end

/-- The state of a slot sums up its intervals: it keeps account of them, and of the foremost of the shortest and of the
longest. -/
structure Summarizes (s : IntervalState Float) (is : List (Interval Float)) (pending : Option (Moment Float)) : Prop
    extends Accounts s is pending where
  shortest : is ≠ [] → ∃ i, Interval.Foremost Double.below is i ∧
    s.min = i.duration ∧ s.minTime = i.start.time ∧ s.minCaptions = i.captions
  longest : is ≠ [] → ∃ i, Interval.Foremost Double.above is i ∧
    s.max = i.duration ∧ s.maxTime = i.start.time ∧ s.maxCaptions = i.captions

theorem summarizes_empty : Summarizes empty [] none where
  toAccounts := accounts_empty
  shortest h := absurd rfl h
  longest h := absurd rfl h

namespace Summarizes

variable {s : IntervalState Float} {is : List (Interval Float)}

theorem start (h : s.Summarizes is none) (m : Moment Float) : (s.take (.start m)).Summarizes is (some m) := by
  have haccounts := h.toAccounts.start m
  rw [h.take_start] at haccounts ⊢
  exact { haccounts with shortest := h.shortest, longest := h.longest }

/-- How an extreme duration is kept with the interval it belongs to. -/
theorem extreme {precedes : Float → Float → Bool} (strict : Double.Strict precedes) {i : Interval Float}
    {value time startTime : Float} {kept captions : String × String}
    (h : is ≠ [] → ∃ j, Interval.Foremost precedes is j ∧ value = j.duration ∧ time = j.start.time ∧ kept = j.captions)
    (htime : startTime = i.start.time) (hcaptions : captions = i.captions) :
    let replaces := is.length == 0 || precedes i.duration value
    ∃ j, Interval.Foremost precedes (is ++ [i]) j ∧
      (if replaces then i.duration else value) = j.duration ∧
      (if replaces then startTime else time) = j.start.time ∧
      (if replaces then captions else kept) = j.captions := by
  intro replaces
  cases is with
  | nil => exact ⟨i, Interval.foremost_singleton precedes i, by simp [replaces, htime, hcaptions]⟩
  | cons j₀ js =>
    obtain ⟨j, foremost, rfl, rfl, rfl⟩ := h (by simp)
    cases hp : precedes i.duration j.duration with
    | true => exact ⟨i, foremost.replace strict hp, by simp [replaces, hp, htime, hcaptions]⟩
    | false => exact ⟨j, foremost.keep hp, by simp [replaces, hp]⟩

theorem stop {m : Moment Float} (h : s.Summarizes is (some m)) (n : Moment Float) :
    (s.take (.stop n)).Summarizes (is ++ [⟨m, n⟩]) none := by
  have haccounts := h.toAccounts.stop n
  obtain ⟨htime, hcaption⟩ := h.started m rfl
  have hcaptions : (s.startCaption, n.caption) = Interval.captions ⟨m, n⟩ := by rw [hcaption, Interval.captions]
  have hmin := extreme Double.strict_below h.shortest htime hcaptions
  have hmax := extreme Double.strict_above h.longest htime hcaptions
  rw [← h.seeded_eq] at hmin hmax
  rw [h.take_stop] at haccounts ⊢
  exact { haccounts with shortest := fun _ => hmin, longest := fun _ => hmax }

/-- From an idle state on, a history adds its own pairing. -/
theorem play (h : s.Summarizes is none) (signals : List (Signal Float)) :
    (s.play signals).Summarizes (is ++ (pairing signals).1) (pairing signals).2 :=
  play_along (P := Summarizes) (·.running) start stop h signals

end Summarizes

end IntervalState
end EventTrace

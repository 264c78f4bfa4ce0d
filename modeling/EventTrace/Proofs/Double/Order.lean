import EventTrace.Scalar
import Mathlib.Data.Prod.Lex
/-! The order of doubles. Every double that is a number has a place in a linear order, and one double is below
another exactly if both are numbers and their places say so. A comparison that fails therefore says something only
between numbers. -/
namespace EventTrace.Double

open Float.Model (UnpackedFloat)

/-- Where a number stands: first its kind (an infinity, a finite number or a zero, with its sign), then exponent
and significand, which count backwards below zero. -/
def place : UnpackedFloat → Int ×ₗ Int ×ₗ Int
  | .infinity .negative => toLex (-2, toLex (0, 0))
  | .finite .negative m e _ => toLex (-1, toLex (-e, -m))
  | .zero _ | .notANumber => toLex (0, toLex (0, 0))
  | .finite .positive m e _ => toLex (1, toLex (e, m))
  | .infinity .positive => toLex (2, toLex (0, 0))

theorem compare_then_eq_lt (e f : Int) (m n : Nat) :
    (compare e f).then (compare m n) = .lt ↔ e < f ∨ e = f ∧ m < n := by
  rw [Ordering.then_eq_lt, compare_lt_iff_lt, compare_eq_iff_eq, compare_lt_iff_lt]

theorem compare_then_eq_gt (e f : Int) (m n : Nat) :
    (compare e f).then (compare m n) = .gt ↔ f < e ∨ e = f ∧ n < m := by
  rw [Ordering.then_eq_gt, compare_gt_iff_gt, compare_eq_iff_eq, compare_gt_iff_gt]

theorem isNaN_infinity (s : UnpackedFloat.Sign) : (UnpackedFloat.infinity s).isNaN = false := rfl

theorem isNaN_zero (s : UnpackedFloat.Sign) : (UnpackedFloat.zero s).isNaN = false := rfl

theorem isNaN_notANumber : UnpackedFloat.notANumber.isNaN = true := rfl

theorem isNaN_finite (s : UnpackedFloat.Sign) (m : Nat) (e : Int) (h : 0 < m) :
    (UnpackedFloat.finite s m e h).isNaN = false := rfl

theorem unpacked_lt_iff (a b : UnpackedFloat) :
    a.lt b = true ↔ a.isNaN = false ∧ b.isNaN = false ∧ place a < place b := by
  have signs : compare UnpackedFloat.Sign.negative .positive = .lt := rfl
  -- Exponents and significands are compared between two finite numbers of one sign only.
  rcases a with (_ | _) | _ | _ | ⟨(_ | _), m, e, hm⟩ <;>
    rcases b with (_ | _) | _ | _ | ⟨(_ | _), n, f, hn⟩ <;>
    dsimp only [UnpackedFloat.lt, UnpackedFloat.compare, isNaN_infinity, isNaN_notANumber, isNaN_zero,
      isNaN_finite, place] <;>
    simp [Prod.Lex.toLex_lt_toLex, compare_then_eq_lt, compare_then_eq_gt, signs]

theorem lt_iff (x y : Float) :
    Scalar.lt x y = true ↔
      x.isNaN = false ∧ y.isNaN = false ∧ place x.toModel.unpack < place y.toModel.unpack := by
  have h : x < y ↔ x.toModel.unpack.lt y.toModel.unpack = true := decide_eq_true_iff
  simp only [Scalar.lt, decide_eq_true_eq, h]
  exact unpacked_lt_iff _ _

/-- Only numbers are below anything. -/
theorem numbers_of_lt {x y : Float} (h : Scalar.lt x y = true) : x.isNaN = false ∧ y.isNaN = false := by
  obtain ⟨hx, hy, _⟩ := (lt_iff x y).mp h
  exact ⟨hx, hy⟩

theorem lt_trans {x y z : Float} (hxy : Scalar.lt x y = true) (hyz : Scalar.lt y z = true) :
    Scalar.lt x z = true := by
  obtain ⟨hx, _, h⟩ := (lt_iff x y).mp hxy
  obtain ⟨_, hz, h'⟩ := (lt_iff y z).mp hyz
  exact (lt_iff x z).mpr ⟨hx, hz, h.trans h'⟩

theorem place_le_of_not_lt {x y : Float} (hx : x.isNaN = false) (hy : y.isNaN = false)
    (h : Scalar.lt x y = false) : place y.toModel.unpack ≤ place x.toModel.unpack := by
  by_contra hlt
  have := (lt_iff x y).mpr ⟨hx, hy, not_le.mp hlt⟩
  simp [h] at this

/-- A strict comparison of doubles: it holds between numbers only, and what does not precede `y` is preceded by
everything that precedes `y`, if it is a number. -/
structure Strict (precedes : Float → Float → Bool) : Prop where
  numbers : ∀ {x y}, precedes x y = true → x.isNaN = false ∧ y.isNaN = false
  trans : ∀ {x y z}, precedes x y = true → precedes y z = true → precedes x z = true
  skip : ∀ {x y z}, precedes x y = true → z.isNaN = false → precedes z y = false → precedes x z = true

def below (x y : Float) : Bool := Scalar.lt x y

def above (x y : Float) : Bool := Scalar.lt y x

theorem strict_below : Strict below where
  numbers := numbers_of_lt
  trans := lt_trans
  skip := by
    intro x y z hxy hz hzy
    obtain ⟨hx, hy, h⟩ := (lt_iff x y).mp hxy
    exact (lt_iff x z).mpr ⟨hx, hz, h.trans_le (place_le_of_not_lt hz hy hzy)⟩

theorem strict_above : Strict above where
  numbers h := (numbers_of_lt h).symm
  trans hxy hyz := lt_trans hyz hxy
  skip := by
    intro x y z hxy hz hzy
    obtain ⟨hy, hx, h⟩ := (lt_iff y x).mp hxy
    exact (lt_iff z x).mpr ⟨hz, hx, (place_le_of_not_lt hy hz hzy).trans_lt h⟩

end EventTrace.Double

import ChargingSite.Number.Binary64.Arithmetic
import ChargingSite.Proofs.Number.Binary64.Rounding
import Mathlib.Data.Finite.Prod
import Mathlib.Data.Set.Card

/-!
# The order of doubles

Between doubles that are numbers, comparisons compare places on the number line (`lt_iff_place_lt`,
`le_iff_place_le`), and nothing compares with not a number.  So `≤` and `<` chain as usual.  There
are only finitely many doubles, which bounds every rising sequence of them (`between_lt_between`).
-/

namespace ChargingSite.Binary64

/-! ### Comparisons and places -/

@[simp] theorem lt_nan (x : Binary64) : x.lt nan = false := by
  cases x <;> rfl

@[simp] theorem nan_lt (x : Binary64) : nan.lt x = false := by
  cases x <;> rfl

@[simp] theorem le_nan (x : Binary64) : x.le nan = false := by
  cases x <;> rfl

@[simp] theorem nan_le (x : Binary64) : nan.le x = false := by
  cases x <;> rfl

theorem ne_nan_of_lt {x y : Binary64} (h : x.lt y = true) : x ≠ nan ∧ y ≠ nan := by
  constructor <;> rintro rfl <;> simp at h

theorem ne_nan_of_le {x y : Binary64} (h : x.le y = true) : x ≠ nan ∧ y ≠ nan := by
  constructor <;> rintro rfl <;> simp at h

theorem neg_limit_lt_limit : -limit < limit :=
  neg_lt_self limit_pos

theorem lt_iff_place_lt {x y : Binary64} (hx : x ≠ nan) (hy : y ≠ nan) :
    x.lt y = true ↔ x.place < y.place := by
  cases x with
  | nan => exact absurd rfl hx
  | infinity s =>
    cases y with
    | nan => exact absurd rfl hy
    | infinity t => cases s <;> cases t <;> simp [lt, place, signed, limit_pos, limit_pos.le]
    | finite t m e h =>
      -- every finite number lies between the infinities
      have := abs_lt.mp (abs_toRat_finite_lt_limit (s := t) h)
      cases s <;> simp [lt, place, signed, this, this.2.le]
  | finite s m e h =>
    cases y with
    | nan => exact absurd rfl hy
    | infinity t =>
      have := abs_lt.mp (abs_toRat_finite_lt_limit (s := s) h)
      cases t <;> simp [lt, place, signed, this, this.1.le]
    | finite t m' e' h' => simp [lt, place]

theorem eq_iff_place_eq {x y : Binary64} (hx : x ≠ nan) (hy : y ≠ nan) :
    x.eq y = true ↔ x.place = y.place := by
  cases x with
  | nan => exact absurd rfl hx
  | infinity s =>
    cases y with
    | nan => exact absurd rfl hy
    | infinity t =>
      have := neg_limit_lt_limit
      cases s <;> cases t <;> simp [eq, place, signed, this.ne, this.ne']
    | finite t m e h =>
      -- every finite number lies between the infinities
      have := abs_lt.mp (abs_toRat_finite_lt_limit (s := t) h)
      cases s <;> simp [eq, place, signed, this.1.ne, this.2.ne']
  | finite s m e h =>
    cases y with
    | nan => exact absurd rfl hy
    | infinity t =>
      have := abs_lt.mp (abs_toRat_finite_lt_limit (s := s) h)
      cases t <;> simp [eq, place, signed, this.1.ne', this.2.ne]
    | finite t m' e' h' => simp [eq, place]

theorem le_iff_place_le {x y : Binary64} (hx : x ≠ nan) (hy : y ≠ nan) :
    x.le y = true ↔ x.place ≤ y.place := by
  rw [le, Bool.or_eq_true, lt_iff_place_lt hx hy, eq_iff_place_eq hx hy, le_iff_lt_or_eq]

/-! ### Chains -/

theorem le_trans {x y z : Binary64} (hxy : x.le y = true) (hyz : y.le z = true) :
    x.le z = true := by
  obtain ⟨hx, hy⟩ := ne_nan_of_le hxy
  obtain ⟨-, hz⟩ := ne_nan_of_le hyz
  rw [le_iff_place_le hx hy] at hxy
  rw [le_iff_place_le hy hz] at hyz
  exact (le_iff_place_le hx hz).mpr (hxy.trans hyz)

theorem lt_of_lt_of_le {x y z : Binary64} (hxy : x.lt y = true) (hyz : y.le z = true) :
    x.lt z = true := by
  obtain ⟨hx, hy⟩ := ne_nan_of_lt hxy
  obtain ⟨-, hz⟩ := ne_nan_of_le hyz
  rw [lt_iff_place_lt hx hy] at hxy
  rw [le_iff_place_le hy hz] at hyz
  exact (lt_iff_place_lt hx hz).mpr (hxy.trans_le hyz)

theorem lt_of_le_of_lt {x y z : Binary64} (hxy : x.le y = true) (hyz : y.lt z = true) :
    x.lt z = true := by
  obtain ⟨hx, hy⟩ := ne_nan_of_le hxy
  obtain ⟨-, hz⟩ := ne_nan_of_lt hyz
  rw [le_iff_place_le hx hy] at hxy
  rw [lt_iff_place_lt hy hz] at hyz
  exact (lt_iff_place_lt hx hz).mpr (hxy.trans_lt hyz)

theorem le_of_lt {x y : Binary64} (h : x.lt y = true) : x.le y = true := by
  rw [le, h, Bool.true_or]

theorem le_refl {x : Binary64} (hx : x ≠ nan) : x.le x = true :=
  (le_iff_place_le hx hx).mpr le_rfl

theorem not_le_of_lt {x y : Binary64} (h : x.lt y = true) : y.le x = false := by
  obtain ⟨hx, hy⟩ := ne_nan_of_lt h
  rw [lt_iff_place_lt hx hy] at h
  rw [← Bool.not_eq_true, le_iff_place_le hy hx]
  exact not_le.mpr h

/-- Of two numbers that are not in order, the second is less than the first. -/
theorem lt_of_not_le {x y : Binary64} (hx : x ≠ nan) (hy : y ≠ nan) (h : x.le y = false) :
    y.lt x = true := by
  rw [lt_iff_place_lt hy hx, ← not_le, ← le_iff_place_le hx hy, h]
  exact Bool.false_ne_true

/-! ### Finitely many -/

instance : Finite Binary64 := by
  -- sign, significand and exponent of a finite double are taken from finite ranges
  let parts : Bool × Bool × Fin 9007199254740992 × Fin 2046 → Binary64 := fun (inf, s, m, k) =>
    if inf then infinity s
    else if h : Canonical m (k - 1074) then finite s m (k - 1074) h else nan
  refine Finite.of_surjective (fun p => Option.elim p nan parts) fun x => ?_
  cases x with
  | nan => exact ⟨none, rfl⟩
  | infinity s => exact ⟨some (true, s, 0, 0), rfl⟩
  | finite s m e h =>
    obtain ⟨hm, hlow, hhigh, -⟩ := id h
    refine ⟨some (false, s, ⟨m, hm⟩, ⟨(e + 1074).toNat, by omega⟩), ?_⟩
    have he : (((e + 1074).toNat : ℕ) : ℤ) - 1074 = e := by omega
    simp only [Option.elim_some, parts, Bool.false_eq_true, ite_false, he]
    exact dif_pos h

/-- The number of doubles from `x` on and below `y`. -/
noncomputable def between (x y : Binary64) : ℕ :=
  {z : Binary64 | x.le z = true ∧ z.lt y = true}.ncard

theorem between_mono {x x' y : Binary64} (h : ∀ z, x'.le z = true → x.le z = true) :
    between x' y ≤ between x y :=
  Set.ncard_le_ncard (fun z hz => ⟨h z hz.1, hz.2⟩)

/-- Above a double that is itself below `y`, fewer doubles are left below `y`. -/
theorem between_lt_between {x x' y : Binary64} (hx : x.lt x' = true) (hy : x.lt y = true) :
    between x' y < between x y := by
  refine Set.ncard_lt_ncard ⟨fun z hz => ⟨le_trans (le_of_lt hx) hz.1, hz.2⟩, fun hsub => ?_⟩
    (Set.toFinite _)
  have hmem := hsub (show x ∈ {z : Binary64 | x.le z = true ∧ z.lt y = true} from
    ⟨le_refl (ne_nan_of_lt hx).1, hy⟩)
  rw [Set.mem_ofPred_eq, not_le_of_lt hx] at hmem
  exact Bool.false_ne_true hmem.1

end ChargingSite.Binary64

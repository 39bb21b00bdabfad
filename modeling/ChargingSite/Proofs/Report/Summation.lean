import ChargingSite.Report.Summation
import ChargingSite.Proofs.Number.Binary64.Arithmetic
import Mathlib.Algebra.BigOperators.Group.List.Basic
import Mathlib.Data.List.Forall2

/-!
# Sums of whole numbers are exact

Doubles that hold natural numbers (`Binary64.Counts`) are added without an error as long as the sum
stays below `2 ^ 53`.  The order does not matter then: the sum from left to right
(`counts_runningSum`) and the sum in a tree shape (`counts_pairwiseSum`) both are the sum of the
numbers.
-/

namespace ChargingSite

namespace Binary64

/-- The double is the natural number, exactly, and not a negative zero. -/
structure Counts (x : Binary64) (n : ℕ) : Prop where
  eq_ofInt : x = ofInt n
  lt : n < 2 ^ 53

theorem Counts.isFinite {x : Binary64} {n : ℕ} (h : x.Counts n) : x.isFinite = true := by
  rw [h.eq_ofInt]
  exact (toRat_ofInt_natCast h.lt).1

theorem Counts.toRat_eq {x : Binary64} {n : ℕ} (h : x.Counts n) : x.toRat = n := by
  rw [h.eq_ofInt]
  exact (toRat_ofInt_natCast h.lt).2

theorem counts_ofInt {n : ℕ} (h : n < 2 ^ 53) : Counts (ofInt n) n :=
  ⟨rfl, h⟩

theorem counts_zero : Counts 0 0 :=
  counts_ofInt (by norm_num)

theorem Counts.add {x y : Binary64} {m n : ℕ} (hx : x.Counts m) (hy : y.Counts n)
    (h : m + n < 2 ^ 53) : (x + y).Counts (m + n) := by
  refine ⟨?_, h⟩
  rw [add_of_isFinite hx.isFinite hy.isFinite, hx.toRat_eq, hy.toRat_eq]
  rcases Nat.eq_zero_or_pos (m + n) with hzero | hpos
  · -- the sign of a sum that is zero comes from its terms, which have none
    obtain ⟨rfl, rfl⟩ := Nat.add_eq_zero_iff.mp hzero
    rw [hx.eq_ofInt, hy.eq_ofInt]
    decide +kernel
  · have hsum : (m : ℚ) + n = ((m + n : ℕ) : ℤ) := by push_cast; rfl
    rw [hsum]
    exact round_of_ne_zero (by exact_mod_cast hpos.ne') _ _

end Binary64

open Binary64 (Counts counts_zero)

/-! ### From left to right -/

theorem counts_runningSum {xs : List Binary64} {ns : List ℕ} {start : Binary64} {m : ℕ}
    (hstart : start.Counts m) (hxs : List.Forall₂ Counts xs ns) (h : m + ns.sum < 2 ^ 53) :
    (runningSum start xs).Counts (m + ns.sum) := by
  induction hxs generalizing start m with
  | nil => exact hstart
  | @cons x n xs ns head _ ih =>
    rw [List.sum_cons, ← add_assoc] at h ⊢
    exact ih (hstart.add head (by omega)) h

/-! ### In blocks -/

theorem counts_zipWith {xs ys : List Binary64} {ms ns : List ℕ} (hxs : List.Forall₂ Counts xs ms)
    (hys : List.Forall₂ Counts ys ns) (hlength : xs.length = ys.length)
    (h : ms.sum + ns.sum < 2 ^ 53) :
    ∃ ks, List.Forall₂ Counts (List.zipWith (· + ·) xs ys) ks ∧ ks.sum = ms.sum + ns.sum := by
  induction hxs generalizing ys ns with
  | nil =>
    obtain rfl := List.length_eq_zero_iff.mp hlength.symm
    cases hys
    exact ⟨[], .nil, rfl⟩
  | @cons x m xs ms head _ ih =>
    cases hys with
    | nil =>
      -- both lists have the same length
      cases hlength
    | @cons y n ys ns head' tail' =>
      rw [List.sum_cons, List.sum_cons] at h
      obtain ⟨ks, hks, hsum⟩ := ih tail' (Nat.succ.inj hlength) (by omega)
      refine ⟨(m + n) :: ks, .cons (head.add head' (by omega)) hks, ?_⟩
      rw [List.sum_cons, List.sum_cons, List.sum_cons, hsum]
      omega

/-- Moving a block into the accumulators moves its numbers along. -/
theorem counts_accumulateBlocks {acc xs : List Binary64} {ms ns : List ℕ}
    (hacc : List.Forall₂ Counts acc ms) (hlength : acc.length = 8)
    (hxs : List.Forall₂ Counts xs ns) (h : ms.sum + ns.sum < 2 ^ 53) :
    ∃ ms' ns', List.Forall₂ Counts (accumulateBlocks acc xs).1 ms' ∧
      (accumulateBlocks acc xs).1.length = 8 ∧
      List.Forall₂ Counts (accumulateBlocks acc xs).2 ns' ∧
      ms'.sum + ns'.sum = ms.sum + ns.sum := by
  fun_induction accumulateBlocks acc xs generalizing ms ns with
  | case1 acc xs hlong ih =>
    -- one more block goes into the accumulators, place by place
    have hsplit := List.sum_take_add_sum_drop ns 8
    have hblock : acc.length = (xs.take 8).length := by
      rw [List.length_take]
      omega
    obtain ⟨ks, hks, hsum⟩ :=
      counts_zipWith hacc (List.forall₂_take 8 hxs) hblock (by omega)
    obtain ⟨ms', ns', hms, hms_length, hns, htotal⟩ :=
      ih hks (by rw [List.length_zipWith, ← hblock, hlength]; rfl) (List.forall₂_drop 8 hxs)
        (by omega)
    exact ⟨ms', ns', hms, hms_length, hns, by omega⟩
  | case2 acc xs _ => exact ⟨ms, ns, hacc, hlength, hxs, rfl⟩

theorem exists_of_length_eq_eight {α : Type} {xs : List α} (h : xs.length = 8) :
    ∃ a b c d e f g k, xs = [a, b, c, d, e, f, g, k] := by
  match xs, h with
  | [a, b, c, d, e, f, g, k], _ => exact ⟨a, b, c, d, e, f, g, k, rfl⟩

theorem counts_closeBlocks {acc rest : List Binary64} {ms ns : List ℕ}
    (hacc : List.Forall₂ Counts acc ms) (hlength : acc.length = 8)
    (hrest : List.Forall₂ Counts rest ns) (h : ms.sum + ns.sum < 2 ^ 53) :
    (closeBlocks (acc, rest)).Counts (ms.sum + ns.sum) := by
  obtain ⟨a, b, c, d, e, f, g, k, rfl⟩ := exists_of_length_eq_eight hlength
  simp only [List.forall₂_cons_left_iff, List.forall₂_nil_left_iff] at hacc
  obtain ⟨m₁, _, ha, ⟨m₂, _, hb, ⟨m₃, _, hc, ⟨m₄, _, hd, ⟨m₅, _, he, ⟨m₆, _, hf,
    ⟨m₇, _, hg, ⟨m₈, _, hk, rfl, rfl⟩, rfl⟩, rfl⟩, rfl⟩, rfl⟩, rfl⟩, rfl⟩, rfl⟩ := hacc
  have hsum : [m₁, m₂, m₃, m₄, m₅, m₆, m₇, m₈].sum =
      m₁ + m₂ + (m₃ + m₄) + (m₅ + m₆ + (m₇ + m₈)) := by
    simp only [List.sum_cons, List.sum_nil]
    omega
  rw [hsum] at h ⊢
  have hfirst := (ha.add hb (by omega)).add (hc.add hd (by omega)) (by omega)
  have hsecond := (he.add hf (by omega)).add (hg.add hk (by omega)) (by omega)
  exact counts_runningSum (hfirst.add hsecond (by omega)) hrest h

/-! ### In a tree shape -/

theorem counts_pairwiseSum {xs : List Binary64} {ns : List ℕ} (hxs : List.Forall₂ Counts xs ns)
    (h : ns.sum < 2 ^ 53) : (pairwiseSum xs).Counts ns.sum := by
  fun_induction pairwiseSum xs generalizing ns with
  | case1 xs _ =>
    -- short lists are added from left to right
    have hsum := counts_runningSum counts_zero hxs (by omega)
    rwa [Nat.zero_add] at hsum
  | case2 xs hlong _ =>
    -- the accumulators start as the first block
    have hsplit := List.sum_take_add_sum_drop ns 8
    have hlength : (xs.take 8).length = 8 := by
      rw [List.length_take]
      omega
    obtain ⟨ms', ns', hms, hms_length, hns, htotal⟩ := counts_accumulateBlocks
      (List.forall₂_take 8 hxs) hlength (List.forall₂_drop 8 hxs) (by omega)
    rw [← hsplit, ← htotal]
    exact counts_closeBlocks hms hms_length hns (by omega)
  | case3 xs _ _ half ih =>
    rename_i ih'
    -- long lists are halved
    have hsplit := List.sum_take_add_sum_drop ns half
    rw [← hsplit]
    exact (ih (List.forall₂_take half hxs) (by omega)).add
      (ih' (List.forall₂_drop half hxs) (by omega)) (by omega)

end ChargingSite

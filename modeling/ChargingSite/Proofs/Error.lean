import ChargingSite.Error
import ChargingSite.Proofs.Lists

/-!
# Computations that succeed

What makes a computation that may fail succeed: a sequence succeeds if both its parts do
(`bind_eq_ok_iff`), a traversal of a list if it succeeds at every member (`mapM_eq_ok_iff`), and a
computation on numbers is a success in the library at large exactly if it is one itself
(`liftNumber_eq_ok_iff`).  A sequence that fails does so in its first part or in its second
(`bind_eq_error_iff`).  What computations answer can be compared, so that computations on given
inputs can be decided.
-/

namespace ChargingSite

/-! ### Sequences and traversals -/

variable {ε α β σ : Type}

theorem bind_eq_ok_iff {x : Except ε α} {f : α → Except ε β} {b : β} :
    (x >>= f) = .ok b ↔ ∃ a, x = .ok a ∧ f a = .ok b := by
  cases x with
  | error e => simp [bind, Except.bind]
  | ok a => simp [bind, Except.bind]

theorem bind_eq_error_iff {x : Except ε α} {f : α → Except ε β} {e : ε} :
    (x >>= f) = .error e ↔ x = .error e ∨ ∃ a, x = .ok a ∧ f a = .error e := by
  cases x with
  | error e => simp [bind, Except.bind]
  | ok a => simp [bind, Except.bind]

theorem map_eq_ok_iff {x : Except ε α} {f : α → β} {b : β} :
    x.map f = .ok b ↔ ∃ a, x = .ok a ∧ f a = b := by
  cases x with
  | error e => simp [Except.map]
  | ok a => simp [Except.map]

theorem pure_eq_ok_iff {a b : α} : (pure a : Except ε α) = .ok b ↔ a = b := by
  show (Except.ok a : Except ε α) = .ok b ↔ a = b
  rw [Except.ok.injEq]

theorem mapM_eq_ok_iff {f : α → Except ε β} {as : List α} {bs : List β} :
    as.mapM f = .ok bs ↔ List.Forall₂ (fun a b => f a = .ok b) as bs := by
  induction as generalizing bs with
  | nil => rw [List.mapM_nil, pure_eq_ok_iff, List.forall₂_nil_left_iff, eq_comm]
  | cons a as ih =>
    simp only [List.mapM_cons, bind_eq_ok_iff, pure_eq_ok_iff, ih, List.forall₂_cons_left_iff]
    constructor
    · rintro ⟨b, hb, bs, hbs, rfl⟩
      exact ⟨b, bs, hb, hbs, rfl⟩
    · rintro ⟨b, bs, hb, hbs, rfl⟩
      exact ⟨b, hb, bs, hbs, rfl⟩

theorem exists_mapM_eq_ok_iff {f : α → Except ε β} {as : List α} :
    (∃ bs, as.mapM f = .ok bs) ↔ ∀ a ∈ as, ∃ b, f a = .ok b := by
  induction as with
  | nil => simp [pure, Except.pure]
  | cons a as ih =>
    simp only [List.mapM_cons, bind_eq_ok_iff, pure_eq_ok_iff, List.forall_mem_cons, ← ih]
    constructor
    · rintro ⟨-, b, hb, bs, hbs, -⟩
      exact ⟨⟨b, hb⟩, bs, hbs⟩
    · rintro ⟨⟨b, hb⟩, bs, hbs⟩
      exact ⟨b :: bs, b, hb, bs, hbs, rfl⟩

/-- A traversal that fails does so at a member. -/
theorem exists_of_mapM_eq_error {f : α → Except ε β} {as : List α} {e : ε}
    (h : as.mapM f = .error e) : ∃ a ∈ as, f a = .error e := by
  induction as with
  | nil => cases h
  | cons a as ih =>
    rw [List.mapM_cons, bind_eq_error_iff] at h
    obtain h | ⟨b, -, h⟩ := h
    · -- the first one fails
      exact ⟨a, List.mem_cons_self, h⟩
    · obtain h | ⟨bs, -, h⟩ := bind_eq_error_iff.mp h
      · -- one behind it fails
        obtain ⟨a', ha', hfail⟩ := ih h
        exact ⟨a', List.mem_cons_of_mem a ha', hfail⟩
      · -- nothing fails once all results are there
        cases h

/-- A fold that only collects, at each member, what a traversal answers there is that traversal. -/
theorem foldlM_eq_map_mapM {step : σ → α → Except ε σ} {f : α → Except ε β} {state : List β → σ}
    {as : List α}
    (h : ∀ done, ∀ a ∈ as, step (state done) a = (f a).map fun b => state (done ++ [b]))
    (done : List β) :
    as.foldlM step (state done) = (as.mapM f).map fun new => state (done ++ new) := by
  induction as generalizing done with
  | nil =>
    show Except.ok (state done) = Except.ok (state (done ++ []))
    rw [List.append_nil]
  | cons a as ih =>
    rw [List.foldlM_cons, List.mapM_cons, h done a List.mem_cons_self]
    cases f a with
    | error e => rfl
    | ok b =>
      refine (ih (fun done a' ha' => h done a' (List.mem_cons_of_mem a ha')) (done ++ [b])).trans ?_
      show _ = Except.map _ (as.mapM f >>= fun bs => pure (b :: bs))
      cases as.mapM f with
      | error e => rfl
      | ok bs =>
        show Except.ok (state (done ++ [b] ++ bs)) = Except.ok (state (done ++ b :: bs))
        rw [List.append_assoc, List.singleton_append]

/-- A fold that only collects at first goes on from what it has collected. -/
theorem foldlM_append_eq_bind {step : σ → α → Except ε σ} {f : α → Except ε β}
    {state : List β → σ} {before : List α} (rest : List α)
    (h : ∀ done, ∀ a ∈ before, step (state done) a = (f a).map fun b => state (done ++ [b]))
    (done : List β) :
    (before ++ rest).foldlM step (state done) =
      before.mapM f >>= fun new => rest.foldlM step (state (done ++ new)) := by
  rw [List.foldlM_append, foldlM_eq_map_mapM h]
  cases before.mapM f with
  | error e => rfl
  | ok new => rfl

theorem liftNumber_eq_ok_iff {x : Except NumberError α} {a : α} :
    liftNumber x = .ok a ↔ x = .ok a := by
  cases x with
  | error e => simp [liftNumber]
  | ok a => simp [liftNumber]

theorem liftNumber_eq_error_iff {x : Except NumberError α} {e : SiteError} :
    liftNumber x = .error e ↔ ∃ cause, x = .error cause ∧ e = .number cause := by
  cases x with
  | error e => simp [liftNumber, eq_comm]
  | ok a => simp [liftNumber]

/-- A traversal on numbers is the same one in the library at large. -/
theorem mapM_liftNumber {f : α → Except NumberError β} {as : List α} :
    (as.mapM fun a => liftNumber (f a)) = liftNumber (as.mapM f) := by
  induction as with
  | nil => rfl
  | cons a as ih =>
    rw [List.mapM_cons, List.mapM_cons, ih]
    cases f a with
    | error e => rfl
    | ok b =>
      show (liftNumber (as.mapM f) >>= fun bs => pure (b :: bs)) = liftNumber (as.mapM f >>= _)
      cases as.mapM f with
      | error e => rfl
      | ok bs => rfl

instance decidableEqExcept [DecidableEq ε] [DecidableEq α] : DecidableEq (Except ε α)
  | .ok a, .ok b => decidable_of_iff (a = b) (by rw [Except.ok.injEq])
  | .error a, .error b => decidable_of_iff (a = b) (by rw [Except.error.injEq])
  | .ok _, .error _ => isFalse (by simp)
  | .error _, .ok _ => isFalse (by simp)

end ChargingSite

import Mathlib.Data.List.Forall2

/-!
# Lists side by side

Two lists are side by side if a relation holds of the members in each place (`List.Forall₂`).  What
one of them has, the other has as well (`exists_left_of_forall₂`, `exists_right_of_forall₂`), in the
same place (`exists_getElem?_of_forall₂`); relations are composed place by place
(`forall₂_trans`), and a list next to lists in a row falls into as many groups
(`exists_groups_of_forall₂`).  If any member of a list has a property, there is a first one that has
it (`exists_first`).
-/

namespace ChargingSite

variable {α β γ : Type} {R : α → β → Prop} {as : List α} {bs : List β}

theorem exists_left_of_forall₂ (h : List.Forall₂ R as bs) {b : β} (hb : b ∈ bs) :
    ∃ a ∈ as, R a b := by
  induction h with
  | nil => cases hb
  | cons head _ ih =>
    rcases List.mem_cons.mp hb with rfl | hb
    · exact ⟨_, List.mem_cons_self, head⟩
    · obtain ⟨a, ha, hab⟩ := ih hb
      exact ⟨a, List.mem_cons_of_mem _ ha, hab⟩

theorem exists_right_of_forall₂ (h : List.Forall₂ R as bs) {a : α} (ha : a ∈ as) :
    ∃ b ∈ bs, R a b :=
  exists_left_of_forall₂ (R := flip R) (List.Forall₂.flip (R := flip R) h) ha

theorem exists_getElem?_of_forall₂ (h : List.Forall₂ R as bs) {i : ℕ} {a : α}
    (ha : as[i]? = some a) : ∃ b, bs[i]? = some b ∧ R a b := by
  obtain ⟨hi, rfl⟩ := List.getElem?_eq_some_iff.mp ha
  have hi' : i < bs.length := h.length_eq ▸ hi
  exact ⟨bs[i], List.getElem?_eq_getElem hi', h.get hi hi'⟩

theorem forall₂_imp_of_mem {S : α → β → Prop} (h : List.Forall₂ R as bs)
    (himp : ∀ a ∈ as, ∀ b, R a b → S a b) : List.Forall₂ S as bs :=
  ((List.forall₂_and_left _ _).mpr ⟨fun _ ha => ha, h⟩).imp fun a b ⟨ha, hab⟩ => himp a ha b hab

theorem forall₂_trans {S : β → γ → Prop} {T : α → γ → Prop} {cs : List γ}
    (h : List.Forall₂ R as bs) (h' : List.Forall₂ S bs cs)
    (hcomp : ∀ a b c, R a b → S b c → T a c) : List.Forall₂ T as cs := by
  induction h generalizing cs with
  | nil =>
    cases h'
    exact .nil
  | cons head _ ih =>
    cases h' with
    | cons head' tail' => exact .cons (hcomp _ _ _ head head') (ih tail')

theorem map_eq_map_of_forall₂ {f : α → γ} {g : β → γ} (h : List.Forall₂ R as bs)
    (hfg : ∀ a b, R a b → f a = g b) : as.map f = bs.map g := by
  induction h with
  | nil => rfl
  | cons head _ ih => rw [List.map_cons, List.map_cons, hfg _ _ head, ih]

theorem forall₂_mapIdx (f : ℕ → α → β) (h : ∀ position a, R a (f position a)) :
    List.Forall₂ R as (as.mapIdx f) := by
  induction as generalizing f with
  | nil => exact .nil
  | cons a as ih =>
    rw [List.mapIdx_cons]
    exact .cons (h 0 a) (ih _ fun position a => h (position + 1) a)

theorem exists_append_of_forall₂ {as' : List α} (h : List.Forall₂ R (as ++ as') bs) :
    ∃ cs cs', bs = cs ++ cs' ∧ List.Forall₂ R as cs ∧ List.Forall₂ R as' cs' := by
  have hfirst := (List.forall₂_take_append bs as as' h.flip).flip
  have hrest := (List.forall₂_drop_append bs as as' h.flip).flip
  exact ⟨_, _, (List.take_append_drop as.length bs).symm, hfirst, hrest⟩

/-- A list related to lists in a row falls into groups, one for each of them. -/
theorem exists_groups_of_forall₂ {S : β → γ → Prop} {f : α → List β} {cs : List γ}
    (h : List.Forall₂ S (as.flatMap f) cs) :
    ∃ groups, groups.flatten = cs ∧ List.Forall₂ (fun a group => List.Forall₂ S (f a) group) as
      groups := by
  induction as generalizing cs with
  | nil =>
    cases h
    exact ⟨[], rfl, .nil⟩
  | cons a as ih =>
    rw [List.flatMap_cons] at h
    obtain ⟨group, rest, rfl, hfirst, hrest⟩ := exists_append_of_forall₂ h
    obtain ⟨groups, rfl, hgroups⟩ := ih hrest
    exact ⟨group :: groups, rfl, .cons hfirst hgroups⟩

/-! ### The first member with a property -/

/-- Before the first member with a property there is none. -/
theorem exists_first {p : α → Prop} {as : List α} (h : ∃ a ∈ as, p a) :
    ∃ before a after, as = before ++ a :: after ∧ p a ∧ ∀ b ∈ before, ¬p b := by
  induction as with
  | nil => simp at h
  | cons head as ih =>
    by_cases hhead : p head
    · exact ⟨[], head, as, rfl, hhead, by simp⟩
    · obtain ⟨before, a, after, rfl, ha, hbefore⟩ := ih (by simpa [hhead] using h)
      exact ⟨head :: before, a, after, rfl, ha, by simpa [hhead] using hbefore⟩

end ChargingSite

import ChargingSite.Report.Series
import Mathlib.Data.List.Induction
import Mathlib.Data.List.Nodup

/-!
# The names of vehicles, in order

`sortNames` holds each named vehicle once, by its number, with the last name given to it
(`pairwise_sortNames`, `mem_sortNames`).  The series of vehicles are listed as `namedFirst` has
them: the named ones, then the others in the order in which they first appear.
-/

namespace ChargingSite

/-! ### Names in order -/

section Names

variable {id : Int} {name : String} {named : List (Int × String)}

theorem mem_insertName {entry : Int × String} (h : named.Pairwise (·.1 < ·.1)) :
    entry ∈ insertName id name named ↔ entry = (id, name) ∨ entry.1 ≠ id ∧ entry ∈ named := by
  induction named with
  | nil => simp [insertName]
  | cons first rest ih =>
    obtain ⟨hfirst, hrest⟩ := List.pairwise_cons.mp h
    have hne : id ≤ first.1 → entry ∈ rest → entry.1 ≠ id := by
      intro hle hmem
      have := hfirst entry hmem
      omega
    unfold insertName
    by_cases hlt : id < first.1
    · -- the new name comes before all others
      have : entry = first → entry.1 ≠ id := by
        intro heq
        rw [heq]
        omega
      grind
    · by_cases heq : id = first.1
      · -- it replaces the first one, which has the same number
        grind
      · -- it comes somewhere behind the first one
        grind

theorem pairwise_insertName (h : named.Pairwise (·.1 < ·.1)) :
    (insertName id name named).Pairwise (·.1 < ·.1) := by
  induction named with
  | nil => simp [insertName]
  | cons first rest ih =>
    obtain ⟨hfirst, hrest⟩ := List.pairwise_cons.mp h
    unfold insertName
    by_cases hlt : id < first.1
    · -- before all others it is below the first, and so below the rest
      rw [if_pos hlt, List.pairwise_cons]
      refine ⟨fun entry hentry => ?_, h⟩
      obtain rfl | hentry := List.mem_cons.mp hentry
      · exact hlt
      · have := hfirst entry hentry
        show id < entry.1
        omega
    · rw [if_neg hlt]
      by_cases heq : id = first.1
      · -- in place of the first it has the number of the first
        rw [if_pos heq, List.pairwise_cons]
        exact ⟨heq ▸ hfirst, hrest⟩
      · -- behind the first it is no further than the rest, which was above the first
        rw [if_neg heq, List.pairwise_cons]
        refine ⟨fun entry hentry => ?_, ih hrest⟩
        obtain rfl | ⟨-, hentry⟩ := (mem_insertName hrest).mp hentry
        · show first.1 < id
          omega
        · exact hfirst entry hentry

theorem sortNames_concat (names : List (Int × String)) (id : Int) (name : String) :
    sortNames (names ++ [(id, name)]) = insertName id name (sortNames names) := by
  simp [sortNames]

theorem pairwise_sortNames (names : List (Int × String)) :
    (sortNames names).Pairwise (·.1 < ·.1) := by
  induction names using List.reverseRecOn with
  | nil => simp [sortNames]
  | append_singleton names last ih =>
    rw [sortNames_concat]
    exact pairwise_insertName ih

theorem nodup_fst_sortNames (names : List (Int × String)) :
    ((sortNames names).map Prod.fst).Nodup :=
  List.pairwise_map.mpr ((pairwise_sortNames names).imp fun h => Int.ne_of_lt h)

/-- A vehicle goes by the last name given to it. -/
theorem mem_sortNames {names : List (Int × String)} :
    (id, name) ∈ sortNames names ↔ names.reverse.lookup id = some name := by
  -- the last of the names with one number counts, so the induction goes from the right
  induction names using List.reverseRecOn with
  | nil => simp [sortNames]
  | append_singleton names last ih =>
    obtain ⟨lastId, lastName⟩ := last
    rw [sortNames_concat, mem_insertName (pairwise_sortNames names), ih, List.reverse_concat,
      List.lookup_cons]
    by_cases h : id = lastId
    · -- the last name is the one that is looked up
      simp [h, eq_comm]
    · -- the last name is another one's
      simp [beq_false_of_ne h, h]

end Names

/-! ### Each once, in the order of first appearance -/

theorem eraseDups_concat {α : Type} [DecidableEq α] (as : List α) (a : α) :
    (as ++ [a]).eraseDups = if a ∈ as then as.eraseDups else as.eraseDups ++ [a] := by
  rw [List.eraseDups_append]
  by_cases h : a ∈ as
  · simp [h, List.removeAll]
  · simp [h, List.removeAll, List.eraseDups_cons]

theorem nodup_eraseDups {α : Type} [DecidableEq α] (as : List α) : as.eraseDups.Nodup := by
  induction as using List.reverseRecOn with
  | nil => simp
  | append_singleton as a ih =>
    rw [eraseDups_concat]
    split
    · -- the last member has occurred before
      exact ih
    · -- the last member is new, and comes last
      next h =>
      refine List.Nodup.append ih (List.nodup_singleton a) fun b hb hba => h ?_
      rw [← List.mem_singleton.mp hba]
      exact List.mem_eraseDups.mp hb

/-- The vehicles with a name, followed by the others among `ids`, without one. -/
def namedFirst (named : List (Int × String)) (ids : List Int) : List (Int × String) :=
  named ++ ((ids.filter (· ∉ named.map Prod.fst)).eraseDups.map (·, ""))

section NamedFirst

variable {named : List (Int × String)} {ids : List Int} {id : Int}

theorem mem_fst_namedFirst :
    id ∈ (namedFirst named ids).map Prod.fst ↔ id ∈ named.map Prod.fst ∨ id ∈ ids := by
  simp only [namedFirst, List.map_append, List.map_map, Function.comp_def, List.map_id',
    List.mem_append, List.mem_eraseDups, List.mem_filter, decide_eq_true_eq]
  tauto

theorem nodup_namedFirst (h : (named.map Prod.fst).Nodup) :
    ((namedFirst named ids).map Prod.fst).Nodup := by
  simp only [namedFirst, List.map_append, List.map_map, Function.comp_def, List.map_id']
  refine List.Nodup.append h (nodup_eraseDups _) fun id hnamed hid => ?_
  simp only [List.mem_eraseDups, List.mem_filter, decide_eq_true_eq] at hid
  exact hid.2 hnamed

/-- A vehicle seen once more changes the list only if it was not there. -/
theorem namedFirst_concat (named : List (Int × String)) (ids : List Int) (id : Int) :
    namedFirst named (ids ++ [id]) =
      if id ∈ (namedFirst named ids).map Prod.fst then namedFirst named ids
      else namedFirst named ids ++ [(id, "")] := by
  rw [if_congr mem_fst_namedFirst rfl rfl]
  unfold namedFirst
  rw [List.filter_append]
  by_cases hnamed : id ∈ named.map Prod.fst
  · -- whoever has a name is among the first already
    simp [hnamed]
  · rw [show [id].filter (· ∉ named.map Prod.fst) = [id] by simpa using hnamed, eraseDups_concat]
    by_cases hid : id ∈ ids
    · -- whoever was seen before is listed already
      simp [hid, hnamed]
    · -- whoever is new and without a name comes last
      simp [hid, hnamed]

end NamedFirst

end ChargingSite
